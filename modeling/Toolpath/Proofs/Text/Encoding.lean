import Mathlib
import Toolpath.Proofs.Text.Terminated

/-! # Lines of bytes and lines of text

Line feed and carriage return are each written as one byte, and that byte stands in no other
character. So cutting bytes into lines and reading the lines as text is the same as reading the
bytes as text and cutting that, and bytes that are not text have a first line that is not text.
-/

namespace Toolpath

namespace Lines

section Coding

variable {α β : Type}

/-- An element that is written as one mark, which stands in no other element. -/
structure Marks (code : α → List β) (mark : α) (written : β) : Prop where
  self : code mark = [written]
  only : ∀ {c}, written ∈ code c → c = mark

variable {code : α → List β} {feed ret : α} {feed' ret' : β}

/-- Cutting after every line feed commutes with writing. -/
private theorem segments_flatMap_code [DecidableEq α] [DecidableEq β] (nonempty : ∀ c, code c ≠ [])
    (marks : Marks code feed feed') (text : List α) :
    segments feed' (text.flatMap code) = (segments feed text).map (·.flatMap code) := by
  induction text with
  | nil => rfl
  | cons c text ih =>
    by_cases same : c = feed
    · rw [same, List.flatMap_cons, marks.self, List.singleton_append, segments_cons, segments_cons,
        ih]
      simp [attach, marks.self]
    · have within : feed' ∉ code c := by
        intro member
        exact same (marks.only member)
      rw [List.flatMap_cons, segments_append within (nonempty c), ih, segments_cons,
        attach_of_ne same]
      cases segments feed text <;> simp

private theorem getLast?_flatMap_code (nonempty : ∀ c, code c ≠ []) (marks : Marks code feed feed')
    (text : List α) : (text.flatMap code).getLast? = some feed' ↔ text.getLast? = some feed := by
  rcases List.eq_nil_or_concat' text with rfl | ⟨front, last, rfl⟩
  · simp
  · rw [List.flatMap_append, List.flatMap_singleton,
      List.getLast?_append_of_ne_nil _ (nonempty last), List.getLast?_concat]
    constructor
    · intro ends
      exact congrArg some (marks.only (List.mem_of_getLast? ends))
    · intro ends
      rw [Option.some.inj ends, marks.self]
      rfl

private theorem dropLast_flatMap_code (marks : Marks code feed feed') {text : List α}
    (ends : text.getLast? = some feed) :
    (text.flatMap code).dropLast = text.dropLast.flatMap code := by
  obtain ⟨front, rfl⟩ := List.getLast?_eq_some_iff.mp ends
  rw [List.flatMap_append, List.flatMap_singleton, marks.self, List.dropLast_concat,
    List.dropLast_concat]

variable [DecidableEq α] [DecidableEq β]

private theorem trim_flatMap_code (nonempty : ∀ c, code c ≠ []) (rets : Marks code ret ret')
    (text : List α) : trim ret' (text.flatMap code) = (trim ret text).flatMap code := by
  simp only [trim, getLast?_flatMap_code nonempty rets]
  split_ifs with ends
  · exact dropLast_flatMap_code rets ends
  · rfl

private theorem chomp_eq (segment : List α) :
    chomp feed ret segment =
      if segment.getLast? = some feed then trim ret segment.dropLast else segment := rfl

/-- Cutting into lines commutes with writing. -/
theorem split_flatMap_code (nonempty : ∀ c, code c ≠ []) (feeds : Marks code feed feed')
    (rets : Marks code ret ret') (text : List α) :
    split feed' ret' (text.flatMap code) = (split feed ret text).map (·.flatMap code) := by
  rw [split, segments_flatMap_code nonempty feeds, split, List.map_map, List.map_map]
  apply List.map_congr_left
  intro segment _
  simp only [Function.comp_apply, chomp_eq, getLast?_flatMap_code nonempty feeds]
  split_ifs with ends
  · rw [dropLast_flatMap_code feeds ends, trim_flatMap_code nonempty rets]
  · rfl

end Coding

/-- A byte below 128 stands for itself only. -/
private theorem utf8EncodeChar_of_mem {c : Char} {byte : UInt8} (small : byte.toNat < 128)
    (member : byte ∈ String.utf8EncodeChar c) : c.toNat = byte.toNat := by
  have value : c.toNat = c.val.toNat := rfl
  rw [value]
  rw [String.utf8EncodeChar] at member
  split_ifs at member <;> simp only [List.mem_cons, List.not_mem_nil, or_false] at member
  · rw [member, UInt8.toNat_ofNat']
    omega
  · rcases member with rfl | rfl <;> rw [UInt8.toNat_ofNat'] at small <;> omega
  · rcases member with rfl | rfl | rfl <;> rw [UInt8.toNat_ofNat'] at small <;> omega
  · rcases member with rfl | rfl | rfl | rfl <;> rw [UInt8.toNat_ofNat'] at small <;> omega

private theorem marks_ascii {mark : Char} {byte : UInt8}
    (self : String.utf8EncodeChar mark = [byte]) (small : byte.toNat < 128)
    (same : mark.toNat = byte.toNat) : Marks String.utf8EncodeChar mark byte := by
  refine ⟨self, ?_⟩
  intro c member
  apply Char.toNat_inj.mp
  rw [utf8EncodeChar_of_mem small member, same]

private theorem marks_feed : Marks String.utf8EncodeChar '\n' 10 :=
  marks_ascii (by decide) (by decide) (by decide)

private theorem marks_return : Marks String.utf8EncodeChar '\r' 13 :=
  marks_ascii (by decide) (by decide) (by decide)

private theorem utf8EncodeChar_ne_nil (c : Char) : String.utf8EncodeChar c ≠ [] := by
  rw [← List.length_pos_iff, String.length_utf8EncodeChar]
  exact Char.utf8Size_pos c

private theorem toList_data_toUTF8 (text : String) :
    text.toUTF8.data.toList = text.toList.flatMap String.utf8EncodeChar := by
  rw [String.toUTF8_eq_toByteArray, ← String.utf8Encode_toList, List.utf8Encode,
    List.toList_data_toByteArray]

private theorem mk_toArray (bytes : List UInt8) :
    (⟨bytes.toArray⟩ : ByteArray) = bytes.toByteArray :=
  ByteArray.ext List.data_toByteArray.symm

/-- The lines of the bytes of a text are the bytes of its lines. -/
theorem ofBytes_toUTF8 (text : String) :
    ofBytes text.toUTF8 = (ofString text).map String.toUTF8 := by
  rw [ofBytes, toList_data_toUTF8, split_flatMap_code utf8EncodeChar_ne_nil marks_feed marks_return,
    ofString, List.map_map, List.map_map]
  apply List.map_congr_left
  intro line _
  rw [Function.comp_apply, Function.comp_apply, String.toUTF8_eq_toByteArray,
    String.toByteArray_ofList, List.utf8Encode, mk_toArray]

end Lines

theorem fromUTF8?_toUTF8 (text : String) : String.fromUTF8? text.toUTF8 = some text := by
  have valid : text.toUTF8.IsValidUTF8 := text.isValidUTF8
  rw [String.fromUTF8?, dif_pos valid]
  rfl

theorem eq_toUTF8_of_fromUTF8? {bytes : ByteArray} {text : String}
    (decoded : String.fromUTF8? bytes = some text) : bytes = text.toUTF8 := by
  rw [String.fromUTF8?] at decoded
  split_ifs at decoded
  exact congrArg String.toUTF8 (Option.some.inj decoded)

namespace Lines

section Tail

variable {α : Type} [DecidableEq α] (feed ret : α)

/-- What is cut off a piece to make a line. -/
private theorem exists_chomp_append (segment : List α) :
    ∃ tail, (tail = [] ∨ tail = [feed] ∨ tail = [ret, feed]) ∧
      segment = chomp feed ret segment ++ tail := by
  by_cases ends : segment.getLast? = some feed
  · obtain ⟨front, rfl⟩ := List.getLast?_eq_some_iff.mp ends
    obtain ⟨tail, shape, whole⟩ := exists_trim_append ret front
    rw [chomp_concat]
    refine ⟨tail ++ [feed], ?_, by rw [← List.append_assoc, ← whole]⟩
    rcases shape with rfl | rfl
    · exact .inr (.inl rfl)
    · exact .inr (.inr rfl)
  · exact ⟨[], .inl rfl, by rw [chomp_eq, if_neg ends, List.append_nil]⟩

end Tail

/-- Bytes whose lines are all text are text. -/
private theorem isValidUTF8_of_lines {bytes : ByteArray}
    (lines : ∀ line ∈ ofBytes bytes, line.IsValidUTF8) : bytes.IsValidUTF8 := by
  have segment : ∀ segment ∈ segments 10 bytes.data.toList, segment.toByteArray.IsValidUTF8 := by
    intro segment member
    have line : (chomp 10 13 segment).toByteArray.IsValidUTF8 := by
      apply lines
      rw [← mk_toArray]
      exact List.mem_map_of_mem (List.mem_map_of_mem member)
    obtain ⟨tail, shape, whole⟩ := exists_chomp_append (10 : UInt8) 13 segment
    have tailValid : tail.toByteArray.IsValidUTF8 := by rcases shape with rfl | rfl | rfl <;> decide
    rw [whole, List.toByteArray_append]
    exact line.append tailValid
  have whole : bytes = (segments 10 bytes.data.toList).flatten.toByteArray := by
    rw [flatten_segments]
    exact ByteArray.ext (by simp)
  rw [whole]
  generalize segments 10 bytes.data.toList = pieces at segment
  induction pieces with
  | nil => exact ByteArray.isValidUTF8_empty
  | cons first rest ih =>
    obtain ⟨valid, others⟩ := List.forall_mem_cons.mp segment
    rw [List.flatten_cons, List.toByteArray_append]
    exact valid.append (ih others)

/-- Lines of bytes are all text, or one of them is the first that is not. -/
private theorem texts_or_first_bad (lines : List ByteArray) :
    (∀ line ∈ lines, line.IsValidUTF8) ∨
      ∃ (texts : List String) (bad : ByteArray) (rest : List ByteArray),
        lines = texts.map String.toUTF8 ++ bad :: rest ∧ String.fromUTF8? bad = none := by
  induction lines with
  | nil => exact .inl (List.forall_mem_nil _)
  | cons line lines ih =>
    cases decoded : String.fromUTF8? line with
    | none => exact .inr ⟨[], line, lines, rfl, decoded⟩
    | some text =>
      obtain rfl := eq_toUTF8_of_fromUTF8? decoded
      rcases ih with all | ⟨texts, bad, rest, rfl, undecoded⟩
      · exact .inl (List.forall_mem_cons.mpr ⟨text.isValidUTF8, all⟩)
      · exact .inr ⟨text :: texts, bad, rest, rfl, undecoded⟩

/-- Bytes that are not text have a first line that is not text. -/
theorem exists_first_bad {bytes : ByteArray} (undecoded : String.fromUTF8? bytes = none) :
    ∃ (texts : List String) (bad : ByteArray) (rest : List ByteArray),
      ofBytes bytes = texts.map String.toUTF8 ++ bad :: rest ∧ String.fromUTF8? bad = none := by
  apply (texts_or_first_bad (ofBytes bytes)).resolve_left
  intro all
  rw [String.fromUTF8?, dif_pos (isValidUTF8_of_lines all)] at undecoded
  contradiction

end Lines

end Toolpath
