import Mathlib
import Toolpath.Proofs.Decimal.Length
import Toolpath.Proofs.Text.Remarks

/-! # How long a written line is

The length of a line is counted in bytes, with one byte after each word for the space that follows
it. A word is read into a field that takes no more room than the word did, provided that a number in
it is a short numeral, so a line without its comment is no longer than the words that it was read
from.
-/

namespace Toolpath

open String (utf8Len)

/-- Bytes of some parts with one byte after each. -/
def spaced (parts : List (List Char)) : Nat := (parts.map fun part => utf8Len part + 1).sum

@[simp] theorem spaced_nil : spaced [] = 0 := rfl

@[simp] theorem spaced_cons (part : List Char) (parts : List (List Char)) :
    spaced (part :: parts) = utf8Len part + 1 + spaced parts := by
  rw [spaced, List.map_cons, List.sum_cons]
  rfl

@[simp] theorem spaced_append (first second : List (List Char)) :
    spaced (first ++ second) = spaced first + spaced second := by
  rw [spaced, List.map_append, List.sum_append]
  rfl

theorem length_le_utf8Len (chars : List Char) : chars.length ≤ utf8Len chars := by
  induction chars with
  | nil => exact Nat.le_refl 0
  | cons c rest ih => exact Nat.add_le_add ih (Char.utf8Size_pos c)

theorem utf8Len_of_narrow {chars : List Char} (narrow : ∀ c ∈ chars, c.utf8Size = 1) :
    utf8Len chars = chars.length := by
  induction chars with
  | nil => rfl
  | cons c rest ih =>
    obtain ⟨first, others⟩ := List.forall_mem_cons.mp narrow
    rw [String.utf8Len_cons, ih others, first, List.length_cons]

theorem utf8Size_of_isDigit {c : Char} (digit : c.isDigit = true) : c.utf8Size = 1 := by
  have code := Char.isDigit_iff_toNat.mp digit
  simp only [Char.reduceToNat] at code
  rw [Char.utf8Size, if_pos]
  exact UInt32.le_iff_toNat_le.mpr (code.2.trans (by decide))

/-- Parts one space apart take one byte less than parts with a space after each. -/
theorem utf8Len_intercalate {parts : List (List Char)} (nonempty : parts ≠ []) :
    utf8Len ([' '].intercalate parts) + 1 = spaced parts := by
  induction parts with
  | nil => contradiction
  | cons part rest ih =>
    cases rest with
    | nil => simp
    | cons next others =>
      have tail := ih (List.cons_ne_nil _ _)
      rw [List.intercalate_cons_cons, String.utf8Len_append, String.utf8Len_append, spaced_cons,
        ← tail, show utf8Len [' '] = 1 from rfl]
      omega

namespace Word

theorem utf8Size_of_isBlank {c : Char} (blank : isBlank c = true) : c.utf8Size = 1 := by
  simp only [isBlank, Bool.or_eq_true, decide_eq_true_iff] at blank
  rcases blank with (((rfl | rfl) | rfl) | rfl) | rfl <;> rfl

/-- Cutting a text at its blanks puts the byte of each blank after the piece before it. -/
theorem spaced_splitOnP (text : List Char) :
    spaced (text.splitOnP isBlank) = utf8Len text + 1 := by
  induction text with
  | nil => rfl
  | cons c text ih =>
    rw [List.splitOnP_cons_eq_if_modifyHead]
    split_ifs with blank
    · rw [spaced_cons, ih, String.utf8Len_cons, utf8Size_of_isBlank blank, String.utf8Len_nil]
      omega
    · obtain ⟨head, tail, pieces⟩ := List.exists_cons_of_ne_nil (List.splitOnP_ne_nil isBlank text)
      rw [pieces, spaced_cons] at ih
      rw [pieces, List.modifyHead_cons, spaced_cons, String.utf8Len_cons, String.utf8Len_cons]
      omega

theorem spaced_runs_le (text : List Char) : spaced (runs text) ≤ utf8Len text + 1 := by
  rw [← spaced_splitOnP]
  exact (List.filter_sublist.map _).sum_le_sum fun _ _ => Nat.zero_le _

/-- Whether the last word of a line goes up to its comment, with no blank before the marker. -/
def abuts (line : List Char) : Bool :=
  (code line).getLast?.any (!isBlank ·) && !(remark line).isEmpty

/-- The words before a comment with a byte after each fit before the comment, unless the last one
goes up to it. -/
theorem spaced_runs_code_le {line : List Char} (remarked : remark line ≠ []) :
    spaced (runs (code line)) ≤ utf8Len (code line) + if abuts line then 1 else 0 := by
  rcases List.eq_nil_or_concat' (code line) with empty | ⟨front, c, shape⟩
  · rw [empty]
    exact Nat.zero_le _
  · cases blank : isBlank c with
    | true =>
      rw [shape, runs_concat_blank front blank, String.utf8Len_append, String.utf8Len_cons,
        utf8Size_of_isBlank blank, String.utf8Len_nil]
      exact Nat.le_add_right_of_le (spaced_runs_le front)
    | false =>
      have touching : abuts line = true := by simp [abuts, shape, blank, remarked]
      rw [if_pos touching]
      exact spaced_runs_le _

/-- What starts with a marker at the end of a line is part of its comment. -/
theorem suffix_remark {line text : List Char} (suffix : text <:+ line)
    (marked : text.head? = some commentMarker) : text <:+ remark line := by
  have whole : remark line <:+ line := List.dropWhile_suffix _
  rcases List.suffix_or_suffix_of_suffix suffix whole with inner | outer
  · exact inner
  · obtain ⟨front, rfl⟩ := suffix
    obtain ⟨between, same⟩ := outer
    have code := code_append_remark (front ++ text)
    nth_rewrite 3 [← same] at code
    rw [← List.append_assoc, List.append_cancel_right_eq] at code
    cases between with
    | nil => exact ⟨[], same.symm⟩
    | cons first rest =>
      rw [← same, List.cons_append, List.head?_cons, Option.some_inj] at marked
      have member : commentMarker ∈ Word.code (front ++ text) := by
        rw [code, ← marked]
        simp
      exact absurd member (marker_not_mem_code _)

/-- A word whose rest is no number or a short numeral. -/
def Plain (run : List Char) : Prop :=
  (Numeral.read? run.tail).isSome = true →
    ∃ numeral : PlainNumeral, numeral.Spells run.tail ∧ numeral.Short

end Word

namespace Numeral

/-- A natural number was read from digits, maybe with a plus in front. -/
theorem exists_digits_of_natural? {limit value : Nat} {text : List Char}
    (spelt : natural? limit text = some value) :
    ∃ digits, digits.length ≤ text.length ∧ digits ≠ [] ∧ (∀ c ∈ digits, c.isDigit = true) ∧
      Nat.ofDigitChars 10 digits 0 = value ∧ value ≤ limit := by
  have unsigned : ∃ digits : List Char, digits.length ≤ text.length ∧
      natural? limit text = if digits.isEmpty || !digits.all Char.isDigit then none
        else if limit < Nat.ofDigitChars 10 digits 0 then none
        else some (Nat.ofDigitChars 10 digits 0) := by
    simp only [natural?]
    split
    · exact ⟨_, Nat.le_succ _, rfl⟩
    · exact ⟨_, Nat.le_refl _, rfl⟩
  obtain ⟨digits, shorter, same⟩ := unsigned
  rw [same] at spelt
  split_ifs at spelt with bad large
  obtain rfl := Option.some.inj spelt
  simp only [Bool.or_eq_true, Bool.not_eq_true', not_or, Bool.not_eq_false, List.isEmpty_iff,
    List.all_eq_true] at bad
  exact ⟨digits, shorter, bad.1, bad.2, rfl, Nat.le_of_not_lt large⟩

/-- A natural number is written with no more digits than it was read from. -/
theorem length_toDigits_le {limit value : Nat} {text : List Char}
    (spelt : natural? limit text = some value) :
    (Nat.toDigits 10 value).length ≤ text.length := by
  obtain ⟨digits, shorter, nonempty, digit, rfl, -⟩ := exists_digits_of_natural? spelt
  have short := (Nat.length_toDigits_le_iff (by decide) (List.length_pos_iff.mpr nonempty)).mpr
    (ofDigitChars_lt digit)
  exact short.trans shorter

end Numeral

namespace Field

/-- Bytes of a field with the space after it. -/
def size (field : Field) : Nat := utf8Len field.render.toList + 1

theorem utf8Len_chars (places : Nat) (value : Float) :
    utf8Len (Fixed.chars places value) = (Fixed.chars places value).length := by
  apply utf8Len_of_narrow
  intro c member
  rcases Fixed.mem_chars member with digit | other
  · exact utf8Size_of_isDigit digit
  · simp only [List.mem_cons, List.not_mem_nil, or_false] at other
    rcases other with rfl | rfl | rfl | rfl | rfl | rfl | rfl <;> rfl

/-- A number field takes no more room than the word that it was read from. -/
theorem size_number_le {key letter : Char} (narrow : key.utf8Size ≤ letter.utf8Size)
    {rest : List Char} (plain : Word.Plain (letter :: rest)) {value : Float}
    (spelt : Numeral.read? rest = some value) {places : Nat} (few : places ≤ 8) :
    (number key places value).size ≤ utf8Len (letter :: rest) + 1 := by
  obtain ⟨numeral, spells, short⟩ := plain (by rw [List.tail_cons, spelt]; rfl)
  have length := Fixed.length_chars_le spells short spelt few
  have bytes := length_le_utf8Len rest
  rw [List.tail_cons] at length
  rw [size, render, String.toList_ofList, String.utf8Len_cons, String.utf8Len_cons, utf8Len_chars]
  omega

/-- A command field takes no more room than the word that it was read from. -/
theorem size_command_le {letter : Char} {rest : List Char} {code : Nat}
    (spelt : Numeral.natural? Line.maxCode rest = some code) (family : Family) :
    (command ⟨family, UInt16.ofNat code⟩).size ≤ utf8Len (letter :: rest) + 1 := by
  have digits := Numeral.length_toDigits_le spelt
  have same : (UInt16.ofNat code).toNat = code := by
    obtain ⟨_, -, -, -, -, within⟩ := Numeral.exists_digits_of_natural? spelt
    exact UInt16.toNat_ofNat_of_lt' (Nat.lt_succ_of_le within)
  have narrow : utf8Len (Nat.toDigits 10 code) = (Nat.toDigits 10 code).length :=
    utf8Len_of_narrow fun c member => utf8Size_of_isDigit (toDigits_isDigit _ c member)
  have wide : family.letter.utf8Size ≤ letter.utf8Size := by
    cases family <;> exact Char.utf8Size_pos letter
  have bytes := length_le_utf8Len rest
  rw [size, render, Command.text, String.toList_ofList, String.utf8Len_cons, String.utf8Len_cons,
    same, narrow]
  simp only
  omega

end Field

namespace Line

/-- Bytes of a feed rate with the space after it; none if it stands for no feed rate. -/
def rateSize (value : Float) : Nat := if value != 0.0 then (Field.number 'F' 0 value).size else 0

theorem rateSize_le (value : Float) : rateSize value ≤ (Field.number 'F' 0 value).size := by
  rw [rateSize]
  split_ifs
  · exact Nat.le_refl _
  · exact Nat.zero_le _

/-- Bytes of a line without its comment, with a space after each word. -/
def size (precision : Precision) (line : Line) : Nat :=
  ((line.withoutComment.fields precision).map Field.size).sum

theorem size_eq (precision : Precision) (line : Line) :
    line.size precision =
      line.command.elim 0 (fun command => (Field.command command).size) +
      line.x.elim 0 (fun x => (Field.number 'X' precision.xy x).size) +
      line.y.elim 0 (fun y => (Field.number 'Y' precision.xy y).size) +
      line.z.elim 0 (fun z => (Field.number 'Z' precision.z z).size) +
      line.e.elim 0 (fun e => (Field.number 'E' precision.e e).size) +
      rateSize line.feedrate +
      (line.numbers.entries.map fun entry =>
        (Field.number entry.1 precision.xy entry.2).size).sum +
      (line.texts.entries.map fun entry => (Field.text entry.1 entry.2).size).sum := by
  have single {α : Type} (word : Option α) (field : α → Field) :
      ((word.toList.map field).map Field.size).sum =
        word.elim 0 fun content => (field content).size := by
    cases word <;> rfl
  have rate : ((if line.withoutComment.hasFeedrate then
        [Field.number 'F' 0 line.withoutComment.feedrate] else []).map Field.size).sum =
      rateSize line.feedrate := by
    rw [rateSize, hasFeedrate, withoutComment]
    split_ifs <;> rfl
  simp only [size, fields, List.map_append, List.sum_append, single, rate]
  simp only [withoutComment, List.map_map]
  rfl

theorem sum_place_le {α : Type} (weight : Char × α → Nat) (key : Char) (value : α)
    (entries : List (Char × α)) :
    ((Params.place key value entries).map weight).sum ≤
      (entries.map weight).sum + weight (key, value) := by
  induction entries with
  | nil => simp [Params.place]
  | cons entry rest ih =>
    rw [Params.place]
    split_ifs <;> simp only [List.map_cons, List.sum_cons] <;> omega

/-- A word adds no more to a line than the room that it takes. -/
theorem size_take_run_le {line next : Line} {letter : Char} {rest : List Char}
    (plain : Word.Plain (letter :: rest)) (taken : line.take (.ofRun (letter :: rest)) = .ok next) :
    next.size .standard ≤ line.size .standard + (utf8Len (letter :: rest) + 1) := by
  have axis (key : Char) (narrow : key.utf8Size = 1) {value : Float}
      (spelt : Numeral.read? rest = some value) {places : Nat} (few : places ≤ 8) :
      (Field.number key places value).size ≤ utf8Len (letter :: rest) + 1 :=
    Field.size_number_le (narrow.trans_le (Char.utf8Size_pos letter)) plain spelt few
  rcases take_run_cases taken with ⟨code, spelt, rfl⟩ | ⟨value, spelt, rfl⟩ | ⟨value, spelt, rfl⟩ |
    ⟨-, rfl⟩
  · have room := @Field.size_command_le letter rest code spelt (familyOfLetter letter)
    simp only [size_eq, Option.elim_some]
    omega
  · have x := axis 'X' rfl spelt (show Precision.standard.xy ≤ 8 by decide)
    have y := axis 'Y' rfl spelt (show Precision.standard.xy ≤ 8 by decide)
    have z := axis 'Z' rfl spelt (show Precision.standard.z ≤ 8 by decide)
    have e := axis 'E' rfl spelt (show Precision.standard.e ≤ 8 by decide)
    rw [setAxis]
    split
    all_goals
      simp only [size_eq, Option.elim_some]
      omega
  · have room := axis 'F' rfl spelt (Nat.zero_le 8)
    have rate := rateSize_le value
    simp only [size_eq]
    omega
  · rw [addParam]
    split
    · rename_i value spelt
      have room := Field.size_number_le (Nat.le_refl letter.utf8Size) plain spelt
        (show Precision.standard.xy ≤ 8 by decide)
      have added := sum_place_le
        (fun entry => (Field.number entry.1 Precision.standard.xy entry.2).size) letter value
        line.numbers.entries
      simp only [size_eq, Params.insert] at added ⊢
      omega
    · have room : (Field.text letter (String.ofList rest)).size = utf8Len (letter :: rest) + 1 := by
        rw [Field.size, Field.render, String.toList_append, Char.toString_eq_singleton,
          String.toList_singleton, String.toList_ofList]
        rfl
      have added := sum_place_le (fun entry => (Field.text entry.1 entry.2).size) letter
        (String.ofList rest) line.texts.entries
      simp only [size_eq, Params.insert] at added ⊢
      omega

/-- Words add no more to a line than the room that they take. -/
theorem size_takeAll_le {runs : List (List Char)} (plain : ∀ run ∈ runs, Word.Plain run)
    {before after : Line} (taken : (runs.map Word.ofRun).foldlM take before = .ok after) :
    after.size .standard ≤ before.size .standard + spaced runs := by
  induction runs generalizing before with
  | nil =>
    obtain rfl := Except.ok.inj taken
    exact Nat.le_refl _
  | cons run rest ih =>
    obtain ⟨first, others⟩ := List.forall_mem_cons.mp plain
    rw [List.map_cons, List.foldlM_cons] at taken
    cases outcome : before.take (.ofRun run) with
    | error fault =>
      rw [outcome] at taken
      contradiction
    | ok next =>
      rw [outcome] at taken
      have later := ih others taken
      have step : next.size .standard ≤ before.size .standard + (utf8Len run + 1) := by
        cases run with
        | nil =>
          obtain rfl := Except.ok.inj outcome
          exact Nat.le_add_right ..
        | cons letter rest => exact size_take_run_le first outcome
      rw [spaced_cons]
      omega

/-- A line that was read takes no more room than its words, its comment apart. -/
theorem size_le_of_read {raw : String}
    (plain : ∀ run ∈ Word.runs (Word.code raw.toList), Word.Plain run) {line : Line}
    (outcome : read raw = .ok line) :
    line.size .standard ≤ spaced (Word.runs (Word.code raw.toList)) := by
  have bare := Word.bare_code raw.toList
  have code : read (String.ofList (Word.code raw.toList)) = .ok line.withoutComment := by
    have cut : Word.Bare raw.toList (String.ofList (Word.code raw.toList)).toList := by
      rwa [String.toList_ofList]
    rw [read_of_bare cut, outcome]
    rfl
  rw [read, ofWords, Word.scan_eq, String.toList_ofList, bare.scanChars] at code
  have size := size_takeAll_le plain code
  rwa [show blank.size .standard = 0 from rfl, Nat.zero_add] at size

theorem spaced_fields (precision : Precision) (line : Line) :
    spaced ((line.withoutComment.fields precision).map (·.render.toList)) =
      line.size precision := by
  rw [spaced, List.map_map]
  rfl

theorem utf8Len_intercalate_le (parts : List (List Char)) :
    utf8Len ([' '].intercalate parts) ≤ spaced parts - 1 := by
  cases parts with
  | nil => exact Nat.le_refl 0
  | cons part rest =>
    have whole := utf8Len_intercalate (List.cons_ne_nil part rest)
    omega

/-- No space is written after the last word of a line without a comment. -/
theorem utf8Len_render_of_bare {line : Line} (bare : line.comment = none) (precision : Precision) :
    utf8Len (line.render precision).toList ≤ line.size precision - 1 := by
  rw [toList_render, bare, Option.filter_none, Option.map_none, Option.toList_none, List.append_nil,
    ← spaced_fields]
  exact utf8Len_intercalate_le _

/-- A comment is written after the words with a space after each. -/
theorem utf8Len_render_of_comment {line : Line} {remark : String} (present : remark ∈ line.comment)
    (precision : Precision) :
    utf8Len (line.render precision).toList ≤ line.size precision + utf8Len remark.toList := by
  have room := utf8Len_intercalate_le
    ((line.withoutComment.fields precision).map (·.render.toList) ++ [remark.toList])
  rw [spaced_append, spaced_fields, spaced_cons, spaced_nil] at room
  rw [toList_render, Option.mem_def.mp present, Option.filter_some]
  split_ifs with some
  · rw [Option.map_some, Option.toList_some]
    omega
  · have words := utf8Len_intercalate_le
      ((line.withoutComment.fields precision).map (·.render.toList))
    rw [spaced_fields] at words
    rw [Option.map_none, Option.toList_none, List.append_nil]
    omega

end Line

end Toolpath
