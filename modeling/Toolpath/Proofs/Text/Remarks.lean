import Mathlib
import Toolpath.Proofs.Line.RoundTrip
import Toolpath.Proofs.Text.Terminated

/-! # Texts without comments

Every line of a text can be cut just before its first comment marker, its end being kept. The lines
of the text that is left are read as the lines of the text without their comments. Only a last line
that is nothing but a comment and is not ended leaves no line behind.
-/

namespace Toolpath

namespace Word

/-- The second text has the words of the first one, and no comment. -/
structure Bare (raw bare : List Char) : Prop where
  words : runs (code bare) = runs (code raw)
  unmarked : commentMarker ∉ bare

theorem not_mem_code {c : Char} {text : List Char} (within : c ∉ text) : c ∉ code text := by
  intro member
  exact within ((List.takeWhile_sublist _).mem member)

theorem bare_code (text : List Char) : Bare text (code text) := by
  have unmarked := marker_not_mem_code text
  exact ⟨by rw [code_of_unmarked unmarked], unmarked⟩

/-- A text without a comment is scanned as its words. -/
theorem Bare.scanChars {raw bare : List Char} (cut : Bare raw bare) :
    scanChars bare = (runs (code raw)).map ofRun := by
  rw [scanChars_of_bare (remark_of_unmarked cut.unmarked), cut.words]

theorem runs_trim (text : List Char) : runs (Lines.trim '\r' text) = runs text := by
  obtain ⟨tail, shape, whole⟩ := Lines.exists_trim_append '\r' text
  rcases shape with rfl | rfl
  · rw [List.append_nil] at whole
    rw [← whole]
  · nth_rewrite 2 [whole]
    exact (runs_concat_blank _ (by decide)).symm

end Word

namespace Line

private theorem comment_of_read_unmarked {text : String} {line : Line}
    (unmarked : commentMarker ∉ text.toList) (outcome : read text = .ok line) :
    line.comment = none := by
  rw [Option.eq_none_iff_forall_not_mem]
  intro remark present
  have marked := (legible_of_read outcome).commentMarked remark present
  exact unmarked ((comment_suffix_of_read outcome remark present).mem (List.mem_of_head? marked))

/-- A text that has the words of another one, and no comment, is read as that one without its
comment. -/
theorem read_of_bare {raw bare : String} (cut : Word.Bare raw.toList bare.toList) :
    read bare = (read raw).map withoutComment := by
  have words : Word.scan bare = (Word.runs (Word.code raw.toList)).map Word.ofRun := cut.scanChars
  have whole : Word.scan raw = Word.scan bare ++
      if (Word.remark raw.toList).isEmpty then [] else [.ofRemark (Word.remark raw.toList)] := by
    rw [words]
    rfl
  have spelled : read raw = read bare >>= fun line =>
      (if (Word.remark raw.toList).isEmpty then []
        else [Word.ofRemark (Word.remark raw.toList)]).foldlM take line := by
    rw [read, whole, ofWords, List.foldlM_append]
    rfl
  rw [spelled]
  cases outcome : read bare with
  | error fault => rfl
  | ok line =>
    have same : line.withoutComment = line := by
      rw [withoutComment, ← comment_of_read_unmarked cut.unmarked outcome]
    change Except.ok line = Except.map withoutComment (List.foldlM take line _)
    split_ifs with none
    · exact congrArg Except.ok same.symm
    · obtain ⟨first, rest, shape⟩ := List.exists_cons_of_ne_nil (mt List.isEmpty_iff.mpr none)
      have taken : line.take (.ofRemark (first :: rest)) =
          .ok { line with comment := some (String.ofList (first :: rest)) } := by
        simp only [take, Word.ofRemark, String.toList_ofList]
      rw [shape, List.foldlM_cons, taken]
      exact congrArg Except.ok same.symm

end Line

namespace Lines

/-- A piece of a text without what stands from its first comment marker on; its end is kept. -/
def cutRemark (piece : List Char) : List Char :=
  Word.code (chomp '\n' '\r' piece) ++ piece.drop (chomp '\n' '\r' piece).length

/-- A text with each line cut just before its first comment marker. -/
def withoutRemarks (text : String) : String :=
  String.ofList ((segments '\n' text.toList).flatMap cutRemark)

theorem split_append_cons {α : Type} [DecidableEq α] {feed : α} (ret : α) {line : List α}
    (within : feed ∉ line) (rest : List α) :
    split feed ret (line ++ feed :: rest) = trim ret line :: split feed ret rest := by
  rw [split, segments_append_cons within, List.map_cons, chomp_concat]
  rfl

theorem chomp_of_not_mem {α : Type} [DecidableEq α] {feed : α} (ret : α) {line : List α}
    (within : feed ∉ line) : chomp feed ret line = line :=
  if_neg fun ends => within (List.mem_of_getLast? ends)

theorem split_of_not_mem {α : Type} [DecidableEq α] {feed : α} (ret : α) {line : List α}
    (within : feed ∉ line) (nonempty : line ≠ []) : split feed ret line = [line] := by
  rw [split, segments_of_not_mem within nonempty, List.map_singleton, chomp_of_not_mem ret within]

theorem cutRemark_of_not_mem {line : List Char} (within : '\n' ∉ line) :
    cutRemark line = Word.code line := by
  rw [cutRemark, chomp_of_not_mem '\r' within, List.drop_length, List.append_nil]

/-- A line that is ended is cut to a line that is ended and has its words. -/
theorem exists_cutRemark_concat {line : List Char} (within : '\n' ∉ line) :
    ∃ bare, '\n' ∉ bare ∧ cutRemark (line ++ ['\n']) = bare ++ ['\n'] ∧
      Word.Bare (trim '\r' line) (trim '\r' bare) := by
  obtain ⟨tail, shape, whole⟩ := exists_trim_append '\r' line
  rw [cutRemark, chomp_concat]
  generalize trim '\r' line = raw at whole
  subst whole
  obtain ⟨rawWithin, tailWithin⟩ := not_or.mp (mt List.mem_append.mpr within)
  have unmarked : commentMarker ∉ Word.code raw ++ tail := by
    rw [List.mem_append, not_or]
    refine ⟨Word.marker_not_mem_code raw, ?_⟩
    rcases shape with rfl | rfl <;> decide
  have trimmed : commentMarker ∉ trim '\r' (Word.code raw ++ tail) := by
    intro member
    exact unmarked (mem_of_mem_trim member)
  refine ⟨Word.code raw ++ tail, ?_, ?_, ?_, trimmed⟩
  · rw [List.mem_append, not_or]
    exact ⟨Word.not_mem_code rawWithin, tailWithin⟩
  · rw [List.append_assoc raw, List.drop_left, List.append_assoc]
  · rw [Word.code_of_unmarked trimmed, Word.runs_trim]
    rcases shape with rfl | rfl
    · rw [List.append_nil]
    · exact Word.runs_concat_blank _ (by decide)

/-- The lines of a text that was cut are those of the text less their comments; at its end an empty
line may be missing. -/
theorem bare_split (text : List Char) :
    ∃ rest, (rest = [] ∨ rest = [[]]) ∧
      List.Forall₂ Word.Bare (split '\n' '\r' text)
        (split '\n' '\r' ((segments '\n' text).flatMap cutRemark) ++ rest) := by
  induction text using segments_induction '\n' with
  | nil => exact ⟨[], .inl rfl, .nil⟩
  | last line nonempty within =>
    have bare := Word.bare_code line
    rw [segments_of_not_mem within nonempty, List.flatMap_singleton, cutRemark_of_not_mem within,
      split_of_not_mem '\r' within nonempty]
    -- No end is kept here, so of a mere comment nothing stays that could be a line.
    by_cases empty : Word.code line = []
    · rw [empty] at bare ⊢
      exact ⟨[[]], .inr rfl, .cons bare .nil⟩
    · rw [split_of_not_mem '\r' (Word.not_mem_code within) empty]
      exact ⟨[], .inl rfl, .cons bare .nil⟩
  | cons line rest within ih =>
    obtain ⟨bare, bareWithin, cut, isBare⟩ := exists_cutRemark_concat within
    obtain ⟨missing, shape, pairs⟩ := ih
    rw [segments_append_cons within, List.flatMap_cons, cut, List.append_assoc,
      List.singleton_append, split_append_cons '\r' within, split_append_cons '\r' bareWithin]
    exact ⟨missing, shape, .cons isBare pairs⟩

/-- The lines of a text without remarks are read as those of the text without their comments; at the
end an empty line may be missing. -/
theorem bare_ofString (text : String) :
    ∃ rest, (rest = [] ∨ rest = [""]) ∧
      List.Forall₂ (fun raw bare : String => Word.Bare raw.toList bare.toList) (ofString text)
        (ofString (withoutRemarks text) ++ rest) := by
  obtain ⟨rest, shape, pairs⟩ := bare_split text.toList
  refine ⟨rest.map String.ofList, ?_, ?_⟩
  · rcases shape with rfl | rfl
    · exact .inl rfl
    · exact .inr rfl
  · rw [ofString, ofString, withoutRemarks, String.toList_ofList, ← List.map_append,
      List.forall₂_map_left_iff, List.forall₂_map_right_iff]
    simpa only [String.toList_ofList] using pairs

end Lines

end Toolpath
