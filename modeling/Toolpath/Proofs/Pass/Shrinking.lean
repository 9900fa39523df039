import Mathlib
import Toolpath.Pass
import Toolpath.Proofs.Line.Length
import Toolpath.Proofs.Reduce.Redundancy

/-! # Kept lines do not grow

Reducing a line takes words away and adds none, so with the standard places the text of a kept line
takes no more bytes than the line did, as long as its numbers are short. The one byte that can be
added is the space before a comment, where the line had none.
-/

namespace Toolpath.Tuning

open String (utf8Len)

variable {tuning : Tuning} {machine : Machine} {line : Line}

theorem elim_noticed_le (tuning : Tuning) (word : Option Float) (tracked : Float)
    (weight : Float → Nat) :
    (tuning.noticed word tracked).elim 0 weight ≤ word.elim 0 weight := by
  cases word with
  | none => exact Nat.le_refl 0
  | some value =>
    rw [noticed_some]
    split_ifs
    · exact Nat.zero_le _
    · exact Nat.le_refl _

/-- Taking redundant words away makes a move no longer. -/
theorem size_keptWords_le (tuning : Tuning) (machine : Machine) (line : Line)
    (precision : Precision) :
    (tuning.keptWords machine line).size precision ≤ line.size precision := by
  have rate : Line.rateSize (if tuning.keepsFeedrate machine line then line.feedrate else 0.0) ≤
      Line.rateSize line.feedrate := by
    split_ifs
    · exact Nat.le_refl _
    · rw [Line.rateSize, zero_bne_zero]
      exact Nat.zero_le _
  have words := elim_noticed_le tuning
  simp only [Line.size_eq, keptWords, keepAxis_eq, keepExtrusion_eq]
  gcongr
  · exact words ..
  · exact words ..
  · exact words ..
  · exact words ..

/-- What is left of a line is no longer than the line, their comments apart. -/
theorem Accepts.size_reduce_le (accepts : tuning.Accepts machine line) (precision : Precision) :
    (tuning.reduce machine line).line.size precision ≤ line.size precision := by
  have stripped : (tuning.strip line).size precision = line.size precision := by
    rw [strip]
    split_ifs <;> rfl
  rcases accepts.line_cases with ⟨-, same⟩ | ⟨-, same⟩ | same <;> rw [same]
  · exact stripped.le
  · exact (tuning.size_keptWords_le ..).trans stripped.le
  · exact Nat.zero_le _

/-- What is left of a line has no other comment than the line, and none where comments are
removed. -/
theorem Accepts.mem_comment_reduce (accepts : tuning.Accepts machine line) {remark : String}
    (present : remark ∈ (tuning.reduce machine line).line.comment) :
    remark ∈ line.comment ∧ tuning.removeComments = false := by
  have keeps : tuning.removeComments = false := by
    by_contra removes
    rw [accepts.bare_line (by simpa using removes)] at present
    contradiction
  have stripped : (tuning.strip line).comment = line.comment := by rw [strip, keeps]; rfl
  refine ⟨?_, keeps⟩
  rcases accepts.line_cases with ⟨-, same⟩ | ⟨-, same⟩ | same <;> rw [same] at present
  · exact stripped ▸ present
  · exact stripped ▸ present
  · contradiction

/-- A kept text is the written form of what is left of an accepted line. -/
theorem turn_kept {number : Nat} {raw text : String}
    (kept : (tuning.turn machine number raw).verdict = .kept text) :
    ∃ line, Line.read raw = .ok line ∧ tuning.Accepts machine line ∧
      text = (tuning.reduce machine line).line.render tuning.precision := by
  rw [turn] at kept
  cases outcome : Line.read raw with
  | error fault => simp [outcome] at kept
  | ok line =>
    simp only [outcome] at kept
    cases fault : (tuning.reduce machine line).fault with
    | some fault => simp [fault] at kept
    | none =>
      simp only [fault] at kept
      refine ⟨line, rfl, fault_reduce_eq_none_iff.mp fault, ?_⟩
      split_ifs at kept
      split at kept
      · rename_i written
        exact Verdict.kept.inj kept ▸ Line.render?_eq_some written
      · contradiction

/-- With the standard places, a line whose numbers are short is kept in no more bytes than it has.
Only where its comment is kept and comes directly after a word, the space between them takes one
byte more. -/
theorem kept_text_no_longer (standard : tuning.precision = .standard) (machine : Machine)
    (number : Nat) {raw : String} (plain : ∀ run ∈ Word.runs (Word.code raw.toList), Word.Plain run)
    {text : String} (kept : (tuning.turn machine number raw).verdict = .kept text) :
    text.utf8ByteSize ≤
      raw.utf8ByteSize + if !tuning.removeComments && Word.abuts raw.toList then 1 else 0 := by
  obtain ⟨line, outcome, accepts, rfl⟩ := turn_kept kept
  have words := (accepts.size_reduce_le .standard).trans (Line.size_le_of_read plain outcome)
  have whole := congrArg utf8Len (Word.code_append_remark raw.toList)
  rw [String.utf8Len_append] at whole
  rw [standard, ← String.ofList_toList (s := raw), String.utf8ByteSize_ofList, ← whole,
    String.toList_ofList, ← String.ofList_toList (s := Line.render _ _), String.utf8ByteSize_ofList]
  cases comment : (tuning.reduce machine line).line.comment with
  | none =>
    have text := Line.utf8Len_render_of_bare comment .standard
    have room := Word.spaced_runs_le (Word.code raw.toList)
    omega
  | some remark =>
    have text := Line.utf8Len_render_of_comment (Option.mem_def.mpr comment) .standard
    obtain ⟨present, keeps⟩ := accepts.mem_comment_reduce (Option.mem_def.mpr comment)
    have suffix := Word.suffix_remark (Line.comment_suffix_of_read outcome remark present)
      ((Line.legible_of_read outcome).commentMarked remark present)
    have remarked : Word.remark raw.toList ≠ [] := by
      intro empty
      rw [empty] at suffix
      exact (Line.legible_of_read outcome).comment_ne_nil present (List.suffix_nil.mp suffix)
    have room := Word.spaced_runs_code_le remarked
    have bytes := String.utf8Len_le_of_suffix suffix
    rw [keeps, Bool.not_false, Bool.true_and]
    omega

/-- Signs, zeros and an empty whole part, and a comment that comes directly after a word. -/
theorem kept_text_no_longer_signed :
    let raw := "g01 X+1.99996 E-00.5;c"
    Tuning.standard.precision = .standard ∧
      (∀ run ∈ Word.runs (Word.code raw.toList), Word.Plain run) ∧
      (Tuning.standard.turn { homed := true } 1 raw).verdict = .kept "G1 X2 E-.5 ;c" ∧
      "G1 X2 E-.5 ;c".utf8ByteSize ≤ raw.utf8ByteSize +
        if !Tuning.standard.removeComments && Word.abuts raw.toList then 1 else 0 := by
  intro raw
  have standard : Tuning.standard.precision = .standard := by decide +kernel
  have plain : ∀ run ∈ Word.runs (Word.code raw.toList), Word.Plain run := by
    have runs : Word.runs (Word.code raw.toList) =
        [['g', '0', '1'], ['X', '+', '1', '.', '9', '9', '9', '9', '6'],
          ['E', '-', '0', '0', '.', '5']] := by decide +kernel
    rw [runs]
    simp only [List.forall_mem_cons]
    refine ⟨fun _ => ?_, fun _ => ?_, fun _ => ?_, List.forall_mem_nil _⟩
    · exact ⟨⟨false, ['0', '1'], none, List.all_eq_true.mp rfl, by decide⟩, .inl (by decide),
        ⟨by decide, by decide +kernel⟩⟩
    · exact ⟨⟨false, ['1'], some ['9', '9', '9', '9', '6'], List.all_eq_true.mp rfl, by decide⟩,
        .inr ⟨rfl, by decide⟩, ⟨by decide, by decide +kernel⟩⟩
    · exact ⟨⟨true, ['0', '0'], some ['5'], List.all_eq_true.mp rfl, by decide⟩, .inl (by decide),
        ⟨by decide, by decide +kernel⟩⟩
  have kept : (Tuning.standard.turn { homed := true } 1 raw).verdict = .kept "G1 X2 E-.5 ;c" := by
    decide +kernel
  exact ⟨standard, plain, kept, kept_text_no_longer standard _ _ plain kept⟩

/-- A comment directly after the only word of a line gets a space before it. -/
theorem kept_text_longer :
    let raw := "M83;relative"
    Tuning.standard.precision = .standard ∧
      (∀ run ∈ Word.runs (Word.code raw.toList), Word.Plain run) ∧
      (Tuning.standard.turn {} 1 raw).verdict = .kept "M83 ;relative" ∧
      ¬ "M83 ;relative".utf8ByteSize ≤ raw.utf8ByteSize := by
  intro raw
  refine ⟨by decide +kernel, ?_, by decide +kernel, by decide +kernel⟩
  have runs : Word.runs (Word.code raw.toList) = [['M', '8', '3']] := by decide +kernel
  rw [runs, List.forall_mem_singleton]
  intro _
  exact ⟨⟨false, ['8', '3'], none, List.all_eq_true.mp rfl, by decide⟩, .inl (by decide),
    ⟨by decide, by decide +kernel⟩⟩

end Toolpath.Tuning
