import Mathlib
import Toolpath.Proofs.Line.RoundTrip
import Toolpath.Proofs.Text.Terminated

/-! # Written lines inside a text

A written line holds no blank but the spaces between its fields and what its comment holds. So a
line feed can come from its comment only, and a carriage return at its end is the end of its
comment: cutting that off leaves the written form of the same line with a shorter comment.
-/

namespace Toolpath

private theorem mem_intercalate_space {c : Char} {parts : List (List Char)}
    (member : c ∈ [' '].intercalate parts) : c = ' ' ∨ ∃ part ∈ parts, c ∈ part := by
  induction parts with
  | nil => contradiction
  | cons part rest ih =>
    cases rest with
    | nil => exact .inr ⟨part, List.mem_cons_self .., by simpa using member⟩
    | cons next others =>
      rw [List.intercalate_cons_cons, List.mem_append, List.mem_append, List.mem_singleton]
        at member
      rcases member with (first | space) | later
      · exact .inr ⟨part, List.mem_cons_self .., first⟩
      · exact .inl space
      · apply (ih later).imp_right
        rintro ⟨other, present, inside⟩
        exact ⟨other, List.mem_cons_of_mem _ present, inside⟩

private theorem intercalate_space_concat (parts : List (List Char)) (last : List Char) :
    [' '].intercalate (parts ++ [last]) = parts.flatMap (· ++ [' ']) ++ last := by
  induction parts with
  | nil => simp
  | cons part rest ih =>
    cases rest with
    | nil => simp
    | cons next others =>
      rw [List.cons_append, List.cons_append, List.intercalate_cons_cons, ← List.cons_append, ih]
      simp only [List.flatMap_cons, List.append_assoc]

namespace Line

/-- A line whose comment does not reach into another line of a text. -/
def OneLine (line : Line) : Prop := ∀ remark ∈ line.comment, '\n' ∉ remark.toList

/-- The line without a carriage return at the end of its comment. -/
def trimReturn (line : Line) : Line := { line with comment := line.comment.map Lines.trimReturn }

theorem oneLine_of_read {text : String} {line : Line} (outcome : read text = .ok line)
    (within : '\n' ∉ text.toList) : line.OneLine := by
  intro remark present member
  exact within ((comment_suffix_of_read outcome remark present).mem member)

/-- Where the characters of a written line come from. -/
theorem mem_render {line : Line} (legible : line.Legible) {precision : Precision} {c : Char}
    (member : c ∈ (line.render precision).toList) :
    c = ' ' ∨ isWordChar c ∨ ∃ remark ∈ line.comment, c ∈ remark.toList := by
  rw [toList_render] at member
  apply (mem_intercalate_space member).imp_right
  rintro ⟨part, present, inside⟩
  rcases List.mem_append.mp present with field | comment
  · obtain ⟨field, listed, rfl⟩ := List.mem_map.mp field
    exact .inl ((solid_of_mem_fields legible listed).2.word c inside)
  · obtain ⟨remark, listed, rfl⟩ := Option.mem_map.mp (Option.mem_toList.mp comment)
    exact .inr ⟨remark, (Option.mem_filter_iff.mp listed).1, inside⟩

theorem feed_not_mem_render {line : Line} (legible : line.Legible) (oneLine : line.OneLine)
    (precision : Precision) : '\n' ∉ (line.render precision).toList := by
  intro member
  rcases mem_render legible member with space | letter | ⟨remark, present, inside⟩
  · exact absurd space (by decide)
  · exact absurd letter (by decide)
  · exact oneLine remark present inside

theorem Legible.comment_ne_nil {line : Line} (legible : line.Legible) {remark : String}
    (present : remark ∈ line.comment) : remark.toList ≠ [] := by
  intro empty
  have marked := legible.commentMarked remark present
  rw [empty] at marked
  contradiction

/-- No comment of a legible line is empty. -/
theorem Legible.filter_comment {line : Line} (legible : line.Legible) :
    (line.comment.filter fun text => !text.isEmpty) = line.comment := by
  cases shape : line.comment with
  | none => rfl
  | some remark =>
    have nonempty := legible.comment_ne_nil (Option.mem_def.mpr shape)
    exact Option.filter_some_pos (by simpa [String.isEmpty_iff] using nonempty)

theorem Legible.trimReturn {line : Line} (legible : line.Legible) : line.trimReturn.Legible := by
  refine { legible with commentMarked := ?_ }
  intro text present
  obtain ⟨remark, held, rfl⟩ := Option.mem_map.mp present
  obtain ⟨rest, shape⟩ := List.head?_eq_some_iff.mp (legible.commentMarked remark held)
  rw [Lines.trimReturn, String.toList_ofList, shape]
  cases rest with
  | nil => rfl
  | cons next others =>
    rw [← List.singleton_append, Lines.trim_append _ (List.cons_ne_nil _ _)]
    rfl

/-- Cutting a carriage return off a written line is cutting it off the comment. -/
theorem trimReturn_render {line : Line} (legible : line.Legible) (precision : Precision) :
    Lines.trimReturn (line.render precision) = line.trimReturn.render precision := by
  rw [← String.toList_inj, Lines.trimReturn, String.toList_ofList]
  cases shape : line.comment with
  | none =>
    have same : line.trimReturn = line := by
      rw [Line.trimReturn, shape]
      cases line
      simp_all
    rw [same]
    apply Lines.trim_of_getLast?_ne
    intro last
    rcases mem_render legible (List.mem_of_getLast? last) with space | letter | ⟨remark, present, -⟩
    · exact absurd space (by decide)
    · exact absurd letter (by decide)
    · rw [shape] at present
      contradiction
  | some remark =>
    have nonempty := legible.comment_ne_nil (Option.mem_def.mpr shape)
    have fields : line.trimReturn.withoutComment = line.withoutComment := rfl
    have trimmed : line.trimReturn.comment = some (Lines.trimReturn remark) := by
      rw [Line.trimReturn, shape]
      rfl
    rw [toList_render, toList_render, legible.filter_comment, legible.trimReturn.filter_comment,
      fields, shape, trimmed]
    simp only [Option.map_some, Option.toList_some, intercalate_space_concat]
    rw [Lines.trim_append _ nonempty, Lines.trimReturn, String.toList_ofList]

end Line

end Toolpath
