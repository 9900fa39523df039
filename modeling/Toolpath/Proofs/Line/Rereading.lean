import Mathlib
import Toolpath.Proofs.Line.Settled

/-! # Reading undoes writing

A line that was read can be written with any number of places that numbers can have, and what is
written can be read. The result is the line itself up to the rounding of its numbers: each one is
read as its own written form spells it, and nothing is cut apart, merged, moved to another slot or
taken for something else. Writing once more gives the same text, unless the text has a feed rate of
zero: reading takes that word for no feed rate at all.
-/

namespace Toolpath

/-- The second number is what the first one is read as when it is written with some places. -/
def Fixed.Rereads (places : Nat) (value again : Float) : Prop :=
  ∃ text, text? places value = some text ∧ Numeral.read? text.toList = some again

theorem Fixed.rereads_settled {places : Nat} (within : places ≤ maxPlaces) (value : Float) :
    Rereads places value (settled places value) := by
  refine ⟨text places value, if_pos within, ?_⟩
  rw [text, String.toList_ofList]
  exact read?_chars places value

namespace Line

/-- The second line is the first one with each number as its written form spells it. -/
structure Rereads (precision : Precision) (line again : Line) : Prop where
  command : again.command = line.command
  x : Option.Rel (Fixed.Rereads precision.xy) line.x again.x
  y : Option.Rel (Fixed.Rereads precision.xy) line.y again.y
  z : Option.Rel (Fixed.Rereads precision.z) line.z again.z
  e : Option.Rel (Fixed.Rereads precision.e) line.e again.e
  feedrate :
    if line.hasFeedrate then Fixed.Rereads 0 line.feedrate again.feedrate else again.feedrate = 0.0
  numbers : List.Forall₂
    (fun entry other => entry.1 = other.1 ∧ Fixed.Rereads precision.xy entry.2 other.2)
    line.numbers.entries again.numbers.entries
  texts : again.texts = line.texts
  comment : again.comment = line.comment

private theorem rel_map_settled {places : Nat} (within : places ≤ Fixed.maxPlaces)
    (word : Option Float) :
    Option.Rel (Fixed.Rereads places) word (word.map (Fixed.settled places)) := by
  cases word with
  | none => exact .none
  | some value => exact .some (Fixed.rereads_settled within value)

theorem Legible.rereads_settled {line : Line} (legible : line.Legible) {precision : Precision}
    (fits : precision.Fits) : line.Rereads precision (line.settled precision) := by
  refine ⟨rfl, rel_map_settled fits.xy _, rel_map_settled fits.xy _, rel_map_settled fits.z _,
    rel_map_settled fits.e _, ?_, ?_, rfl, legible.comment_settled precision⟩
  · cases mentioned : line.hasFeedrate with
    | false => simp [Line.settled, mentioned]
    | true =>
      simp only [Line.settled, mentioned, if_true]
      exact Fixed.rereads_settled (Nat.zero_le _) _
  · simp only [Line.settled, Params.map, List.forall₂_map_right_iff, List.forall₂_same]
    intro entry _
    exact ⟨trivial, Fixed.rereads_settled fits.xy _⟩

/-- A settled line is written as the line itself exactly if no feed rate is written as zero. -/
theorem render_settled_eq_iff {line : Line} (legible : line.Legible) (precision : Precision) :
    (line.settled precision).render precision = line.render precision ↔
      (line.hasFeedrate = true → Fixed.chars 0 line.feedrate ≠ ['0']) := by
  constructor
  · intro same mentioned zero
    -- The text holds the word, and then so does the text of the settled line, which lost the rate.
    have word := (zeroRate_mem_scan_render_iff legible precision).mpr ⟨mentioned, zero⟩
    rw [← same, zeroRate_mem_scan_render_iff (legible.settled precision)] at word
    exact ((hasFeedrate_settled_iff precision).mp word.1).2 zero
  · intro kept
    exact render_settled kept precision

/-- Reading undoes writing up to the rounding of numbers: a line that was read can be written, and
the text is read as the same line with each number as its written form spells it. That line is
written as the same text exactly if no feed rate was written as zero. -/
theorem reading_undoes_writing {text : String} {line : Line} (outcome : read text = .ok line)
    {precision : Precision} (fits : precision.Fits) :
    ∃ written again, line.render? precision = some written ∧ read written = .ok again ∧
      line.Rereads precision again ∧
      (again.render? precision = some written ↔
        (line.hasFeedrate = true → Fixed.text? 0 line.feedrate ≠ some "0")) := by
  have legible := legible_of_read outcome
  refine ⟨line.render precision, line.settled precision, render?_of_fits fits line,
    read_render legible precision, legible.rereads_settled fits, ?_⟩
  have zero : Fixed.text? 0 line.feedrate = some "0" ↔ Fixed.chars 0 line.feedrate = ['0'] := by
    rw [Fixed.text?, if_pos (Nat.zero_le _), Option.some_inj, Fixed.text,
      show "0" = String.ofList ['0'] from rfl, String.ofList_inj]
  rw [render?_of_fits fits, Option.some_inj, render_settled_eq_iff legible]
  simp only [Ne, zero]

/-- A line with one key in both kinds of parameters, a key that is no ASCII letter, and a feed rate
that is written as zero. -/
theorem reading_undoes_writing_shared_key :
    let text := "\tm300 P1.00006  f0.4 P\"a\" é-.5e0 \u00a0x ;b ; X1 "
    let line : Line :=
      { command := some ⟨.m, 300⟩
        feedrate := 0.4
        numbers := .ofList [('P', 1.00006), ('é', -0.5)]
        texts := .ofList [('P', "\"a\""), ('\u00a0', "x")]
        comment := some ";b ; X1 " }
    read text = .ok line ∧ Precision.standard.Fits ∧
      ∃ written again, line.render? .standard = some written ∧ read written = .ok again ∧
        line.Rereads .standard again ∧
        (again.render? .standard = some written ↔
          (line.hasFeedrate = true → Fixed.text? 0 line.feedrate ≠ some "0")) := by
  intro text line
  have outcome : read text = .ok line := by decide +kernel
  have fits : Precision.standard.Fits := ⟨by decide, by decide, by decide⟩
  exact ⟨outcome, fits, reading_undoes_writing outcome fits⟩

end Line

end Toolpath
