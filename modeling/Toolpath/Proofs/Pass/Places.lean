import Mathlib
import Toolpath.Proofs.Pass.Endings

/-! # Numbers with too many places

A number cannot be written with more than `Fixed.maxPlaces` places, and a pass that has to is ended
at once. It has to write a line in two cases only: the line survives, or it is refused as unknown and
its text is told. What counts is the line after it was reduced, so a word that was dropped asks for
nothing, and neither does a comment or a feed rate.
-/

namespace Toolpath

namespace Line

/-- The line has a word that is written with more places than a number can have. -/
inductive Exceeds (precision : Precision) (line : Line) : Prop
  | xy (word : line.x.isSome ∨ line.y.isSome ∨ line.numbers.isEmpty = false)
      (exceeds : Fixed.maxPlaces < precision.xy)
  | z (word : line.z.isSome) (exceeds : Fixed.maxPlaces < precision.z)
  | e (word : line.e.isSome) (exceeds : Fixed.maxPlaces < precision.e)

section Fields

variable {precision : Precision} {line : Line}

private theorem all_fits_axis (letter : Char) (places : Nat) (word : Option Float) :
    (word.toList.map (Field.number letter places)).all Field.fits =
      (!word.isSome || decide (places ≤ Fixed.maxPlaces)) := by
  cases word <;> simp [Field.fits]

private theorem all_fits_numbers (places : Nat) (numbers : Params Float) :
    (numbers.entries.map fun entry => Field.number entry.1 places entry.2).all Field.fits =
      (numbers.isEmpty || decide (places ≤ Fixed.maxPlaces)) := by
  rw [Params.isEmpty, List.all_map, Bool.eq_iff_iff]
  cases numbers.entries <;> simp +contextual [Field.fits]

/-- A line cannot be written exactly if one of its words asks for too many places. -/
theorem render?_eq_none_iff : line.render? precision = none ↔ line.Exceeds precision := by
  have rate : (if line.hasFeedrate then [Field.number 'F' 0 line.feedrate] else []).all
      Field.fits = true := by
    split_ifs <;> rfl
  have texts : (line.texts.entries.map fun entry => Field.text entry.1 entry.2).all
      Field.fits = true := by
    simp [Field.fits]
  have remark : ((line.comment.filter fun text => !text.isEmpty).toList.map Field.comment).all
      Field.fits = true := by
    simp [Field.fits]
  have command : (line.command.toList.map Field.command).all Field.fits = true := by
    simp [Field.fits]
  rw [render?, ite_eq_right_iff, imp_iff_not (Option.some_ne_none _), Bool.not_eq_true]
  simp only [fields, List.all_append, all_fits_axis, all_fits_numbers, rate, texts, remark, command,
    Bool.true_and, Bool.and_true, Bool.and_eq_false_iff, Bool.or_eq_false_iff,
    Bool.not_eq_false', decide_eq_false_iff_not, not_le]
  constructor
  · rintro (((((⟨word, exceeds⟩ | ⟨word, exceeds⟩) | ⟨word, exceeds⟩) | ⟨word, exceeds⟩) |
      ⟨word, exceeds⟩))
    · exact .xy (.inl word) exceeds
    · exact .xy (.inr (.inl word)) exceeds
    · exact .z word exceeds
    · exact .e word exceeds
    · exact .xy (.inr (.inr word)) exceeds
  · rintro (⟨word | word | word, exceeds⟩ | ⟨word, exceeds⟩ | ⟨word, exceeds⟩)
    · exact .inl (.inl (.inl (.inl ⟨word, exceeds⟩)))
    · exact .inl (.inl (.inl (.inr ⟨word, exceeds⟩)))
    · exact .inr ⟨word, exceeds⟩
    · exact .inl (.inl (.inr ⟨word, exceeds⟩))
    · exact .inl (.inr ⟨word, exceeds⟩)

/-- No line asks for too many places if none are asked for. -/
theorem not_exceeds (fits : precision.Fits) (line : Line) : ¬ line.Exceeds precision := by
  rw [← render?_eq_none_iff, render?_of_fits fits]
  exact Option.some_ne_none _

end Fields

end Line

namespace Tuning

/-- A line that is refused because its command is not understood. -/
structure RefusesUnknown (tuning : Tuning) (line : Line) : Prop where
  unknown : line.action = .unknown
  active : line.isInert = false
  strict : tuning.allowUnknown = false

/-- A pass has to write the line: it survives, or it is refused as unknown. -/
inductive Writes (tuning : Tuning) (machine : Machine) (line : Line) : Prop
  | survives (accepted : (tuning.reduce machine line).fault = none)
      (present : (tuning.reduce machine line).line.isEmpty = false)
  | refused (unknown : tuning.RefusesUnknown line)

section Turn

variable {tuning : Tuning} {machine : Machine} {line : Line}

/-- A line that is refused as unknown is told of as it is after its comment was removed where asked
for. -/
theorem RefusesUnknown.fault (refused : tuning.RefusesUnknown line) (machine : Machine) :
    (tuning.reduce machine line).fault =
      some (tuning.unknownFault (tuning.reduce machine line).line) := by
  have fault : (tuning.reduce machine line).fault =
      some (tuning.unknownFault (tuning.strip line)) := by
    rw [fault_reduce, refusal?, refused.unknown]
    simp [refused.active, refused.strict]
  have rejected : ¬ tuning.Accepts machine line := by
    rw [← fault_reduce_eq_none_iff, fault]
    exact Option.some_ne_none _
  rw [fault, (reduce_of_refusal rejected).2]

/-- Reducing a line has to write it only if the line is refused as unknown. -/
theorem fault_reduce_eq_placesExceeded_iff :
    (tuning.reduce machine line).fault = some .placesExceeded ↔
      tuning.RefusesUnknown line ∧
        (tuning.reduce machine line).line.Exceeds tuning.precision := by
  constructor
  · intro failed
    have refused : tuning.RefusesUnknown line := by
      rw [fault_reduce, refusal?] at failed
      cases action : line.action with
      | move => simp [action] at failed
      | unknown =>
        simp only [action] at failed
        split_ifs at failed with known
        obtain ⟨strict, active⟩ := not_or.mp known
        exact ⟨action, Bool.eq_false_of_not_eq_true active, Bool.eq_false_of_not_eq_true strict⟩
      | home | extrusion _ | positioning _ => simp [action] at failed
    refine ⟨refused, ?_⟩
    rw [refused.fault, Option.some.injEq, unknownFault] at failed
    rw [← Line.render?_eq_none_iff]
    cases written : (tuning.reduce machine line).line.render? tuning.precision with
    | none => rfl
    | some text => simp [written] at failed
  · rintro ⟨refused, exceeds⟩
    rw [refused.fault, unknownFault, Line.render?_eq_none_iff.mpr exceeds]

/-- A line ends a pass at once exactly if the pass has to write it and cannot. -/
theorem turn_eq_placesExceeded_iff {number : Nat} {raw : String} :
    (tuning.turn machine number raw).verdict = .failed .placesExceeded ↔
      ∃ line, Line.read raw = .ok line ∧ tuning.Writes machine line ∧
        (tuning.reduce machine line).line.Exceeds tuning.precision := by
  rw [turn]
  cases Line.read raw with
  | error fault => simp
  | ok line =>
    simp only [Except.ok.injEq, exists_eq_left']
    constructor
    · intro failed
      cases outcome : (tuning.reduce machine line).fault with
      | some fault =>
        simp only [outcome, Verdict.failed.injEq] at failed
        obtain ⟨refused, exceeds⟩ :=
          fault_reduce_eq_placesExceeded_iff.mp (failed ▸ outcome)
        exact ⟨.refused refused, exceeds⟩
      | none =>
        simp only [outcome] at failed
        split_ifs at failed with empty
        cases written : (tuning.reduce machine line).line.render? tuning.precision with
        | none =>
          exact ⟨.survives outcome (Bool.eq_false_of_not_eq_true empty),
            Line.render?_eq_none_iff.mp written⟩
        | some text => simp [written] at failed
    · rintro ⟨⟨accepted, present⟩ | refused, exceeds⟩
      · simp only [accepted, present, Bool.false_eq_true, if_false,
          Line.render?_eq_none_iff.mpr exceeds]
      · simp only [fault_reduce_eq_placesExceeded_iff.mpr ⟨refused, exceeds⟩]

/-- As long as numbers can be written no line ends a pass at once. -/
theorem turn_ne_placesExceeded (fits : tuning.precision.Fits) (machine : Machine) (number : Nat)
    (raw : String) : (tuning.turn machine number raw).verdict ≠ .failed .placesExceeded := by
  intro failed
  obtain ⟨line, -, -, exceeds⟩ := turn_eq_placesExceeded_iff.mp failed
  exact Line.not_exceeds fits _ exceeds

end Turn

/-- A pass is ended at once by a number that cannot be written exactly at the first line that it has
to write and whose words, after it was reduced against the machine that the lines before it left,
ask for too many places. All lines before it are taken without a fault. As long as no more places
are asked for than a number can have, no text and no machine ends a pass so. -/
theorem ends_at_once_iff :
    (∀ (tuning : Tuning) (machine : Machine) (text : String) (number : Nat),
      (tuning.run machine text).fault = some (.line number .placesExceeded) ↔
        ∃ front raw back line, Lines.ofString text = front ++ raw :: back ∧
          number = front.length + 1 ∧ (tuning.runLines machine front).fault = none ∧
          Line.read raw = .ok line ∧
          tuning.Writes (tuning.runLines machine front).machine line ∧
          (tuning.reduce (tuning.runLines machine front).machine line).line.Exceeds
            tuning.precision) ∧
    ∀ tuning : Tuning, tuning.precision.Fits → ∀ (machine : Machine) (text : String) (number : Nat),
      (tuning.run machine text).fault ≠ some (.line number .placesExceeded) := by
  refine ⟨?_, ?_⟩
  · intro tuning machine text number
    rw [run, runLines, Run.fault_feedAll_eq_some_iff_verdict rfl]
    constructor
    · rintro ⟨front, raw, back, reason, cut, success, failed, named⟩
      obtain ⟨rfl, rfl⟩ := PassFault.line.inj named
      obtain ⟨line, read, writes, exceeds⟩ := turn_eq_placesExceeded_iff.mp failed
      exact ⟨front, raw, back, line, cut, by simp, success, read, writes, exceeds⟩
    · rintro ⟨front, raw, back, line, cut, rfl, success, read, writes, exceeds⟩
      refine ⟨front, raw, back, .placesExceeded, cut, success, ?_, by simp⟩
      exact turn_eq_placesExceeded_iff.mpr ⟨line, read, writes, exceeds⟩
  · intro tuning fits machine text number ended
    rw [run, runLines, Run.fault_feedAll_eq_some_iff_verdict rfl] at ended
    obtain ⟨front, raw, -, reason, -, -, failed, named⟩ := ended
    obtain ⟨-, rfl⟩ := PassFault.line.inj named
    exact turn_ne_placesExceeded fits _ _ raw failed

/-- With too many places for X and parameters only: a redundant X, a feed rate, comments and other
axes are passed over, the first X that is kept is not. An unknown command without a parameter is
refused as ever; one with a parameter ends the pass, whether it is let through or refused. With the
standard places the same lines end no pass so. -/
theorem ends_at_once_iff_first_kept_word :
    let coarse : Tuning := { Tuning.standard with precision := ⟨70000, 5, 8⟩ }
    let moves := "G28\nG1 X0 F1200 ; X7\n; X8\nG1 Z1 E2\nG1 X5\nG1 X6\n"
    let heats := "G28\nM107\nM104 S200\n"
    (coarse.run {} moves).fault = some (.line 5 .placesExceeded) ∧
      (coarse.run {} heats).fault ≠ some (.line 3 .placesExceeded) ∧
      ({ coarse with allowUnknown := true }.run {} heats).fault =
        some (.line 3 .placesExceeded) ∧
      (coarse.run {} "G28\nM104 S200\n").fault = some (.line 2 .placesExceeded) ∧
      (Tuning.standard.run {} moves).fault ≠ some (.line 5 .placesExceeded) := by
  intro coarse moves heats
  obtain ⟨places, never⟩ := ends_at_once_iff
  refine ⟨?_, ?_, ?_, ?_, never _ ⟨by decide, by decide, by decide⟩ _ _ _⟩
  · refine (places coarse {} moves 5).mpr ⟨["G28", "G1 X0 F1200 ; X7", "; X8", "G1 Z1 E2"], "G1 X5",
      ["G1 X6"], { command := some .linearMove, x := some 5.0 }, by decide +kernel, rfl,
      by decide +kernel, by decide +kernel, ?_, ?_⟩
    · exact .survives (by decide +kernel) (by decide +kernel)
    · exact .xy (.inl (by decide +kernel)) (by decide)
  · decide +kernel
  · refine (places { coarse with allowUnknown := true } {} heats 3).mpr ⟨["G28", "M107"],
      "M104 S200", [], { command := some ⟨.m, 104⟩, numbers := .ofList [('S', 200.0)] },
      by decide +kernel, rfl, by decide +kernel, by decide +kernel, ?_, ?_⟩
    · exact .survives (by decide +kernel) (by decide +kernel)
    · exact .xy (.inr (.inr (by decide +kernel))) (by decide)
  · refine (places coarse {} "G28\nM104 S200\n" 2).mpr ⟨["G28"], "M104 S200", [],
      { command := some ⟨.m, 104⟩, numbers := .ofList [('S', 200.0)] },
      by decide +kernel, rfl, by decide +kernel, by decide +kernel, ?_, ?_⟩
    · exact .refused ⟨by decide +kernel, by decide +kernel, by decide +kernel⟩
    · exact .xy (.inr (.inr (by decide +kernel))) (by decide)

end Tuning

end Toolpath
