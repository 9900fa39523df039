import Mathlib
import Toolpath.Proofs.Pass.Endings

/-! # The machine and the settings of the output

A tuning says when two values are near, and how the output looks: with how many places, with or
without comments, and whether unknown lines have a place in it. The machine is tracked from what is
read and never from what is written, so it hears of the threshold only. Two passes with one
threshold go through the same machines and leave the same lines but for the comments. If both allow
unknown lines or neither does, they end early at the same line and for the same reason, but that an
unknown line is reported the way each of them writes it.
-/

namespace Toolpath

/-- Faults that are the same but for the written form of an unknown line. -/
inductive Fault.Alike : Fault → Fault → Prop
  | same (fault : Fault) : Alike fault fault
  | unknown (first second : String) : Alike (.unknownCommand first) (.unknownCommand second)

/-- Faults of the same line that are alike. -/
inductive PassFault.Alike : PassFault → PassFault → Prop
  | line (number : Nat) {first second : Fault} (alike : first.Alike second) :
    Alike (.line number first) (.line number second)

/-- The lines that are left, without their comments and without the lines that are empty then. -/
def bareSurvivors (kept : List Line) : List Line :=
  ((kept.filter fun line => !line.isEmpty).map Line.withoutComment).filter fun line => !line.isEmpty

theorem Line.isEmpty_withoutComment {line : Line} (empty : line.isEmpty = true) :
    line.withoutComment.isEmpty = true := by
  simp only [isEmpty, Bool.and_eq_true] at empty ⊢
  exact ⟨empty.1, rfl⟩

/-- An empty line may as well be taken away after its comment. -/
theorem bareSurvivors_eq (kept : List Line) :
    bareSurvivors kept = (kept.map Line.withoutComment).filter fun line => !line.isEmpty := by
  rw [bareSurvivors, List.filter_map, List.filter_filter, List.filter_map]
  congr 1
  apply List.filter_congr
  intro line _
  cases empty : line.isEmpty with
  | false => simp
  | true => simp [Line.isEmpty_withoutComment empty]

namespace Tuning

variable {tuning other : Tuning}

section Threshold

variable (threshold : other.threshold = tuning.threshold)
include threshold

theorem near_congr : other.near = tuning.near := by
  funext a b
  rw [near, near, threshold]

theorem keepAxis_congr : other.keepAxis = tuning.keepAxis := by
  funext word tracked
  simp only [keepAxis, near_congr threshold]

theorem keepExtrusion_congr : other.keepExtrusion = tuning.keepExtrusion := by
  funext machine word
  simp only [keepExtrusion, near_congr threshold]

theorem keepsFeedrate_congr : other.keepsFeedrate = tuning.keepsFeedrate := by
  funext machine line
  rw [keepsFeedrate, keepsFeedrate, near_congr threshold]

/-- Which words of a move are kept, and where it takes the machine, follows from the threshold. -/
theorem reduceMove_congr : other.reduceMove = tuning.reduceMove := by
  funext machine line
  rw [reduceMove, reduceMove, keepAxis_congr threshold, keepExtrusion_congr threshold,
    keepsFeedrate_congr threshold]

end Threshold

/-- Comments may be removed from a move before or after its words. -/
theorem withoutComment_reduceMove (tuning other : Tuning) (machine : Machine) (line : Line) :
    (tuning.reduceMove machine (other.strip line)).2.withoutComment =
      (tuning.reduceMove machine line).2.withoutComment := by
  rw [strip]
  split_ifs
  · have words : (tuning.keptWords machine line.withoutComment).hasWords =
        (tuning.keptWords machine line).hasWords := rfl
    rw [reduceMove_eq, reduceMove_eq, words]
    split_ifs <;> rfl
  · rfl

@[simp] theorem withoutComment_strip (tuning : Tuning) (line : Line) :
    (tuning.strip line).withoutComment = line.withoutComment := by
  rw [strip]
  split_ifs <;> rfl

/-- Tunings with one threshold that accept a line take the machine to the same place, and leave the
same of the line but for its comment. -/
theorem Accepts.reduce_congr {machine : Machine} {line : Line}
    (accepts : tuning.Accepts machine line) (acceptsOther : other.Accepts machine line)
    (threshold : other.threshold = tuning.threshold) :
    (other.reduce machine line).machine = (tuning.reduce machine line).machine ∧
      (other.reduce machine line).line.withoutComment =
        (tuning.reduce machine line).line.withoutComment := by
  by_cases move : line.action = .move
  · rw [accepts.reduce_move move, acceptsOther.reduce_move move]
    simp only [afterMove, reduceMove_congr threshold, withoutComment_reduceMove, and_self]
  · rw [accepts.reduce_other move, acceptsOther.reduce_other move]
    simp only [withoutComment_strip, and_self]

/-- Lines that are reduced in order are reduced in order by a tuning with the same threshold that
allows unknown lines where the first one does. -/
theorem reduceAll_congr (threshold : other.threshold = tuning.threshold)
    (allowed : tuning.allowUnknown → other.allowUnknown) {machine after : Machine}
    {lines kept : List Line} (success : tuning.reduceAll machine lines = .ok (after, kept)) :
    ∃ left, other.reduceAll machine lines = .ok (after, left) ∧
      left.map Line.withoutComment = kept.map Line.withoutComment := by
  induction lines generalizing machine kept with
  | nil =>
    obtain ⟨rfl, rfl⟩ := Prod.mk.inj (Except.ok.inj success)
    exact ⟨[], rfl, rfl⟩
  | cons line lines ih =>
    obtain ⟨accepts, rest, later, rfl⟩ := reduceAll_cons_eq_ok_iff.mp success
    have acceptsOther := accepts.transfer allowed (.refl machine) rfl rfl id
    -- Both go on from one machine, for all that sets it is the threshold.
    obtain ⟨sameMachine, sameLine⟩ := accepts.reduce_congr acceptsOther threshold
    obtain ⟨left, success, same⟩ := ih later
    refine ⟨(other.reduce machine line).line :: left, ?_, ?_⟩
    · rw [reduceAll_cons_eq_ok_iff, sameMachine]
      exact ⟨acceptsOther, left, success, rfl⟩
    · rw [List.map_cons, List.map_cons, sameLine, same]

/-- A tuning that allows unknown lines exactly where another does refuses a line for the same
reason. -/
theorem refusal?_alike (fits : tuning.precision.Fits) (fitsOther : other.precision.Fits)
    (allowed : tuning.allowUnknown = other.allowUnknown) (machine : Machine) (line : Line) :
    Option.Rel Fault.Alike (tuning.refusal? machine line) (other.refusal? machine line) := by
  rw [refusal?, refusal?, allowed]
  cases line.action with
  | move =>
    cases refusesMove? machine line with
    | none => exact .none
    | some mode => exact .some (.same _)
  | unknown =>
    rw [unknownFault, unknownFault, Line.render?_of_fits fits, Line.render?_of_fits fitsOther]
    split_ifs
    · exact .none
    · exact .some (.unknown _ _)
  | home | extrusion _ | positioning _ => exact .none

theorem digest_error_alike (fits : tuning.precision.Fits) (fitsOther : other.precision.Fits)
    (allowed : tuning.allowUnknown = other.allowUnknown) {machine : Machine} {raw : String}
    {fault : Fault} (failed : tuning.digest machine raw = .error fault) :
    ∃ again, other.digest machine raw = .error again ∧ fault.Alike again := by
  cases outcome : Line.read raw with
  | error reason =>
    rw [digest_of_read_error outcome] at failed ⊢
    obtain rfl := Except.error.inj failed
    exact ⟨_, rfl, .same _⟩
  | ok line =>
    have alike := refusal?_alike fits fitsOther allowed machine line
    rw [digest_of_read_ok outcome] at failed ⊢
    cases refused : tuning.refusal? machine line with
    | none => simp [refused] at failed
    | some reason =>
      rw [refused] at failed alike
      obtain rfl := Except.error.inj failed
      cases refusedOther : other.refusal? machine line with
      | none => rw [refusedOther] at alike; contradiction
      | some again =>
        rw [refusedOther] at alike
        cases alike with
        | some alike => exact ⟨again, rfl, alike⟩

/-- A pass that does not end early does not end early under a tuning with the same threshold that
allows unknown lines where the first one does. -/
theorem runLines_congr (threshold : other.threshold = tuning.threshold)
    (fitsOther : other.precision.Fits) (allowed : tuning.allowUnknown → other.allowUnknown)
    {machine : Machine} {raws : List String}
    (success : (tuning.runLines machine raws).fault = none) :
    (other.runLines machine raws).fault = none ∧
      (other.runLines machine raws).machine = (tuning.runLines machine raws).machine := by
  obtain ⟨lines, kept, reads, reduced, -⟩ := runLines_cases success
  obtain ⟨left, again, -⟩ := reduceAll_congr threshold allowed reduced
  obtain ⟨fault, machine, -⟩ := runLines_of_reduceAll fitsOther reads again
  exact ⟨fault, machine⟩

/-- Where a pass ends early, a pass under another tuning with the same threshold does, if both allow
unknown lines or neither does. -/
theorem fault_runLines_alike (threshold : other.threshold = tuning.threshold)
    (fits : tuning.precision.Fits) (fitsOther : other.precision.Fits)
    (allowed : tuning.allowUnknown = other.allowUnknown) {machine : Machine} {raws : List String}
    {fault : PassFault} (ended : (tuning.runLines machine raws).fault = some fault) :
    ∃ again, (other.runLines machine raws).fault = some again ∧ fault.Alike again := by
  obtain ⟨front, raw, back, reason, cut, running, failed, rfl⟩ :=
    (fault_runLines_eq_some_iff fits).mp ended
  have sameAllowed : tuning.allowUnknown → other.allowUnknown := by
    rw [allowed]
    exact id
  obtain ⟨runningOther, sameMachine⟩ := runLines_congr threshold fitsOther sameAllowed running
  obtain ⟨again, failedOther, alike⟩ := digest_error_alike fits fitsOther allowed failed
  refine ⟨_, (fault_runLines_eq_some_iff fitsOther).mpr ?_, .line _ alike⟩
  rw [← sameMachine] at failedOther
  exact ⟨front, raw, back, again, cut, runningOther, failedOther, rfl⟩

/-- The settings of the output do not influence the machine. Of two tunings with one threshold, if a
pass under the first succeeds and the second allows unknown lines where the first does, a pass under
the second succeeds and ends with the same machine, and the lines that survive, before they are
written, are the same but for comments and lines that only held one. If both allow unknown lines or
neither does, the passes end early together, at one line and for one reason. -/
theorem independent_of_output (tuning other : Tuning)
    (threshold : other.threshold = tuning.threshold) (fits : tuning.precision.Fits)
    (fitsOther : other.precision.Fits) (machine : Machine) (text : String) :
    let first := tuning.run machine text
    let second := other.run machine text
    ((tuning.allowUnknown = true → other.allowUnknown = true) → first.fault = none →
      second.fault = none ∧ second.machine = first.machine ∧
        ∃ lines kept left, Line.Reads (Lines.ofString text) lines ∧
          tuning.reduceAll machine lines = .ok (first.machine, kept) ∧
          other.reduceAll machine lines = .ok (second.machine, left) ∧
          first.kept.toList = survivingTexts tuning.precision kept ∧
          second.kept.toList = survivingTexts other.precision left ∧
          bareSurvivors left = bareSurvivors kept) ∧
    (tuning.allowUnknown = other.allowUnknown →
      Option.Rel PassFault.Alike first.fault second.fault) := by
  intro first second
  constructor
  · intro allowed success
    obtain ⟨lines, kept, reads, reduced, texts⟩ := runLines_cases success
    obtain ⟨left, again, same⟩ := reduceAll_congr threshold allowed reduced
    obtain ⟨fault, last, textsOther⟩ := runLines_of_reduceAll fitsOther reads again
    refine ⟨fault, last, lines, kept, left, reads, reduced, ?_, texts, textsOther, ?_⟩
    · rw [again, ← last]
      rfl
    · rw [bareSurvivors_eq, bareSurvivors_eq, same]
  · intro allowed
    cases outcome : first.fault with
    | some fault =>
      obtain ⟨again, ended, alike⟩ :=
        fault_runLines_alike threshold fits fitsOther allowed outcome
      rw [show second.fault = some again from ended]
      exact .some alike
    | none =>
      have success := (runLines_congr threshold fitsOther (fun yes => allowed ▸ yes) outcome).1
      rw [show second.fault = none from success]
      exact .none

/-- Fewer places and no comments: a line that only holds a comment and a move that is dropped with its
comment in the first text, and an unknown line at the end of the second. -/
theorem independent_of_output_rounded :
    let other : Tuning := { Tuning.standard with precision := ⟨1, 0, 2⟩, removeComments := true }
    let good := "; start\nG28 ; home\nG1 X1.04 E2 ;a\nG1 X1.0404 ;b\nG1 X1.09\n"
    let bad := "G28\nT1 X.06 ;tool\nG1\n"
    let first := Tuning.standard.run {} good
    let second := other.run {} good
    other.threshold = Tuning.standard.threshold ∧ Tuning.standard.precision.Fits ∧
      other.precision.Fits ∧
      (Tuning.standard.allowUnknown = true → other.allowUnknown = true) ∧ first.fault = none ∧
      (second.fault = none ∧ second.machine = first.machine ∧
        ∃ lines kept left, Line.Reads (Lines.ofString good) lines ∧
          Tuning.standard.reduceAll {} lines = .ok (first.machine, kept) ∧
          other.reduceAll {} lines = .ok (second.machine, left) ∧
          first.kept.toList = survivingTexts Tuning.standard.precision kept ∧
          second.kept.toList = survivingTexts other.precision left ∧
          bareSurvivors left = bareSurvivors kept) ∧
      Tuning.standard.allowUnknown = other.allowUnknown ∧
      (Tuning.standard.run {} bad).fault = some (.line 2 (.unknownCommand "X.06 T1 ;tool")) ∧
      Option.Rel PassFault.Alike (Tuning.standard.run {} bad).fault (other.run {} bad).fault := by
  intro other good bad first second
  have fits : Tuning.standard.precision.Fits := ⟨by decide, by decide, by decide⟩
  have fitsOther : other.precision.Fits := ⟨by decide, by decide, by decide⟩
  have success : first.fault = none := by decide +kernel
  exact ⟨rfl, fits, fitsOther, id, success,
    (independent_of_output .standard other rfl fits fitsOther {} good).1 id success, rfl,
    by decide +kernel, (independent_of_output .standard other rfl fits fitsOther {} bad).2 rfl⟩

end Tuning

end Toolpath
