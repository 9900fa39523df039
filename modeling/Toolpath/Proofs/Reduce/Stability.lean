import Mathlib
import Toolpath.Proofs.Reduce.Redundancy

/-! # Reducing what is left again

What is left of lines is reduced to itself. A word that is dropped changes nothing that a later
decision reads: the only trace it can leave is in the extruder position, which counts increments too
small to keep, and nothing reads that position until E words become positions again. So, as long as
they do not, a machine that differs in the extruder position only makes the same decisions about the
surviving lines, finds no redundant word in them, and carries them out.
-/

namespace Toolpath

/-- The second machine is the first one but for the extruder position. -/
def Machine.SameButExtruded (first second : Machine) : Prop :=
  ∃ extruded, second = { first with extruded }

/-- Switching E words to positions is what one command does. -/
theorem Line.action_eq_extrusion_false_iff {line : Line} :
    line.action = .extrusion false ↔ line.command = some .absoluteExtrusion :=
  action_eq_iff_command rfl

namespace Machine.SameButExtruded

variable {first second third : Machine}

theorem refl (machine : Machine) : SameButExtruded machine machine := ⟨machine.extruded, rfl⟩

theorem trans (front : SameButExtruded first second) (back : SameButExtruded second third) :
    SameButExtruded first third := by
  obtain ⟨_, rfl⟩ := front
  obtain ⟨extruded, rfl⟩ := back
  exact ⟨extruded, rfl⟩

theorem sameModes (same : SameButExtruded first second) : SameModes first second := by
  obtain ⟨_, rfl⟩ := same
  exact ⟨rfl, rfl, rfl⟩

/-- Only switching E words to positions reads the extruder position. -/
theorem follow (same : SameButExtruded first second) {line : Line}
    (steady : line.action ≠ .extrusion false) :
    SameButExtruded (first.follow line) (second.follow line) := by
  obtain ⟨extruded, rfl⟩ := same
  rw [Machine.follow, Machine.follow]
  cases action : line.action with
  | home | positioning _ | unknown => exact ⟨extruded, rfl⟩
  | move => exact ⟨_, rfl⟩
  | extrusion relative =>
    cases relative with
    | true => exact ⟨extruded, rfl⟩
    | false => exact absurd action steady

end Machine.SameButExtruded

namespace Tuning

open Machine (SameButExtruded)

variable {tuning : Tuning} {machine second : Machine} {line : Line}

theorem Notices.of_sameButExtruded (notices : tuning.Notices machine line)
    (same : SameButExtruded machine second) : tuning.Notices second line := by
  obtain ⟨_, rfl⟩ := same
  exact ⟨notices.x, notices.y, notices.z, notices.e, notices.feedrate⟩

/-- The kept words of a move take the machine where the move takes it, but for the increments that
are not kept. -/
theorem move_keptWords (tuning : Tuning) (machine : Machine) (line : Line) :
    SameButExtruded (tuning.afterMove machine line)
      (machine.move (tuning.keptWords machine line)) := by
  refine ⟨(machine.move (tuning.keptWords machine line)).extruded, ?_⟩
  simp only [Machine.move, hasFeedrate_keptWords]
  simp only [afterMove, reduceMove, keptWords, keepAxis_eq, keepExtrusion_eq]
  cases tuning.keepsFeedrate machine line <;> rfl

section Step

variable (accepts : tuning.Accepts machine line)
include accepts

/-- An accepted line takes the machine where what is left of it takes it, but for the increments
that are not kept. -/
theorem Accepts.follow_line :
    SameButExtruded (tuning.reduce machine line).machine
      (machine.follow (tuning.reduce machine line).line) := by
  by_cases move : line.action = .move
  · rw [accepts.reduce_move move]
    simp only [follow_reduceMove tuning machine machine move]
    exact move_keptWords tuning machine line
  · rw [accepts.reduce_other move, follow_strip]
    exact .refl _

/-- A line that survives keeps the meaning of E words if the line it comes from does. -/
theorem Accepts.steady_line (steady : line.action ≠ .extrusion false) :
    (tuning.reduce machine line).line.action ≠ .extrusion false := by
  rcases accepts.line_cases with ⟨-, same⟩ | ⟨-, same⟩ | same <;> rw [same]
  · rwa [action_strip]
  · exact (tuning.action_strip line).symm ▸ steady
  · nofun

/-- A line that survives is kept as it is and carried out by a machine that differs in the extruder
position only. -/
theorem Accepts.reduce_line (present : (tuning.reduce machine line).line.isEmpty = false)
    (same : SameButExtruded machine second) :
    tuning.reduce second (tuning.reduce machine line).line =
      ⟨second.follow (tuning.reduce machine line).line, (tuning.reduce machine line).line, none⟩ := by
  obtain ⟨action, params⟩ := accepts.survivor present
  have bare : tuning.strip (tuning.reduce machine line).line = (tuning.reduce machine line).line :=
    strip_of_bare accepts.bare_line
  have inert : line.isInert → (tuning.reduce machine line).line.isInert := by
    intro inert
    rw [reduce_of_isInert tuning machine inert, isInert_strip]
    exact inert
  have again : tuning.Accepts second (tuning.reduce machine line).line :=
    accepts.transfer id same.sameModes action params inert
  have kept : (tuning.reduce machine line).line.action = .move →
      (tuning.reduce machine line).line = tuning.keptWords machine (tuning.strip line) ∧
        (tuning.keptWords machine (tuning.strip line)).hasWords = true := by
    intro move
    exact accepts.line_of_move (action ▸ move) present
  apply again.reduce_of_notices bare
  · intro move
    rw [(kept move).1]
    exact (notices_keptWords tuning machine _).of_sameButExtruded same
  · intro move
    rw [(kept move).1]
    exact (kept move).2
  · intro move unset
    rw [(kept move).1] at unset ⊢
    rw [hasFeedrate_keptWords] at unset
    simp only [keptWords, unset, Bool.false_eq_true, if_false]

end Step

/-- Reducing the surviving lines again, from a machine that differs in the extruder position only,
keeps each of them and carries them out. -/
theorem reduceAll_survivors {after : Machine} {lines kept : List Line}
    (success : tuning.reduceAll machine lines = .ok (after, kept))
    (steady : ∀ line ∈ lines, line.action ≠ .extrusion false)
    (same : SameButExtruded machine second) :
    let survivors := kept.filter fun line => !line.isEmpty
    tuning.reduceAll second survivors = .ok (second.followAll survivors, survivors) ∧
      SameButExtruded after (second.followAll survivors) := by
  induction lines generalizing machine second kept with
  | nil =>
    obtain ⟨rfl, rfl⟩ := Prod.mk.inj (Except.ok.inj success)
    exact ⟨rfl, same⟩
  | cons line lines ih =>
    obtain ⟨accepts, rest, later, rfl⟩ := reduceAll_cons_eq_ok_iff.mp success
    obtain ⟨first, others⟩ := List.forall_mem_cons.mp steady
    have next := accepts.follow_line.trans (same.follow (accepts.steady_line first))
    rw [List.filter_cons]
    cases empty : (tuning.reduce machine line).line.isEmpty with
    | true =>
      rw [Machine.follow_of_isEmpty empty] at next
      exact ih later others next
    | false =>
      obtain ⟨again, last⟩ := ih later others next
      have kept := accepts.reduce_line empty same
      refine ⟨reduceAll_cons_eq_ok_iff.mpr ⟨?_, rest.filter fun line => !line.isEmpty, ?_, ?_⟩,
        last⟩
      · rw [← fault_reduce_eq_none_iff, kept]
      · rw [kept]
        exact again
      · rw [kept]
        rfl

/-- What is left of lines is stable: as long as no line switches E words to positions, reducing the
surviving lines again from the same machine succeeds and leaves every one of them as it is. The
machine carries them all out and ends where it ended before, but for the extruder position. -/
theorem survivors_stable (tuning : Tuning) (machine after : Machine) (lines kept : List Line)
    (steady : ∀ line ∈ lines, line.command ≠ some .absoluteExtrusion)
    (success : tuning.reduceAll machine lines = .ok (after, kept)) :
    let survivors := kept.filter fun line => !line.isEmpty
    let again := machine.followAll survivors
    tuning.reduceAll machine survivors = .ok (again, survivors) ∧
      again = { after with extruded := again.extruded } := by
  intro survivors again
  have steady : ∀ line ∈ lines, line.action ≠ .extrusion false := by
    intro line member
    rw [Ne, Line.action_eq_extrusion_false_iff]
    exact steady line member
  obtain ⟨reduced, extruded, same⟩ := reduceAll_survivors success steady (.refl machine)
  refine ⟨reduced, ?_⟩
  change again = _ at same
  rw [same]

/-- Increments of which one is too small to keep, a word and a line that are dropped, and an
undefined number. -/
theorem survivors_stable_small_increment :
    let move : Line → Line := fun line => { line with command := some .linearMove }
    let lines :=
      [.ofCommand .home, .ofCommand .relativeExtrusion, move { x := some 1.0, e := some 0.0005 },
        move { x := some 1.0005, feedrate := -0.0 }, move { y := some (0.0 / 0.0), e := some 2.0 }]
    let kept :=
      [.ofCommand .home, .ofCommand .relativeExtrusion, move { x := some 1.0 }, .blank,
        move { y := some (0.0 / 0.0), e := some 2.0 }]
    let after : Machine :=
      { x := 1.0, y := 0.0 / 0.0, extruded := 2.0005, relativeExtrusion := true, homed := true }
    let survivors := kept.filter fun line => !line.isEmpty
    let again := Machine.followAll {} survivors
    (∀ line ∈ lines, line.command ≠ some .absoluteExtrusion) ∧
      Tuning.standard.reduceAll {} lines = .ok (after, kept) ∧
      Tuning.standard.reduceAll {} survivors = .ok (again, survivors) ∧
      again = { after with extruded := again.extruded } := by
  intro move lines kept after survivors again
  have steady : ∀ line ∈ lines, line.command ≠ some .absoluteExtrusion := by decide +kernel
  have success : Tuning.standard.reduceAll {} lines = .ok (after, kept) := by decide +kernel
  exact ⟨steady, success, survivors_stable .standard {} after lines kept steady success⟩

-- Switching E words to positions makes the increments that were not kept matter.
example :
    let increment : Line := { command := some .linearMove, e := some 0.0009 }
    let position : Line := { command := some .linearMove, e := some 0.0005 }
    let kept := [.blank, .blank, .ofCommand .absoluteExtrusion, position]
    let survivors := kept.filter fun line => !line.isEmpty
    let machine : Machine := { homed := true, relativeExtrusion := true }
    (Tuning.standard.reduceAll machine
        [increment, increment, .ofCommand .absoluteExtrusion, position]).map (·.2) = .ok kept ∧
      (Tuning.standard.reduceAll machine survivors).map (·.2) ≠ .ok survivors := by
  decide +kernel

end Tuning

end Toolpath
