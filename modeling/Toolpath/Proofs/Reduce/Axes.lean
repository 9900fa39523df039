import Mathlib
import Toolpath.Proofs.Reduce.Redundancy

/-! # Each axis on its own

The history of an axis is what the lines say about it: they home it, send it somewhere with a word
of a linear move, or leave it alone. A greedy filter goes through a history with a reference. It
keeps a word that is not near the reference, which then becomes the reference; homing sets the
reference to zero. Reducing lines filters each of the three axes in this way, by its own history,
from the position that is tracked at the start to the one that is tracked at the end. So what a line
says about anything else has no part in which words of an axis are kept.
-/

namespace Toolpath

/-- An axis that coordinates move. -/
inductive Axis where
  | x
  | y
  | z
  deriving DecidableEq, Repr

/-- What one line says about an axis. -/
inductive Motion where
  | home
  | goTo (position : Float)
  | rest
  deriving DecidableEq, Repr

/-- Where the machine has an axis. -/
def Machine.position (machine : Machine) : Axis → Float
  | .x => machine.x
  | .y => machine.y
  | .z => machine.z

namespace Line

/-- The coordinate that a line has for an axis. -/
def coordinate (line : Line) : Axis → Option Float
  | .x => line.x
  | .y => line.y
  | .z => line.z

/-- The coordinate of a linear move; a coordinate of any other line moves nothing. -/
def target (line : Line) (axis : Axis) : Option Float :=
  if line.command = some .rapidMove ∨ line.command = some .linearMove then line.coordinate axis
  else none

/-- What a line says about an axis. -/
def motion (line : Line) (axis : Axis) : Motion :=
  if line.command = some .home then .home else (line.target axis).elim .rest .goTo

theorem target_of_move {line : Line} (move : line.action = .move) (axis : Axis) :
    line.target axis = line.coordinate axis :=
  if_pos (action_eq_move_iff.mp move)

theorem target_of_not_move {line : Line} (other : line.action ≠ .move) (axis : Axis) :
    line.target axis = none :=
  if_neg (mt action_eq_move_iff.mpr other)

theorem motion_of_home {line : Line} (home : line.action = .home) (axis : Axis) :
    line.motion axis = .home :=
  if_pos ((action_eq_iff_command rfl).mp home)

theorem motion_of_not_home {line : Line} (other : line.action ≠ .home) (axis : Axis) :
    line.motion axis = (line.target axis).elim .rest .goTo :=
  if_neg (mt (action_eq_iff_command rfl).mpr other)

end Line

namespace Tuning

/-- One step of the filter: what is kept of a motion, and the reference after it. -/
def sift (tuning : Tuning) (reference : Float) : Motion → Option Float × Float
  | .home => (none, 0.0)
  | .rest => (none, reference)
  | .goTo position =>
    if tuning.near position reference then (none, reference) else (some position, position)

/-- The filter over a history: what is kept of each motion, and the reference at the end. -/
def siftAll (tuning : Tuning) (reference : Float) : List Motion → List (Option Float) × Float
  | [] => ([], reference)
  | motion :: history =>
    let step := tuning.sift reference motion
    let rest := tuning.siftAll step.2 history
    (step.1 :: rest.1, rest.2)

section Step

variable {tuning : Tuning} {machine : Machine} {line : Line}

theorem coordinate_strip (tuning : Tuning) (line : Line) (axis : Axis) :
    (tuning.strip line).coordinate axis = line.coordinate axis := by
  rw [strip]
  split_ifs <;> rfl

/-- What is left of a coordinate of a move. -/
theorem coordinate_keptWords (tuning : Tuning) (machine : Machine) (line : Line) (axis : Axis) :
    (tuning.keptWords machine line).coordinate axis =
      tuning.noticed (line.coordinate axis) (machine.position axis) := by
  cases axis <;> simp only [keptWords, keepAxis_eq, Line.coordinate, Machine.position]

/-- Where a move takes an axis: to what is left of its coordinate. -/
theorem position_afterMove (tuning : Tuning) (machine : Machine) (line : Line) (axis : Axis) :
    (tuning.afterMove machine line).position axis =
      (tuning.noticed (line.coordinate axis) (machine.position axis)).getD
        (machine.position axis) := by
  cases axis <;> simp only [afterMove, reduceMove, keepAxis_eq, Line.coordinate, Machine.position]

/-- Going somewhere is a step of the filter that keeps what is noticed. -/
theorem sift_goTo (tuning : Tuning) (word : Option Float) (reference : Float) :
    tuning.sift reference (word.elim .rest .goTo) =
      (tuning.noticed word reference, (tuning.noticed word reference).getD reference) := by
  rw [← keepAxis_eq]
  cases word <;> rfl

/-- A move that lost all its words has no word left. -/
theorem coordinate_of_not_hasWords (bare : line.hasWords = false) (axis : Axis) :
    line.coordinate axis = none := by
  simp only [Line.hasWords, Bool.or_eq_false_iff, Option.isSome_eq_false_iff,
    Option.isNone_iff_eq_none] at bare
  obtain ⟨⟨⟨⟨⟨x, y⟩, z⟩, -⟩, -⟩, -⟩ := bare
  cases axis
  · exact x
  · exact y
  · exact z

/-- What is left of an accepted move moves an axis by its kept word. -/
theorem target_reduceMove (move : line.action = .move) (axis : Axis) :
    (tuning.reduceMove machine (tuning.strip line)).2.target axis =
      (tuning.keptWords machine (tuning.strip line)).coordinate axis := by
  have kept : (tuning.keptWords machine (tuning.strip line)).action = .move :=
    (tuning.action_strip line).trans move
  rw [reduceMove_eq]
  split_ifs with words
  · exact Line.target_of_move kept axis
  · exact (coordinate_of_not_hasWords (by simpa using words) axis).symm

/-- Reducing an accepted line is a step of the filter on every axis. -/
theorem Accepts.sift_motion (accepts : tuning.Accepts machine line) (axis : Axis) :
    tuning.sift (machine.position axis) (line.motion axis) =
      ((tuning.reduce machine line).line.target axis,
        (tuning.reduce machine line).machine.position axis) := by
  by_cases move : line.action = .move
  · have notHome : line.action ≠ .home := by simp [move]
    rw [Line.motion_of_not_home notHome, Line.target_of_move move, sift_goTo,
      accepts.reduce_move move, target_reduceMove move, coordinate_keptWords, coordinate_strip,
      position_afterMove]
  · have kept : (tuning.strip line).target axis = none :=
      Line.target_of_not_move (by rwa [action_strip]) axis
    rw [accepts.reduce_other move, kept, Machine.follow]
    cases action : line.action with
    | move => exact absurd action move
    | home =>
      rw [Line.motion_of_home action]
      cases axis <;> rfl
    | extrusion _ | positioning _ | unknown =>
      rw [Line.motion_of_not_home (by simp [action]), Line.target_of_not_move move]
      cases axis <;> rfl

end Step

/-- Reducing lines filters every axis by its own history. -/
theorem siftAll_reduceAll {tuning : Tuning} {machine after : Machine} {lines kept : List Line}
    (success : tuning.reduceAll machine lines = .ok (after, kept)) (axis : Axis) :
    tuning.siftAll (machine.position axis) (lines.map fun line => line.motion axis) =
      (kept.map fun line => line.target axis, after.position axis) := by
  induction lines generalizing machine kept with
  | nil =>
    obtain ⟨rfl, rfl⟩ := Prod.mk.inj (Except.ok.inj success)
    rfl
  | cons line lines ih =>
    obtain ⟨accepts, rest, later, rfl⟩ := reduceAll_cons_eq_ok_iff.mp success
    rw [List.map_cons, siftAll, accepts.sift_motion axis, ih later]
    rfl

/-- The history of an axis follows from the commands and the coordinates of that axis. -/
theorem map_motion_congr {axis : Axis} {lines others : List Line}
    (commands : lines.map Line.command = others.map Line.command)
    (coordinates : (lines.map fun line => line.coordinate axis) =
      others.map fun line => line.coordinate axis) :
    (lines.map fun line => line.motion axis) = others.map fun line => line.motion axis := by
  induction lines generalizing others with
  | nil =>
    obtain rfl := List.map_eq_nil_iff.mp commands.symm
    rfl
  | cons line lines ih =>
    obtain ⟨other, rest, rfl, command, later⟩ := List.map_eq_cons_iff.mp commands.symm
    obtain ⟨coordinate, coordinatesLater⟩ := List.cons.inj coordinates
    have same : line.motion axis = other.motion axis := by
      simp only [Line.motion, Line.target, command, coordinate]
    rw [List.map_cons, List.map_cons, same, ih later.symm coordinatesLater]

/-- Every axis is filtered greedily and on its own. Position by position, the words of an axis that
are left on linear moves are those that the filter keeps of the history of that axis, from the
tracked position on, and the position that is tracked at the end is the last reference. So another
run from the same position of the axis, over lines with the same commands and the same coordinates
of that axis, keeps the same words of the axis at the same places, whatever else its machine and its
lines say. -/
theorem axes_filtered (tuning : Tuning) (machine after : Machine) (lines kept : List Line)
    (success : tuning.reduceAll machine lines = .ok (after, kept)) (axis : Axis) :
    tuning.siftAll (machine.position axis) (lines.map fun line => line.motion axis) =
        (kept.map fun line => line.target axis, after.position axis) ∧
      ∀ (second last : Machine) (others left : List Line),
        tuning.reduceAll second others = .ok (last, left) →
        second.position axis = machine.position axis →
        others.map Line.command = lines.map Line.command →
        (others.map fun line => line.coordinate axis) =
          (lines.map fun line => line.coordinate axis) →
        (left.map fun line => line.target axis) = (kept.map fun line => line.target axis) ∧
          last.position axis = after.position axis := by
  have filtered := siftAll_reduceAll success axis
  refine ⟨filtered, ?_⟩
  intro second last others left again start commands coordinates
  have refiltered := siftAll_reduceAll again axis
  rw [start, map_motion_congr commands coordinates, filtered] at refiltered
  exact Prod.mk.inj refiltered.symm

/-- Homing between moves, a word of a command that moves nothing, a dropped line, and a number that
is near nothing. The second run differs in all but the words of X. -/
theorem axes_filtered_homed_between :
    let move : Line → Line := fun line => { line with command := some .linearMove }
    let heat : Line := { command := some ⟨.m, 104⟩, x := some 9.0 }
    let lines :=
      [.ofCommand .home, move { x := some 1.0, y := some 2.0 }, move { x := some 1.0005 }, heat,
        .ofCommand .home, move { x := some 0.0005, feedrate := 60.0 },
        move { x := some (0.0 / 0.0) }]
    let kept :=
      [.ofCommand .home, move { x := some 1.0, y := some 2.0 }, .blank, heat, .ofCommand .home,
        move { feedrate := 60.0 }, move { x := some (0.0 / 0.0) }]
    let after : Machine := { x := 0.0 / 0.0, feedrate := 60.0, homed := true }
    let second : Machine := { y := 7.0, feedrate := 60.0 }
    let others :=
      [.ofCommand .home, move { x := some 1.0, z := some 3.0 },
        move { x := some 1.0005, e := some 4.0 }, { heat with comment := some "; warm" },
        .ofCommand .home, move { x := some 0.0005, feedrate := 60.0 },
        move { x := some (0.0 / 0.0), y := some 1.0 }]
    let left :=
      [.ofCommand .home, move { x := some 1.0, z := some 3.0 }, move { e := some 4.0 },
        { heat with comment := some "; warm" }, .ofCommand .home, .blank,
        move { x := some (0.0 / 0.0), y := some 1.0 }]
    let last : Machine :=
      { x := 0.0 / 0.0, y := 1.0, e := 4.0, extruded := 4.0, feedrate := 60.0, homed := true }
    Tuning.permissive.reduceAll {} lines = .ok (after, kept) ∧
      Tuning.permissive.reduceAll second others = .ok (last, left) ∧
      Tuning.permissive.siftAll 0.0 (lines.map fun line => line.motion .x) =
        ([none, some 1.0, none, none, none, none, some (0.0 / 0.0)], 0.0 / 0.0) ∧
      (kept.map fun line => line.target .x) =
        [none, some 1.0, none, none, none, none, some (0.0 / 0.0)] ∧
      (left.map fun line => line.target .x) = (kept.map fun line => line.target .x) ∧
      last.position .x = after.position .x := by
  intro move heat lines kept after second others left last
  have success : Tuning.permissive.reduceAll {} lines = .ok (after, kept) := by decide +kernel
  have again : Tuning.permissive.reduceAll second others = .ok (last, left) := by decide +kernel
  obtain ⟨filtered, hence⟩ := axes_filtered .permissive {} after lines kept success .x
  have same := hence second last others left again rfl (by decide +kernel) (by decide +kernel)
  have words : (kept.map fun line => line.target .x) =
      [none, some 1.0, none, none, none, none, some (0.0 / 0.0)] := by decide +kernel
  refine ⟨success, again, ?_, words, same⟩
  rw [← words]
  exact filtered

end Tuning

end Toolpath
