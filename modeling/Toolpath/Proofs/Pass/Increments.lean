import Mathlib
import Toolpath.Proofs.Pass.Survivors
import Toolpath.Proofs.Reduce.Extrusion
import Toolpath.Proofs.Reduce.Stability

/-! # Increments add up

While E words are increments each one counts, whether it is kept, dropped from its line, or dropped
together with its line. So as long as no line switches E words to positions, the extruder position
is the sum of the increments of all moves, taken in order from where the extruder stood. The sum
speaks of the lines alone: no tuning has a say in it.
-/

namespace Toolpath

namespace Line

/-- The E word of a linear move; an E word of any other line moves no extruder. -/
def increment (line : Line) : Option Float :=
  if line.command = some .rapidMove ∨ line.command = some .linearMove then line.e else none

theorem increment_eq (line : Line) :
    line.increment = if line.action = .move then line.e else none := by
  simp only [increment, action_eq_move_iff]

end Line

namespace Ledger

variable (tuning : Tuning) {ledger : Ledger}

/-- A line enters its increment, and no more than that, into a ledger of increments. -/
theorem counted_take (relative : ledger.relative = true) {line : Line}
    (steady : line.action ≠ .extrusion false) :
    (ledger.take tuning line).relative = true ∧
      (ledger.take tuning line).counted =
        line.increment.toList.foldl (· + ·) ledger.counted := by
  rw [Line.increment_eq, take]
  cases action : line.action with
  | move =>
    rw [if_pos rfl]
    cases line.e with
    | none => exact ⟨relative, rfl⟩
    | some value =>
      rw [Option.elim_some, enter, if_pos relative]
      exact ⟨relative, List.foldl_concat ..⟩
  | extrusion switch =>
    cases switch with
    | true => exact ⟨rfl, rfl⟩
    | false => exact absurd action steady
  | home | positioning _ | unknown => exact ⟨relative, rfl⟩

/-- A ledger of increments counts the increments of the lines, as long as E words stay
increments. -/
theorem counted_takeAll (relative : ledger.relative = true) {lines : List Line}
    (steady : ∀ line ∈ lines, line.action ≠ .extrusion false) :
    (ledger.takeAll tuning lines).counted =
      (lines.filterMap Line.increment).foldl (· + ·) ledger.counted := by
  rw [List.filterMap_eq_flatMap_toList]
  induction lines generalizing ledger with
  | nil => rfl
  | cons line lines ih =>
    obtain ⟨first, others⟩ := List.forall_mem_cons.mp steady
    obtain ⟨still, counted⟩ := counted_take tuning relative first
    rw [List.flatMap_cons, List.foldl_append, ← counted]
    exact ih still others

end Ledger

namespace Tuning

/-- A successful pass over lines that keep E words increments ends with the sum of the increments. -/
theorem extruded_runLines {tuning : Tuning} {machine : Machine}
    (relative : machine.relativeExtrusion = true) {raws : List String} {lines : List Line}
    (reads : Line.Reads raws lines) (steady : ∀ line ∈ lines, line.action ≠ .extrusion false)
    (success : (tuning.runLines machine raws).fault = none) :
    (tuning.runLines machine raws).machine.extruded =
      (lines.filterMap Line.increment).foldl (· + ·) machine.extruded := by
  obtain ⟨others, kept, again, reduced, -⟩ := runLines_cases success
  obtain rfl := reads.unique again
  have start : (Ledger.start machine).Accounts tuning machine machine machine :=
    Ledger.accounts_start (by simp [relative])
  rw [(start.run reduced).trackedAt, Ledger.counted_takeAll tuning relative steady]
  rfl

/-- While E words are increments, a pass that no line makes take them for positions ends with the
increments of all moves added up in order, whichever of them were dropped. Every other tuning under
which the pass succeeds ends with the same sum. -/
theorem increments_add_up (tuning : Tuning) (machine : Machine)
    (relative : machine.relativeExtrusion = true) (text : String)
    (steady : ∀ raw ∈ Lines.ofString text,
      (Line.read raw).map Line.command ≠ .ok (some .absoluteExtrusion))
    (success : (tuning.run machine text).fault = none) :
    ∃ lines, Line.Reads (Lines.ofString text) lines ∧
      (tuning.run machine text).machine.extruded =
        (lines.filterMap Line.increment).foldl (· + ·) machine.extruded ∧
      ∀ other : Tuning, (other.run machine text).fault = none →
        (other.run machine text).machine.extruded = (tuning.run machine text).machine.extruded := by
  obtain ⟨lines, _, reads, -, -⟩ := runLines_cases success
  have steadyLines : ∀ line ∈ lines, line.action ≠ .extrusion false := by
    refine reads.forall_mem ?_
    intro raw member line outcome
    rw [Ne, Line.action_eq_extrusion_false_iff]
    intro switches
    apply steady raw member
    rw [outcome, Except.map, switches]
  have sum := extruded_runLines relative reads steadyLines success
  refine ⟨lines, reads, sum, ?_⟩
  intro other again
  exact (extruded_runLines relative reads steadyLines again).trans sum.symm

/-- An increment that is dropped from its line, one that is dropped together with its line, and an E
word of a command that moves nothing. The coarser tuning drops every move. -/
theorem increments_add_up_dropped :
    let machine : Machine := { relativeExtrusion := true, extruded := 0.5 }
    let text := "G28\nM83\nG1 X1 E.0004\nM104 S2 E5 ; heat\ng0 x1 e.0004\nG1 E2\n"
    let first := Tuning.permissive.run machine text
    let second := Tuning.run { Tuning.permissive with threshold := 3.0 } machine text
    machine.relativeExtrusion = true ∧
      (∀ raw ∈ Lines.ofString text,
        (Line.read raw).map Line.command ≠ .ok (some .absoluteExtrusion)) ∧
      first.fault = none ∧ second.fault = none ∧
      (∃ lines, Line.Reads (Lines.ofString text) lines ∧
        first.machine.extruded =
          (lines.filterMap Line.increment).foldl (· + ·) machine.extruded) ∧
      second.machine.extruded = first.machine.extruded := by
  intro machine text first second
  have steady : ∀ raw ∈ Lines.ofString text,
      (Line.read raw).map Line.command ≠ .ok (some .absoluteExtrusion) := by decide +kernel
  have success : first.fault = none := by decide +kernel
  have again : second.fault = none := by decide +kernel
  obtain ⟨lines, reads, sum, every⟩ := increments_add_up .permissive machine rfl text steady success
  exact ⟨rfl, steady, success, again, ⟨lines, reads, sum⟩, every _ again⟩

end Tuning

end Toolpath
