import Mathlib
import Toolpath.Composer
import Toolpath.Proofs.Reduce.Redundancy

/-! # The reference of E words follows the mode

In a coherent machine the reference of E words is what the mode asks for: zero while E words are
increments, and the extruder position while they are positions. Whatever is done with a coherent
machine, whether it is accepted or refused, leaves a coherent machine, and a machine that has been
homed once stays homed. Lines can be reduced under a different tuning each time, between the orders
of a composer.
-/

namespace Toolpath

namespace Machine

/-- The reference of E words is what the mode asks for. -/
structure Coherent (machine : Machine) : Prop where
  increments : machine.relativeExtrusion = true → machine.e = 0.0
  positions : machine.relativeExtrusion = false → machine.e = machine.extruded

theorem coherent_start : Coherent {} := ⟨nofun, fun _ => rfl⟩

theorem coherent_setRelativeExtrusion (machine : Machine) (on : Bool) :
    (machine.setRelativeExtrusion on).Coherent := by
  cases on with
  | true => exact ⟨fun _ => rfl, nofun⟩
  | false => exact ⟨nofun, fun _ => rfl⟩

/-- A line other than a move leaves a coherent machine: a switch of the mode sets the reference, and
the others change nothing about E words. -/
theorem Coherent.follow {machine : Machine} (coherent : machine.Coherent) {line : Line}
    (other : line.action ≠ .move) : (machine.follow line).Coherent := by
  rw [Machine.follow]
  cases action : line.action with
  | move => exact absurd action other
  | extrusion relative => exact machine.coherent_setRelativeExtrusion relative
  | home | positioning _ | unknown => exact ⟨coherent.increments, coherent.positions⟩

/-- No line takes homing back. -/
theorem homed_follow {machine : Machine} (homed : machine.homed = true) (line : Line) :
    (machine.follow line).homed = true := by
  rw [Machine.follow]
  cases line.action with
  | home => rfl
  | move | extrusion _ | positioning _ | unknown => exact homed

end Machine

namespace Tuning

/-- A move leaves a coherent machine: an increment does not touch the reference, and a position that
is kept becomes the reference and the extruder position alike. -/
theorem coherent_afterMove (tuning : Tuning) {machine : Machine} (coherent : machine.Coherent)
    (line : Line) : (tuning.afterMove machine line).Coherent := by
  have same := (tuning.sameModes_afterMove machine line).relativeExtrusion
  constructor
  · intro relative
    rw [same] at relative
    simp only [afterMove, reduceMove, keepExtrusion_eq, if_pos relative]
    exact coherent.increments relative
  · intro absolute
    rw [same] at absolute
    simp only [afterMove, reduceMove, keepExtrusion_eq, absolute, Bool.false_eq_true, if_false]
    rw [coherent.positions absolute]

/-- Reducing a line leaves a coherent machine, also if the line is refused. -/
theorem coherent_reduce (tuning : Tuning) {machine : Machine} (coherent : machine.Coherent)
    (line : Line) : (tuning.reduce machine line).machine.Coherent := by
  by_cases accepts : tuning.Accepts machine line
  · by_cases move : line.action = .move
    · rw [accepts.reduce_move move]
      exact tuning.coherent_afterMove coherent line
    · rw [accepts.reduce_other move]
      exact coherent.follow move
  · rw [(reduce_of_refusal accepts).1]
    exact coherent

/-- Reducing a line does not take homing back. -/
theorem homed_reduce (tuning : Tuning) {machine : Machine} (homed : machine.homed = true)
    (line : Line) : (tuning.reduce machine line).machine.homed = true := by
  by_cases accepts : tuning.Accepts machine line
  · by_cases move : line.action = .move
    · rw [accepts.reduce_move move, (tuning.sameModes_afterMove machine line).homed]
      exact homed
    · rw [accepts.reduce_other move]
      exact Machine.homed_follow homed line
  · rw [(reduce_of_refusal accepts).1]
    exact homed

end Tuning

namespace Composer

/-- Something that is done with the machine of a composer: a line is reduced under some tuning, or
the composer carries out an order. -/
inductive Call where
  | reduce (tuning : Tuning) (line : Line)
  | order (order : Order)
  deriving DecidableEq, Repr

/-- Does one thing, whether it succeeds or not. -/
def call (composer : Composer) : Call → Composer
  | .reduce tuning line =>
    { composer with machine := (tuning.reduce composer.machine line).machine }
  | .order order => (composer.carryOut order).composer

/-- Does things in order. -/
def callAll (composer : Composer) (calls : List Call) : Composer := calls.foldl call composer

theorem callAll_append (composer : Composer) (first second : List Call) :
    composer.callAll (first ++ second) = (composer.callAll first).callAll second :=
  List.foldl_append

/-- Adding a line leaves the machine that reducing the line leaves. -/
theorem machine_add (composer : Composer) (line : Line) :
    (composer.add line).composer.machine =
      (composer.tuning.reduce composer.machine line).machine := by
  rw [add]
  cases (composer.tuning.reduce composer.machine line).fault <;> rfl

/-- Carrying out an order is adding a line, unless it is a print while E words are positions. -/
theorem carryOut_cases (composer : Composer) (order : Order) :
    (∃ line, composer.carryOut order = composer.add line) ∨
      composer.carryOut order =
        { composer, fault := some (.unsupported .absoluteExtrusionPrintMove) } := by
  cases order with
  | print x y z feedrate =>
    rw [carryOut]
    split_ifs
    · exact .inl ⟨_, rfl⟩
    · exact .inr rfl
  | home | relativeExtrusion | comment _ | line _ | travel _ _ _ _ => exact .inl ⟨_, rfl⟩

/-- An order leaves the machine that reducing one line leaves, or changes nothing. -/
theorem machine_carryOut (composer : Composer) (order : Order) :
    (∃ line, (composer.carryOut order).composer.machine =
      (composer.tuning.reduce composer.machine line).machine) ∨
      (composer.carryOut order).composer.machine = composer.machine := by
  obtain ⟨line, same⟩ | same := composer.carryOut_cases order
  · rw [same]
    exact .inl ⟨line, composer.machine_add line⟩
  · rw [same]
    exact .inr rfl

/-- A property that reducing a line keeps is kept by whatever is done with the machine. -/
theorem call_induction {motive : Machine → Prop}
    (step : ∀ (tuning : Tuning) (machine : Machine), motive machine →
      ∀ line, motive (tuning.reduce machine line).machine)
    {composer : Composer} (holds : motive composer.machine) (calls : List Call) :
    motive (composer.callAll calls).machine := by
  induction calls generalizing composer with
  | nil => exact holds
  | cons first calls ih =>
    apply ih
    cases first with
    | reduce tuning line => exact step tuning composer.machine holds line
    | order order =>
      change motive (composer.carryOut order).composer.machine
      obtain ⟨line, same⟩ | same := composer.machine_carryOut order
      · rw [same]
        exact step composer.tuning composer.machine holds line
      · rw [same]
        exact holds

/-- A machine starts coherent, and stays coherent whatever is done with it, and once it has been
homed it stays homed. -/
theorem coherent_callAll :
    Machine.Coherent {} ∧
      (∀ (composer : Composer) (calls : List Call), composer.machine.Coherent →
        (composer.callAll calls).machine.Coherent) ∧
      ∀ (composer : Composer) (first second : List Call),
        (composer.callAll first).machine.homed = true →
          (composer.callAll (first ++ second)).machine.homed = true := by
  refine ⟨Machine.coherent_start, ?_, ?_⟩
  · intro composer calls coherent
    exact call_induction (motive := Machine.Coherent)
      (fun tuning _ => tuning.coherent_reduce) coherent calls
  · intro composer first second homed
    rw [callAll_append]
    exact call_induction (motive := fun machine => machine.homed = true)
      (fun tuning _ => tuning.homed_reduce) homed second

/-- Positions, increments and a refused order, with a line under another tuning in between. -/
theorem coherent_callAll_modes_mixed :
    let position : Call := .order (.line { command := some .linearMove, e := some 2.0 })
    let increment : Call := .reduce .standard { command := some .linearMove, e := some 0.0005 }
    let first : List Call := [.order .home, .order (.print 1.0 0.0 none none), position]
    let second : List Call :=
      [.order .relativeExtrusion, increment, .reduce .standard (.ofCommand .absoluteExtrusion)]
    Machine.Coherent ({} : Composer).machine ∧
      (({} : Composer).callAll first).machine.homed = true ∧
      (({} : Composer).callAll (first ++ second)).machine.e = 2.0005 ∧
      (({} : Composer).callAll (first ++ second)).machine.Coherent ∧
      (({} : Composer).callAll (first ++ second)).machine.homed = true := by
  intro position increment first second
  have homed : (({} : Composer).callAll first).machine.homed = true := by decide +kernel
  exact ⟨Machine.coherent_start, homed, by decide +kernel,
    coherent_callAll.2.1 {} _ Machine.coherent_start, coherent_callAll.2.2 {} first second homed⟩

end Composer

end Toolpath
