import Mathlib
import Toolpath.Proofs.Reduce.Acceptance

/-! # What reducing lines does to the extruder

A ledger keeps the E words of a program apart: the position that the extruder was last sent to, the
increments since, and a later position that was not worth a word. It tells where three machines have
their extruder: the one that carries out all lines, the one that is tracked, and the one that
carries out what is left of the lines. Increments too small to keep are counted but not carried out,
so the last machine falls behind by all of them; without such increments the machines stay together.
-/

namespace Toolpath

/-- The E words of the lines so far. -/
structure Ledger where
  /-- Whether E words are increments. -/
  relative : Bool
  /-- The position that the extruder was last sent to by a word that is kept, or its start. -/
  base : Float
  /-- The increments since, in order. -/
  increments : List Float := []
  /-- The last position since that was too near to keep, and the increments since that. -/
  dropped : Option (Float × List Float) := none
  deriving DecidableEq, Repr

namespace Ledger

/-- Where the extruder is when every increment counts. -/
def counted (ledger : Ledger) : Float := ledger.increments.foldl (· + ·) ledger.base

/-- Where the extruder is when only the increments count that are not near zero. -/
def survived (tuning : Tuning) (ledger : Ledger) : Float :=
  (ledger.increments.filter fun value => !tuning.near value 0.0).foldl (· + ·) ledger.base

/-- Where the extruder is when every word counts. -/
def commanded (ledger : Ledger) : Float :=
  ledger.dropped.elim ledger.counted fun word => word.2.foldl (· + ·) word.1

/-- Enters an E word. -/
def enter (tuning : Tuning) (ledger : Ledger) (value : Float) : Ledger :=
  if ledger.relative then
    { ledger with
      increments := ledger.increments ++ [value]
      dropped := ledger.dropped.map fun word => (word.1, word.2 ++ [value]) }
  else if tuning.near value ledger.counted then { ledger with dropped := some (value, []) }
  else { ledger with base := value, increments := [], dropped := none }

/-- Enters what a line says about the extruder. -/
def take (tuning : Tuning) (ledger : Ledger) (line : Line) : Ledger :=
  match line.action with
  | .move => line.e.elim ledger (ledger.enter tuning)
  | .extrusion relative => { ledger with relative }
  | .home | .positioning _ | .unknown => ledger

/-- The ledger of a machine that starts. -/
def start (machine : Machine) : Ledger :=
  { relative := machine.relativeExtrusion, base := machine.extruded }

/-- The ledger after lines in order. -/
def takeAll (tuning : Tuning) (ledger : Ledger) (lines : List Line) : Ledger :=
  lines.foldl (take tuning) ledger

/-- No increment was too small to keep, and none came after a position that was too near to keep. -/
structure Clean (tuning : Tuning) (ledger : Ledger) : Prop where
  increments : ∀ value ∈ ledger.increments, tuning.near value 0.0 = false
  dropped : ∀ word ∈ ledger.dropped, word.2 = []

/-- The ledger tells where three machines have their extruder. -/
structure Accounts (tuning : Tuning) (ledger : Ledger)
    (commanded tracked surviving : Machine) : Prop where
  commandedAt : commanded.extruded = ledger.commanded
  trackedAt : tracked.extruded = ledger.counted
  survivingAt : surviving.extruded = ledger.survived tuning
  commandedMode : commanded.relativeExtrusion = ledger.relative
  trackedMode : tracked.relativeExtrusion = ledger.relative
  survivingMode : surviving.relativeExtrusion = ledger.relative
  reference : ledger.relative = false → tracked.e = tracked.extruded
  droppedNear : ∀ value, ledger.dropped = some (value, []) →
    tuning.near value ledger.counted = true

/-- With a clean ledger the positions are equal or near. -/
theorem Clean.near {tuning : Tuning} {ledger : Ledger} {commanded tracked surviving : Machine}
    (clean : ledger.Clean tuning) (accounts : ledger.Accounts tuning commanded tracked surviving) :
    commanded.extruded = surviving.extruded ∨
      tuning.near commanded.extruded surviving.extruded = true := by
  have all : ledger.increments.filter (fun value => !tuning.near value 0.0) =
      ledger.increments := by
    apply List.filter_eq_self.mpr
    intro value member
    rw [clean.increments value member]
    rfl
  have survived : ledger.survived tuning = ledger.counted := by rw [Ledger.survived, all, counted]
  rw [accounts.commandedAt, accounts.survivingAt, survived, Ledger.commanded]
  cases shape : ledger.dropped with
  | none => exact .inl rfl
  | some word =>
    obtain ⟨value, since⟩ := word
    obtain rfl : since = [] := clean.dropped (value, since) shape
    exact .inr (accounts.droppedNear value shape)

section Enter

variable {tuning : Tuning} {ledger : Ledger} {value : Float}

private theorem enter_relative (relative : ledger.relative = true) :
    (ledger.enter tuning value).counted = ledger.counted + value ∧
      (ledger.enter tuning value).commanded = ledger.commanded + value ∧
      (ledger.enter tuning value).survived tuning =
        if tuning.near value 0.0 then ledger.survived tuning
        else ledger.survived tuning + value := by
  rw [enter, if_pos relative]
  refine ⟨List.foldl_concat .., ?_, ?_⟩
  · cases shape : ledger.dropped with
    | none =>
      simp only [commanded, shape, Option.map_none, Option.elim_none, counted, List.foldl_concat]
    | some word =>
      simp only [commanded, shape, Option.map_some, Option.elim_some, List.foldl_concat]
  · cases near : tuning.near value 0.0 <;> simp [survived, near]

private theorem enter_near (absolute : ledger.relative = false)
    (near : tuning.near value ledger.counted = true) :
    ledger.enter tuning value = { ledger with dropped := some (value, []) } := by
  simp [enter, absolute, near]

private theorem enter_far (absolute : ledger.relative = false)
    (far : tuning.near value ledger.counted = false) :
    ledger.enter tuning value =
      { ledger with base := value, increments := [], dropped := none } := by
  simp [enter, absolute, far]

@[simp] private theorem relative_enter :
    (ledger.enter tuning value).relative = ledger.relative := by
  rw [enter]
  split_ifs <;> rfl

end Enter

section Step

variable {tuning : Tuning} {ledger : Ledger} {commanded tracked surviving : Machine}
  (accounts : ledger.Accounts tuning commanded tracked surviving)
include accounts

/-- One E word of a move, carried out, tracked, and carried out if it is kept. -/
private theorem Accounts.enter {line : Line} {value : Float} (word : line.e = some value) :
    (ledger.enter tuning value).Accounts tuning
      (commanded.move line) (tuning.afterMove tracked line)
      (surviving.move (tuning.keptWords tracked line)) := by
  have trackedMode := accounts.trackedMode
  have after : (tuning.afterMove tracked line).extruded =
      (tuning.keepExtrusion tracked line.e).2.extruded ∧
      (tuning.afterMove tracked line).e = (tuning.keepExtrusion tracked line.e).2.e ∧
      (tuning.afterMove tracked line).relativeExtrusion =
        (tuning.keepExtrusion tracked line.e).2.relativeExtrusion :=
    ⟨rfl, rfl, rfl⟩
  have left : (tuning.keptWords tracked line).e = (tuning.keepExtrusion tracked line.e).1 := rfl
  rw [word] at after left
  cases relative : ledger.relative with
  | true =>
    rw [relative] at trackedMode
    obtain ⟨counted, all, survived⟩ := @enter_relative tuning ledger value relative
    simp only [Tuning.keepExtrusion, trackedMode, if_true] at after left
    constructor
    case commandedAt =>
      simp [Machine.move, accounts.commandedMode, relative, word, all, accounts.commandedAt]
    case trackedAt => rw [after.1, counted, accounts.trackedAt]
    case survivingAt =>
      rw [survived]
      cases near : tuning.near value 0.0 <;>
        simp [Machine.move, accounts.survivingMode, relative, left, near, accounts.survivingAt]
    case commandedMode =>
      rw [relative_enter]
      exact accounts.commandedMode
    case trackedMode => rw [relative_enter, after.2.2, relative]
    case survivingMode =>
      rw [relative_enter]
      exact accounts.survivingMode
    case reference =>
      intro absolute
      rw [relative_enter, relative] at absolute
      contradiction
    case droppedNear =>
      intro other same
      rw [Ledger.enter, if_pos relative] at same
      simp at same
  | false =>
    rw [relative] at trackedMode
    have reference : tracked.e = ledger.counted :=
      (accounts.reference relative).trans accounts.trackedAt
    simp only [Tuning.keepExtrusion, trackedMode, Bool.false_eq_true, if_false, reference]
      at after left
    cases near : tuning.near value ledger.counted with
    | true =>
      rw [enter_near relative near]
      simp only [near, if_true] at after left
      constructor
      case commandedAt =>
        simp [Machine.move, accounts.commandedMode, relative, word, Ledger.commanded]
      case trackedAt =>
        rw [after.1, accounts.trackedAt]
        rfl
      case survivingAt =>
        simp only [Machine.move, accounts.survivingMode, relative, left, Bool.false_eq_true,
          if_false, Option.getD_none]
        exact accounts.survivingAt
      case commandedMode => exact accounts.commandedMode
      case trackedMode => exact after.2.2.trans accounts.trackedMode
      case survivingMode => exact accounts.survivingMode
      case reference =>
        intro _
        rw [after.1, after.2.1]
        exact accounts.reference relative
      case droppedNear =>
        intro other same
        obtain ⟨rfl, -⟩ := Prod.mk.inj (Option.some.inj same)
        exact near
    | false =>
      rw [enter_far relative near]
      simp only [near, Bool.false_eq_true, if_false] at after left
      constructor
      case commandedAt =>
        simp [Machine.move, accounts.commandedMode, relative, word, Ledger.commanded, counted]
      case trackedAt => exact after.1
      case survivingAt => simp [Machine.move, accounts.survivingMode, relative, left, survived]
      case commandedMode => exact accounts.commandedMode
      case trackedMode => exact after.2.2.trans relative.symm
      case survivingMode => exact accounts.survivingMode
      case reference =>
        intro _
        rw [after.1, after.2.1]
      case droppedNear =>
        intro other same
        contradiction

/-- A move without an E word changes nothing about the extruder. -/
private theorem Accounts.still {line : Line} (word : line.e = none) :
    ledger.Accounts tuning (commanded.move line) (tuning.afterMove tracked line)
      (surviving.move (tuning.keptWords tracked line)) := by
  have after : (tuning.afterMove tracked line).extruded = tracked.extruded ∧
      (tuning.afterMove tracked line).e = tracked.e ∧
      (tuning.afterMove tracked line).relativeExtrusion = tracked.relativeExtrusion := by
    simp [Tuning.afterMove, Tuning.reduceMove, Tuning.keepExtrusion, word]
  have left : (tuning.keptWords tracked line).e = none := by
    simp [Tuning.keptWords, Tuning.keepExtrusion, word]
  obtain ⟨position, reference, mode⟩ := after
  constructor
  case commandedAt => simp [Machine.move, word, accounts.commandedAt]
  case trackedAt => exact position.trans accounts.trackedAt
  case survivingAt => simp [Machine.move, left, accounts.survivingAt]
  case commandedMode => exact accounts.commandedMode
  case trackedMode => exact mode.trans accounts.trackedMode
  case survivingMode => exact accounts.survivingMode
  case reference =>
    intro absolute
    rw [position, reference, accounts.reference absolute]
  case droppedNear => exact accounts.droppedNear

/-- One accepted line keeps the ledger true. -/
theorem Accounts.step {line : Line} (accepts : tuning.Accepts tracked line) :
    (ledger.take tuning line).Accounts tuning
      (commanded.follow line) (tuning.reduce tracked line).machine
      (surviving.follow (tuning.reduce tracked line).line) := by
  by_cases move : line.action = .move
  · rw [accepts.reduce_move move, Machine.follow_of_move move, take, move]
    simp only [Tuning.follow_reduceMove tuning tracked surviving move]
    cases word : line.e with
    | none => exact accounts.still word
    | some value => exact accounts.enter word
  · rw [accepts.reduce_other move, Tuning.follow_strip, take]
    simp only [Machine.follow]
    generalize line.action = action at *
    obtain ⟨commandedAt, trackedAt, survivingAt, commandedMode, trackedMode, survivingMode,
        reference, droppedNear⟩ := accounts
    cases action with
    | move => contradiction
    | extrusion relative =>
      refine ⟨commandedAt, trackedAt, survivingAt, rfl, rfl, rfl, ?_, droppedNear⟩
      intro absolute
      obtain rfl : relative = false := absolute
      rfl
    | home | positioning _ | unknown =>
      exact ⟨commandedAt, trackedAt, survivingAt, commandedMode, trackedMode, survivingMode,
        reference, droppedNear⟩

/-- Accepted lines in order keep the ledger true. -/
theorem Accounts.run {after : Machine} {lines kept : List Line}
    (success : tuning.reduceAll tracked lines = .ok (after, kept)) :
    (ledger.takeAll tuning lines).Accounts tuning (commanded.followAll lines) after
      (surviving.followAll kept) := by
  induction lines generalizing ledger commanded tracked surviving kept with
  | nil =>
    obtain ⟨rfl, rfl⟩ := Prod.mk.inj (Except.ok.inj success)
    exact accounts
  | cons line lines ih =>
    obtain ⟨accepts, rest, later, rfl⟩ := Tuning.reduceAll_cons_eq_ok_iff.mp success
    exact ih (accounts.step accepts) later

end Step

theorem accounts_start {tuning : Tuning} {machine : Machine}
    (reference : machine.relativeExtrusion = false → machine.e = machine.extruded) :
    (start machine).Accounts tuning machine machine machine :=
  ⟨rfl, rfl, rfl, rfl, rfl, rfl, reference, nofun⟩

end Ledger

namespace Tuning

/-- The extruder after any number of accepted lines, from a machine whose reference is the extruder
position while E words are positions: the ledger of these lines tells where it is when all lines are
carried out, where it is tracked, and where it is when what is left of the lines is carried out; and
with a clean ledger the first and the last are equal or near. -/
theorem extruder_accounted (tuning : Tuning) (machine : Machine)
    (reference : machine.relativeExtrusion = false → machine.e = machine.extruded)
    (lines kept : List Line) (after : Machine)
    (success : tuning.reduceAll machine lines = .ok (after, kept)) (count : Nat) :
    let ledger := (Ledger.start machine).takeAll tuning (lines.take count)
    let commanded := (machine.followAll (lines.take count)).extruded
    let surviving := (machine.followAll (kept.take count)).extruded
    (∃ between, tuning.reduceAll machine (lines.take count) = .ok (between, kept.take count) ∧
      between.extruded = ledger.counted) ∧
    commanded = ledger.commanded ∧ surviving = ledger.survived tuning ∧
    (ledger.Clean tuning → commanded = surviving ∨ tuning.near commanded surviving = true) := by
  intro ledger commanded surviving
  obtain ⟨between, front⟩ := reduceAll_take success count
  have accounts := (Ledger.accounts_start reference).run front
  refine ⟨⟨between, front, accounts.trackedAt⟩, accounts.commandedAt, accounts.survivingAt, ?_⟩
  intro clean
  exact clean.near accounts

/-- A position that is too near to keep. -/
theorem extruder_accounted_dropped_position :
    let position : Float → Line := fun value => { command := some .linearMove, e := some value }
    let machine : Machine := { homed := true }
    Tuning.standard.reduceAll machine [position 1.0, position 1.0005] =
        .ok ({ machine with e := 1.0, extruded := 1.0 }, [position 1.0, .blank]) ∧
      ((machine.followAll [position 1.0, position 1.0005]).extruded =
          (machine.followAll [position 1.0, .blank]).extruded ∨
        Tuning.standard.near (machine.followAll [position 1.0, position 1.0005]).extruded
          (machine.followAll [position 1.0, .blank]).extruded = true) := by
  intro position machine
  have success : Tuning.standard.reduceAll machine [position 1.0, position 1.0005] =
      .ok ({ machine with e := 1.0, extruded := 1.0 }, [position 1.0, .blank]) := by decide +kernel
  have ledger : (Ledger.start machine).takeAll .standard [position 1.0, position 1.0005] =
      { relative := false, base := 1.0, dropped := some (1.0005, []) } := by decide +kernel
  have accounted := extruder_accounted .standard machine (by decide +kernel) _ _ _ success 2
  refine ⟨success, accounted.2.2.2 ?_⟩
  rw [List.take_of_length_le (Nat.le_refl 2), ledger]
  refine ⟨List.forall_mem_nil _, ?_⟩
  intro word held
  rw [← Option.some.inj held]

/-- The extruder is not preserved by lines whose increments are all too small to keep. -/
theorem extruder_not_preserved :
    ¬ ∀ (tuning : Tuning) (machine : Machine) (lines kept : List Line) (after : Machine),
      (machine.relativeExtrusion = false → machine.e = machine.extruded) →
      tuning.reduceAll machine lines = .ok (after, kept) →
      (machine.followAll lines).extruded = (machine.followAll kept).extruded ∨
        tuning.near (machine.followAll lines).extruded (machine.followAll kept).extruded := by
  intro preserved
  let increment : Line := { command := some .linearMove, e := some 0.0009 }
  have apart := preserved .standard { homed := true, relativeExtrusion := true }
    [increment, increment] [.blank, .blank]
    { homed := true, relativeExtrusion := true, extruded := 0.0018 } nofun (by decide +kernel)
  exact absurd apart (by decide +kernel)

-- An increment after a dropped position can be rounded differently from where the extruder is.
example :
    let position : Line := { command := some .linearMove, e := some 0.00099 }
    let increment : Line := { command := some .linearMove, e := some 1e13 }
    let lines := [position, .ofCommand .relativeExtrusion, increment]
    let kept := [.blank, .ofCommand .relativeExtrusion, increment]
    let machine : Machine := { homed := true }
    (Tuning.standard.reduceAll machine lines).map (·.2) = .ok kept ∧
      Tuning.standard.near (machine.followAll lines).extruded (machine.followAll kept).extruded =
        false := by
  decide +kernel

end Tuning

end Toolpath
