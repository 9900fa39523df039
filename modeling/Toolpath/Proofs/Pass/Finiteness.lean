import Mathlib
import Toolpath.Proofs.Decimal.Nearness
import Toolpath.Proofs.Machine.Document
import Toolpath.Proofs.Pass.Survivors
import Toolpath.Proofs.Reduce.Redundancy

/-! # Where a pass leaves the finite numbers

A pass tracks whatever number a word has, so the tracked machine is finite after every line exactly
if each move has finite words and no increment takes the extruder beyond the finite numbers. A word
that is dropped is near a tracked value, and only finite numbers are near one another. What is no
longer finite can be saved, but what was saved is refused afterwards, by every lawful library.
-/

namespace Toolpath

namespace Machine

theorem isFinite_iff {machine : Machine} :
    machine.isFinite = true ↔
      (machine.x.isFinite = true ∧ machine.y.isFinite = true ∧ machine.z.isFinite = true) ∧
        (machine.e.isFinite = true ∧ machine.extruded.isFinite = true) ∧
        machine.feedrate.isFinite = true := by
  simp [isFinite, Key.all, get, Scalar.isFinite, and_assoc]

/-- A move that keeps the machine within the finite numbers: its words are finite, and so is the
extruder position that its E word leads to. -/
structure Bears (machine : Machine) (line : Line) : Prop where
  x : ∀ value ∈ line.x, value.isFinite = true
  y : ∀ value ∈ line.y, value.isFinite = true
  z : ∀ value ∈ line.z, value.isFinite = true
  e : ∀ value ∈ line.e,
    (if machine.relativeExtrusion then machine.extruded + value else value).isFinite = true
  feedrate : line.hasFeedrate = true → line.feedrate.isFinite = true

theorem bears_iff {machine : Machine} {line : Line} :
    machine.Bears line ↔
      ((∀ value ∈ line.x, value.isFinite = true) ∧ (∀ value ∈ line.y, value.isFinite = true) ∧
        ∀ value ∈ line.z, value.isFinite = true) ∧
      (∀ value ∈ line.e, (if machine.relativeExtrusion then machine.extruded + value
        else value).isFinite = true) ∧
      (line.hasFeedrate = true → line.feedrate.isFinite = true) := by
  constructor
  · rintro ⟨x, y, z, e, feedrate⟩
    exact ⟨⟨x, y, z⟩, e, feedrate⟩
  · rintro ⟨⟨x, y, z⟩, e, feedrate⟩
    exact ⟨x, y, z, e, feedrate⟩

instance (machine : Machine) (line : Line) : Decidable (machine.Bears line) :=
  decidable_of_iff _ bears_iff.symm

/-- Homing and the mode commands track no new numbers. -/
theorem isFinite_follow {machine : Machine} (finite : machine.isFinite = true) {line : Line}
    (other : line.action ≠ .move) : (machine.follow line).isFinite = true := by
  have zero : (0.0 : Float).isFinite = true := by decide +kernel
  obtain ⟨⟨x, y, z⟩, ⟨e, extruded⟩, feedrate⟩ := isFinite_iff.mp finite
  rw [follow]
  cases action : line.action with
  | move => exact absurd action other
  | home => exact isFinite_iff.mpr ⟨⟨zero, zero, zero⟩, ⟨e, extruded⟩, feedrate⟩
  | extrusion relative =>
    cases relative with
    | true => exact isFinite_iff.mpr ⟨⟨x, y, z⟩, ⟨zero, extruded⟩, feedrate⟩
    | false => exact isFinite_iff.mpr ⟨⟨x, y, z⟩, ⟨extruded, extruded⟩, feedrate⟩
  | positioning _ | unknown => exact finite

end Machine

namespace Tuning

variable {tuning : Tuning}

/-- The value that is tracked after a word is finite exactly if the word is. -/
private theorem isFinite_getD_noticed {tracked : Float} (finite : tracked.isFinite = true)
    (word : Option Float) :
    ((tuning.noticed word tracked).getD tracked).isFinite = true ↔
      ∀ value ∈ word, value.isFinite = true := by
  cases word with
  | none => simp [noticed, finite]
  | some value =>
    rw [noticed_some]
    split_ifs with near
    · simp [finite, (isFinite_of_near near).1]
    · simp

private theorem isFinite_keepExtrusion {machine : Machine} (e : machine.e.isFinite = true)
    (extruded : machine.extruded.isFinite = true) (word : Option Float) :
    (tuning.keepExtrusion machine word).2.e.isFinite = true ∧
        (tuning.keepExtrusion machine word).2.extruded.isFinite = true ↔
      ∀ value ∈ word, (if machine.relativeExtrusion then machine.extruded + value
        else value).isFinite = true := by
  cases word with
  | none => simp [keepExtrusion, e, extruded]
  | some value =>
    by_cases relative : machine.relativeExtrusion = true
    · simp [keepExtrusion, relative, e]
    · by_cases near : tuning.near value machine.e = true
      · simp [keepExtrusion, relative, near, e, extruded, (isFinite_of_near near).1]
      · simp [keepExtrusion, relative, near]

private theorem isFinite_tracked_feedrate {machine : Machine}
    (finite : machine.feedrate.isFinite = true) (line : Line) :
    (if tuning.keepsFeedrate machine line then line.feedrate else machine.feedrate).isFinite = true ↔
      (line.hasFeedrate = true → line.feedrate.isFinite = true) := by
  rw [keepsFeedrate]
  cases line.hasFeedrate with
  | false => simp [finite]
  | true =>
    cases near : tuning.near line.feedrate machine.feedrate with
    | false => simp
    | true => simp [finite, (isFinite_of_near near).1]

/-- A move leaves a finite machine finite exactly if it bears the move. -/
private theorem isFinite_afterMove {machine : Machine} (finite : machine.isFinite = true)
    (line : Line) : (tuning.afterMove machine line).isFinite = true ↔ machine.Bears line := by
  obtain ⟨⟨x, y, z⟩, ⟨e, extruded⟩, feedrate⟩ := Machine.isFinite_iff.mp finite
  have axis {tracked : Float} (known : tracked.isFinite = true) (word : Option Float) :
      (tuning.keepAxis word tracked).2.isFinite = true ↔ ∀ value ∈ word, value.isFinite = true := by
    rw [keepAxis_eq]
    exact isFinite_getD_noticed known word
  have fields : (tuning.afterMove machine line).isFinite = true ↔
      ((tuning.keepAxis line.x machine.x).2.isFinite = true ∧
        (tuning.keepAxis line.y machine.y).2.isFinite = true ∧
        (tuning.keepAxis line.z machine.z).2.isFinite = true) ∧
      ((tuning.keepExtrusion machine line.e).2.e.isFinite = true ∧
        (tuning.keepExtrusion machine line.e).2.extruded.isFinite = true) ∧
      (if tuning.keepsFeedrate machine line then line.feedrate
        else machine.feedrate).isFinite = true := Machine.isFinite_iff
  rw [fields, axis x, axis y, axis z, isFinite_keepExtrusion e extruded,
    isFinite_tracked_feedrate feedrate, Machine.bears_iff]

/-- An accepted line leaves a finite machine finite, unless it is a move that the machine does not
bear. -/
theorem Accepts.isFinite_reduce {machine : Machine} {line : Line}
    (accepts : tuning.Accepts machine line) (finite : machine.isFinite = true) :
    (tuning.reduce machine line).machine.isFinite = true ↔
      (line.action = .move → machine.Bears line) := by
  by_cases move : line.action = .move
  · rw [accepts.reduce_move move, isFinite_afterMove finite]
    exact ⟨fun bears _ => bears, fun bears => bears move⟩
  · rw [accepts.reduce_other move]
    exact ⟨fun _ same => absurd same move, fun _ => Machine.isFinite_follow finite move⟩

/-- The machine after the first lines, and the line after them. -/
private theorem runLines_take_succ {machine : Machine} {raws : List String}
    (success : (tuning.runLines machine raws).fault = none) {count : Nat} {raw : String}
    (next : raws[count]? = some raw) :
    ∃ line, Line.read raw = .ok line ∧
      tuning.Accepts (tuning.runLines machine (raws.take count)).machine line ∧
      (tuning.runLines machine (raws.take (count + 1))).machine =
        (tuning.reduce (tuning.runLines machine (raws.take count)).machine line).machine := by
  have after := fault_runLines_take success (count + 1)
  have before := fault_runLines_take success count
  have split : tuning.runLines machine (raws.take (count + 1)) =
      (tuning.runLines machine (raws.take count)).feed tuning raw := by
    rw [List.take_add_one, next, Option.toList_some]
    exact Run.feedAll_append ..
  rw [split] at after ⊢
  obtain ⟨line, read, accepts, machine, -⟩ := Run.feed_cases before after
  exact ⟨line, read, accepts, machine⟩

/-- A pass that does not end early keeps a finite machine finite after each line exactly if the
machine bears each move when it comes. -/
theorem isFinite_runLines_iff {machine : Machine} {raws : List String}
    (finite : machine.isFinite = true) (success : (tuning.runLines machine raws).fault = none) :
    (∀ count, (tuning.runLines machine (raws.take count)).machine.isFinite = true) ↔
      ∀ count raw line, raws[count]? = some raw → Line.read raw = .ok line →
        line.action = .move → (tuning.runLines machine (raws.take count)).machine.Bears line := by
  constructor
  · intro always count raw line present read
    obtain ⟨other, again, accepts, next⟩ := runLines_take_succ success present
    obtain rfl : line = other := Except.ok.inj (read.symm.trans again)
    apply (accepts.isFinite_reduce (always count)).mp
    rw [← next]
    exact always (count + 1)
  · intro borne count
    induction count with
    | zero => exact finite
    | succ count ih =>
      cases present : raws[count]? with
      | none =>
        -- There are no more lines, so nothing more happens.
        rw [List.take_add_one, present, Option.toList_none, List.append_nil]
        exact ih
      | some raw =>
        obtain ⟨line, read, accepts, next⟩ := runLines_take_succ success present
        rw [next]
        exact (accepts.isFinite_reduce ih).mpr (borne count raw line present read)

/-- A pass that succeeds keeps a finite machine finite after each line exactly if the machine bears
each move when it comes. A machine that was saved can be read again exactly if it is finite, and
exactly the finite values are near themselves. -/
theorem finite_exactly_if_borne (library : JsonLibrary) (lawful : library.Lawful)
    (settings : Settings) {machine : Machine} {text : String} (finite : machine.isFinite = true)
    (success : (settings.resolve.run machine text).fault = none) :
    let lines := Lines.ofString text
    let after := fun count => (settings.resolve.runLines machine (lines.take count)).machine
    after lines.length = (settings.resolve.run machine text).machine ∧
      ((∀ count, (after count).isFinite = true) ↔
        ∀ count raw line, lines[count]? = some raw → Line.read raw = .ok line →
          line.action = .move → (after count).Bears line) ∧
      (∀ count, (library.readMachine? (library.pretty (after count).fields ++ "\n")).isSome =
        (after count).isFinite) ∧
      ∀ value, settings.resolve.near value value = value.isFinite := by
  intro lines after
  refine ⟨?_, isFinite_runLines_iff finite success, ?_, ?_⟩
  · simp only [after, List.take_length]
    rfl
  · intro count
    exact JsonLibrary.isSome_readMachine?_saved lawful _
  · intro value
    exact near_self settings.threshold_resolve.1 value

/-- An increment and a coordinate that the machine bears: every line leaves it finite, and what is
saved at the end can be read again. -/
theorem finite_exactly_if_borne_increment :
    let text := "G28\nM83\nG1 X1 E2\n"
    let final := ((Settings.resolve {}).run {} text).machine
    ((Settings.resolve {}).run {} text).fault = none ∧ final.isFinite = true ∧
      (JsonLibrary.precise.readMachine? (JsonLibrary.precise.pretty final.fields ++ "\n")).isSome =
        true := by
  intro text final
  have success : ((Settings.resolve {}).run {} text).fault = none := by decide +kernel
  obtain ⟨last, borne, saved, -⟩ :=
    finite_exactly_if_borne .precise JsonLibrary.lawful_precise {}
      (show Machine.isFinite {} = true by decide +kernel) success
  have lines : Lines.ofString text = ["G28", "M83", "G1 X1 E2"] := by decide +kernel
  have homing : Line.read "G28" = .ok (.ofCommand .home) := by decide +kernel
  have switching : Line.read "M83" = .ok (.ofCommand .relativeExtrusion) := by decide +kernel
  let moved : Line := { command := some .linearMove, x := some 1.0, e := some 2.0 }
  have moving : Line.read "G1 X1 E2" = .ok moved := by decide +kernel
  have finite : final.isFinite = true := by
    change ((Settings.resolve {}).run {} text).machine.isFinite = true
    rw [← last]
    apply borne.mpr
    intro count raw line present read move
    obtain ⟨rfl, rfl⟩ : count = 2 ∧ line = moved := by
      rw [lines] at present
      match count with
      | 0 =>
        obtain rfl := Option.some.inj present
        obtain rfl := Except.ok.inj (homing.symm.trans read)
        contradiction
      | 1 =>
        obtain rfl := Option.some.inj present
        obtain rfl := Except.ok.inj (switching.symm.trans read)
        contradiction
      | 2 =>
        obtain rfl := Option.some.inj present
        exact ⟨rfl, Except.ok.inj (read.symm.trans moving)⟩
      | _ + 3 => contradiction
    rw [lines]
    decide +kernel
  refine ⟨success, finite, ?_⟩
  have reread := saved (Lines.ofString text).length
  rw [last] at reread
  exact reread.trans finite

/-- A pass tracks a word that names no number. -/
theorem finite_not_kept :
    ¬ ∀ (settings : Settings) (machine : Machine) (text : String), machine.isFinite = true →
      (settings.resolve.run machine text).fault = none →
        (settings.resolve.run machine text).machine.isFinite = true := by
  intro kept
  have finite := kept {} {} "G28\nG1 Xnan\n" (by decide +kernel) (by decide +kernel)
  have lost : ((Settings.resolve {}).run {} "G28\nG1 Xnan\n").machine.isFinite = false := by
    decide +kernel
  rw [lost] at finite
  contradiction

-- The words need not be at fault: finite increments add up to infinity.
example :
    ((Settings.resolve {}).run {} "G28\nM83\nG1 E1e308\nG1 E1e308\n").fault = none ∧
      ((Settings.resolve {}).run {} "G28\nM83\nG1 E1e308\nG1 E1e308\n").machine.isFinite = false := by
  decide +kernel

end Tuning

end Toolpath
