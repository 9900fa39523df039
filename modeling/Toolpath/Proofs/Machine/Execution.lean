import Mathlib
import Toolpath.Machine
import Toolpath.Proofs.Line.Settled

/-! # Carrying out lines

The plain meaning of a program, with no notion of a redundant word. A linear move carries out every
word that it has, homing and the mode commands do what they say, and any other line does nothing.
A text is carried out by reading its lines in order.
-/

namespace Toolpath

namespace Machine

/-- Carries out every word of a linear move. -/
def move (machine : Machine) (line : Line) : Machine :=
  { machine with
    x := line.x.getD machine.x
    y := line.y.getD machine.y
    z := line.z.getD machine.z
    e := if machine.relativeExtrusion then machine.e else line.e.getD machine.e
    extruded :=
      if machine.relativeExtrusion then line.e.elim machine.extruded (machine.extruded + ·)
      else line.e.getD machine.extruded
    feedrate := if line.hasFeedrate then line.feedrate else machine.feedrate }

/-- Carries out one line. -/
def follow (machine : Machine) (line : Line) : Machine :=
  match line.action with
  | .home => machine.home
  | .move => machine.move line
  | .extrusion relative => machine.setRelativeExtrusion relative
  | .positioning relative => machine.setRelativeCoordinates relative
  | .unknown => machine

/-- Carries out lines in order. -/
def followAll (machine : Machine) (lines : List Line) : Machine := lines.foldl follow machine

/-- Reads texts of lines in order and carries them out. -/
def followTexts (machine : Machine) (texts : List String) : Except ReadFault Machine :=
  texts.foldlM (fun machine text => (Line.read text).map machine.follow) machine

/-- Reads the lines of a text in order and carries them out. -/
def followText (machine : Machine) (text : String) : Except ReadFault Machine :=
  machine.followTexts (Lines.ofString text)

@[simp] theorem followAll_cons (machine : Machine) (line : Line) (lines : List Line) :
    machine.followAll (line :: lines) = (machine.follow line).followAll lines := rfl

section Actions

variable {machine : Machine} {line : Line}

theorem follow_of_move (move : line.action = .move) : machine.follow line = machine.move line := by
  rw [follow, move]

/-- A line whose action is unknown, such as one without a command, does nothing. -/
theorem follow_of_unknown (unknown : line.action = .unknown) : machine.follow line = machine := by
  rw [follow, unknown]

theorem follow_of_isEmpty (empty : line.isEmpty) : machine.follow line = machine := by
  apply follow_of_unknown
  simp only [Line.isEmpty, Bool.and_eq_true, Option.isNone_iff_eq_none] at empty
  rw [Line.action, empty.1.1]
  rfl

theorem move_of_not_hasWords (bare : line.hasWords = false) : machine.move line = machine := by
  simp only [Line.hasWords, Bool.or_eq_false_iff, Option.isSome_eq_false_iff,
    Option.isNone_iff_eq_none] at bare
  obtain ⟨⟨⟨⟨⟨x, y⟩, z⟩, e⟩, rate⟩, -⟩ := bare
  simp [move, x, y, z, e, rate]

end Actions

/-- Equal modes, whatever the positions are. -/
structure SameModes (first second : Machine) : Prop where
  homed : first.homed = second.homed
  relativeCoordinates : first.relativeCoordinates = second.relativeCoordinates
  relativeExtrusion : first.relativeExtrusion = second.relativeExtrusion

namespace SameModes

theorem refl (machine : Machine) : SameModes machine machine := ⟨rfl, rfl, rfl⟩

theorem symm {first second : Machine} (same : SameModes first second) : SameModes second first :=
  ⟨same.homed.symm, same.relativeCoordinates.symm, same.relativeExtrusion.symm⟩

theorem trans {first second third : Machine} (front : SameModes first second)
    (back : SameModes second third) : SameModes first third :=
  ⟨front.homed.trans back.homed, front.relativeCoordinates.trans back.relativeCoordinates,
    front.relativeExtrusion.trans back.relativeExtrusion⟩

/-- Which modes follow depends on the modes before and on the command alone. -/
theorem follow {first second : Machine} (same : SameModes first second) {line other : Line}
    (command : line.action = other.action) :
    SameModes (first.follow line) (second.follow other) := by
  rw [Machine.follow, Machine.follow, ← command]
  split
  · exact ⟨rfl, same.relativeCoordinates, same.relativeExtrusion⟩
  · exact ⟨same.homed, same.relativeCoordinates, same.relativeExtrusion⟩
  · exact ⟨same.homed, same.relativeCoordinates, rfl⟩
  · exact ⟨same.homed, rfl, same.relativeExtrusion⟩
  · exact same

end SameModes

/-- A move changes no mode. -/
theorem sameModes_move (machine : Machine) (line : Line) :
    SameModes (machine.move line) machine := ⟨rfl, rfl, rfl⟩

end Machine

namespace Line

/-- The lines that texts are read as, one by one. -/
def Reads (texts : List String) (lines : List Line) : Prop :=
  List.Forall₂ (fun text line => read text = .ok line) texts lines

/-- Texts are read as one list of lines only. -/
theorem Reads.unique {texts : List String} {first second : List Line} (one : Reads texts first)
    (other : Reads texts second) : first = second := by
  refine List.right_unique_forall₂' ?_ one other
  intro text line again read reread
  exact Except.ok.inj (read.symm.trans reread)

/-- What holds of every line that a text is read as holds of the lines. -/
theorem Reads.forall_mem {texts : List String} {lines : List Line} (reads : Reads texts lines)
    {property : Line → Prop}
    (holds : ∀ text ∈ texts, ∀ line, read text = .ok line → property line) :
    ∀ line ∈ lines, property line := by
  induction reads with
  | nil => exact List.forall_mem_nil _
  | cons outcome _ ih =>
    obtain ⟨first, others⟩ := List.forall_mem_cons.mp holds
    exact List.forall_mem_cons.mpr ⟨first _ outcome, ih others⟩

/-- Texts that can be read are carried out as the lines that they are read as. -/
theorem Reads.followTexts {texts : List String} {lines : List Line} (reads : Reads texts lines)
    (machine : Machine) : machine.followTexts texts = .ok (machine.followAll lines) := by
  induction reads generalizing machine with
  | nil => rfl
  | cons first _ ih =>
    rw [Machine.followTexts, List.foldlM_cons, first]
    exact ih _

end Line

end Toolpath
