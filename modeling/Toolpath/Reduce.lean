import Toolpath.Fault
import Toolpath.Machine
import Toolpath.Settings

/-! # Reducing one line

A word of a linear move is redundant when the machine would not notice its absence: a coordinate
near the tracked one, an increment near zero, a feed rate near the tracked one. Reducing a line
drops its redundant words and tracks what the kept ones do. A move that loses all its words becomes
the blank line; every other line keeps its words.
-/

namespace Toolpath

/-- What reducing one line leaves behind. -/
structure Step where
  machine : Machine
  line : Line
  fault : Option Fault := none
  deriving DecidableEq, Repr

namespace Tuning

/-- A coordinate word against the tracked value: what is kept of it, and the value tracked next. -/
def keepAxis (tuning : Tuning) (word : Option Float) (tracked : Float) : Option Float × Float :=
  match word with
  | some value => if tuning.near value tracked then (none, tracked) else (some value, value)
  | none => (none, tracked)

/-- An E word against the machine: what is kept of it, and the machine next.

While E words are increments each one counts, also one too small to keep. -/
def keepExtrusion (tuning : Tuning) (machine : Machine) (word : Option Float) :
    Option Float × Machine :=
  match word with
  | none => (none, machine)
  | some value =>
    if machine.relativeExtrusion then
      (if tuning.near value 0.0 then none else some value,
        { machine with extruded := machine.extruded + value })
    else if tuning.near value machine.e then (none, machine)
    else (some value, { machine with e := value, extruded := value })

/-- A feed rate against the tracked one; the kept rate is also the one tracked next. -/
def keepsFeedrate (tuning : Tuning) (machine : Machine) (line : Line) : Bool :=
  line.hasFeedrate && !tuning.near line.feedrate machine.feedrate

/-- A linear move without its redundant words, and the machine after it. -/
def reduceMove (tuning : Tuning) (machine : Machine) (line : Line) : Machine × Line :=
  let (keptX, x) := tuning.keepAxis line.x machine.x
  let (keptY, y) := tuning.keepAxis line.y machine.y
  let (keptZ, z) := tuning.keepAxis line.z machine.z
  let (keptE, fed) := tuning.keepExtrusion machine line.e
  let keepsRate := tuning.keepsFeedrate machine line
  let after := { fed with
    x, y, z
    feedrate := if keepsRate then line.feedrate else machine.feedrate }
  let kept := { line with
    x := keptX, y := keptY, z := keptZ, e := keptE
    feedrate := if keepsRate then line.feedrate else 0.0 }
  (after, if kept.hasWords then kept else .blank)

/-- Why a linear move is refused, if it is. -/
def refusesMove? (machine : Machine) (line : Line) : Option Unsupported :=
  if !machine.homed then some .notHomed
  else if machine.relativeCoordinates then some .relativeCoordinates
  else if line.hasParams then some .extendedMoveParameters
  else none

/-- The line that is worked on: without its comment if comments are removed. -/
def strip (tuning : Tuning) (line : Line) : Line :=
  if tuning.removeComments then line.withoutComment else line

/-- The fault of a line whose command is not understood. -/
def unknownFault (tuning : Tuning) (line : Line) : Fault :=
  match line.render? tuning.precision with
  | some text => .unknownCommand text
  | none => .placesExceeded

/-- A line that holds a command or words, its comment already removed where asked for. -/
def reduceActive (tuning : Tuning) (machine : Machine) (line : Line) : Step :=
  match line.action with
  | .home => { machine := machine.home, line }
  | .move =>
    match refusesMove? machine line with
    | some mode => { machine, line, fault := some (.unsupported mode) }
    | none =>
      let (after, kept) := tuning.reduceMove machine line
      { machine := after, line := kept }
  | .extrusion relative => { machine := machine.setRelativeExtrusion relative, line }
  | .positioning relative => { machine := machine.setRelativeCoordinates relative, line }
  | .unknown =>
    if tuning.allowUnknown then { machine, line }
    else { machine, line, fault := some (tuning.unknownFault line) }

/-- Reduces one line against the machine. -/
def reduce (tuning : Tuning) (machine : Machine) (line : Line) : Step :=
  let stripped := tuning.strip line
  if stripped.isInert then { machine, line := stripped }
  else tuning.reduceActive machine stripped

end Tuning

end Toolpath
