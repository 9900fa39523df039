import Toolpath.Decimal.Shortest
import Toolpath.Machine.Key
import Toolpath.Reduce

/-! # Notes

What a run says about its work. A note is data; its level, the part of the program that it comes
from and its wording are read off it, so that the work itself never depends on what is shown.
-/

namespace Toolpath

/-- How urgent a note is, the most urgent first. -/
inductive Level where
  | error
  | warn
  | info
  | debug
  | trace
  deriving DecidableEq, Repr

def Level.name : Level → String
  | .error => "ERROR"
  | .warn => "WARN"
  | .info => "INFO"
  | .debug => "DEBUG"
  | .trace => "TRACE"

/-- A number that grows as the level gets less urgent. -/
def Level.rank : Level → Nat
  | .error => 1
  | .warn => 2
  | .info => 3
  | .debug => 4
  | .trace => 5

/-- The text of a value in a listing. -/
def Machine.Scalar.listing : Machine.Scalar → String
  | .number value => Layout.listing.text value
  | .flag value => if value then "true" else "false"

/-- The fields of the machine by name, with their values as text. -/
def Machine.listing (machine : Machine) : String :=
  let fields := Machine.Key.all.map fun key => key.name ++ ": " ++ (machine.get key).listing
  "MachineState \x7b " ++ ", ".intercalate fields ++ " \x7d"

/-- Something that a run says about its work. -/
inductive Note where
  | homed
  | relativeExtrusionOn
  | relativeExtrusionOff (e : Float)
  | relativePositioningOn
  /-- A line with an unknown command is kept as it is. -/
  | passedThrough (line : String)
  /-- Nothing is left of a line. -/
  | dropped (number : Nat)
  /-- A threshold that is not positive and finite is replaced. -/
  | thresholdIgnored (threshold : Float)
  | settingsUsed (path : String)
  | finished (machine : Machine)
  deriving DecidableEq, Repr

namespace Note

def level : Note → Level
  | homed | relativeExtrusionOn | relativeExtrusionOff _ | relativePositioningOn
  | passedThrough _ | finished _ => .debug
  | dropped _ => .trace
  | thresholdIgnored _ => .warn
  | settingsUsed _ => .info

/-- The part of the program that a note comes from. -/
def target : Note → String
  | homed | relativeExtrusionOn | relativeExtrusionOff _ | relativePositioningOn
  | passedThrough _ | dropped _ => "gcode_minifier::minifier"
  | thresholdIgnored _ => "gcode_minifier::minifier::config"
  | settingsUsed _ | finished _ => "gcode_minifier::cli"

def message : Note → String
  | homed => "homed"
  | relativeExtrusionOn => "relative extrusion on"
  | relativeExtrusionOff e => "relative extrusion off, E = " ++ Layout.message.text e
  | relativePositioningOn => "relative positioning on, further moves are unsupported"
  | passedThrough line => "passing through unknown command: " ++ line
  | dropped number => "line " ++ number.repr ++ ": dropped"
  | thresholdIgnored threshold =>
    "Ignoring invalid threshold " ++ Layout.message.text threshold ++ ", using " ++
      Layout.message.text Settings.defaultThreshold
  | settingsUsed path => "Using settings from " ++ path
  | finished machine => "Final state: " ++ machine.listing

end Note

/-- What resolving settings says. -/
def Settings.notes (settings : Settings) : List Note :=
  if settings.discardsThreshold then [.thresholdIgnored settings.threshold] else []

/-- What reducing a line that is not refused says; `after` is the machine after it. -/
def Tuning.notes (tuning : Tuning) (line : Line) (after : Machine) : List Note :=
  let stripped := tuning.strip line
  if stripped.isInert then []
  else
    match stripped.action with
    | .home => [.homed]
    | .extrusion true => [.relativeExtrusionOn]
    | .extrusion false => [.relativeExtrusionOff after.e]
    | .positioning true => [.relativePositioningOn]
    | .move | .positioning false => []
    | .unknown => [.passedThrough stripped.text]

end Toolpath
