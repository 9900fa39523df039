import Toolpath.Machine

/-! # The fields of the machine by name

Listings and documents name the fields of the machine and keep them in one order. A `Key` is such
a name; `get` and `set?` are the view of the machine through it.
-/

namespace Toolpath.Machine

/-- A value of a field: a number or a flag. -/
inductive Scalar where
  | number (value : Float)
  | flag (value : Bool)
  deriving DecidableEq, Repr

inductive Key where
  | x
  | y
  | z
  | e
  | extruded
  | feedrate
  | relativeExtrusion
  | relativeCoordinates
  | homed
  deriving DecidableEq, Repr

namespace Key

def all : List Key :=
  [x, y, z, e, extruded, feedrate, relativeExtrusion, relativeCoordinates, homed]

def name : Key → String
  | x => "x"
  | y => "y"
  | z => "z"
  | e => "e"
  | extruded => "e_absolute"
  | feedrate => "feedrate"
  | relativeExtrusion => "relative_extrusion"
  | relativeCoordinates => "relative_coordinates"
  | homed => "is_homed"

def ofName? (text : String) : Option Key := all.find? fun key => key.name = text

theorem mem_all (key : Key) : key ∈ all := by cases key <;> simp [all]

theorem ofName?_name (key : Key) : ofName? key.name = some key := by cases key <;> decide

end Key

def get (machine : Machine) : Key → Scalar
  | .x => .number machine.x
  | .y => .number machine.y
  | .z => .number machine.z
  | .e => .number machine.e
  | .extruded => .number machine.extruded
  | .feedrate => .number machine.feedrate
  | .relativeExtrusion => .flag machine.relativeExtrusion
  | .relativeCoordinates => .flag machine.relativeCoordinates
  | .homed => .flag machine.homed

/-- The machine with another value in a field, if the value is of the field's kind. -/
def set? (machine : Machine) : Key → Scalar → Option Machine
  | .x, .number value => some { machine with x := value }
  | .y, .number value => some { machine with y := value }
  | .z, .number value => some { machine with z := value }
  | .e, .number value => some { machine with e := value }
  | .extruded, .number value => some { machine with extruded := value }
  | .feedrate, .number value => some { machine with feedrate := value }
  | .relativeExtrusion, .flag value => some { machine with relativeExtrusion := value }
  | .relativeCoordinates, .flag value => some { machine with relativeCoordinates := value }
  | .homed, .flag value => some { machine with homed := value }
  | _, _ => none

end Toolpath.Machine
