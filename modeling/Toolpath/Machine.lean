/-! # The machine

What is known about the machine between two lines: where it stands, how much filament it has fed,
how fast it moves, and the modes that later lines depend on.
-/

namespace Toolpath

/-- The state of the machine between two lines. -/
structure Machine where
  x : Float := 0.0
  y : Float := 0.0
  z : Float := 0.0
  /-- Reference of E words: the extruder position while E words are positions, zero while they are
  increments. -/
  e : Float := 0.0
  /-- The extruder position, in both modes. -/
  extruded : Float := 0.0
  feedrate : Float := 0.0
  relativeExtrusion : Bool := false
  relativeCoordinates : Bool := false
  homed : Bool := false
  deriving DecidableEq, Repr

namespace Machine

instance : Inhabited Machine := ⟨{}⟩

/-- A machine that has just been homed and has done nothing else. -/
def freshlyHomed : Machine := { homed := true }

/-- Homing moves every axis to zero. -/
def home (machine : Machine) : Machine :=
  { machine with x := 0.0, y := 0.0, z := 0.0, homed := true }

/-- Switches what E words mean; the reference follows the mode. -/
def setRelativeExtrusion (machine : Machine) (on : Bool) : Machine :=
  { machine with relativeExtrusion := on, e := if on then 0.0 else machine.extruded }

/-- Switches what coordinates mean. -/
def setRelativeCoordinates (machine : Machine) (on : Bool) : Machine :=
  { machine with relativeCoordinates := on }

/-- Distance in a straight line from where the machine stands. -/
def distanceTo (machine : Machine) (x y z : Float) : Float :=
  let dx := x - machine.x
  let dy := y - machine.y
  let dz := z - machine.z
  (dx * dx + dy * dy + dz * dz).sqrt

end Machine

end Toolpath
