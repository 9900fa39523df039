import Toolpath.Params

/-! # A line of G-code

The content of one line, free of its layout: a command, coordinates, a feed rate, parameters and a
comment. A coordinate is absent when the line does not mention it. A feed rate of zero stands for
"not mentioned", because no machine moves at that rate.
-/

namespace Toolpath

/-- The two families of commands. -/
inductive Family where
  | g
  | m
  deriving DecidableEq, Repr

def Family.letter : Family → Char
  | .g => 'G'
  | .m => 'M'

/-- A command such as `G1` or `M83`. -/
structure Command where
  family : Family
  code : UInt16
  deriving DecidableEq, Repr

namespace Command

def home : Command := ⟨.g, 28⟩

/-- Moves in a straight line without printing. -/
def rapidMove : Command := ⟨.g, 0⟩

def linearMove : Command := ⟨.g, 1⟩

/-- Takes coordinates as positions. -/
def absolutePositioning : Command := ⟨.g, 90⟩

/-- Takes coordinates as distances. -/
def relativePositioning : Command := ⟨.g, 91⟩

/-- Takes E words as positions. -/
def absoluteExtrusion : Command := ⟨.m, 82⟩

/-- Takes E words as increments. -/
def relativeExtrusion : Command := ⟨.m, 83⟩

/-- What a command does to the machine. -/
inductive Action where
  | home
  | move
  /-- From here on E words are increments, or positions. -/
  | extrusion (relative : Bool)
  /-- From here on coordinates are distances, or positions. -/
  | positioning (relative : Bool)
  | unknown
  deriving DecidableEq, Repr

/-- What a command does, as far as it is understood. -/
def action (command : Command) : Action :=
  if command = home then .home
  else if command = rapidMove ∨ command = linearMove then .move
  else if command = relativeExtrusion then .extrusion true
  else if command = absoluteExtrusion then .extrusion false
  else if command = relativePositioning then .positioning true
  else if command = absolutePositioning then .positioning false
  else .unknown

/-- The letter and the code in decimal. -/
def text (command : Command) : String :=
  String.ofList (command.family.letter :: Nat.toDigits 10 command.code.toNat)

end Command

/-- The content of one line. -/
structure Line where
  command : Option Command := none
  x : Option Float := none
  y : Option Float := none
  z : Option Float := none
  e : Option Float := none
  feedrate : Float := 0.0
  /-- Parameters whose text is a number. -/
  numbers : Params Float := .empty
  /-- Parameters with any other text. -/
  texts : Params String := .empty
  /-- The comment, with its marker. -/
  comment : Option String := none
  deriving DecidableEq, Repr

namespace Line

def blank : Line := {}

instance : Inhabited Line := ⟨blank⟩

def ofCommand (command : Command) : Line := { command := some command }

def ofComment (text : String) : Line := { comment := some text }

/-- What the line does; without a command that is not known. -/
def action (line : Line) : Command.Action := line.command.elim .unknown Command.action

def hasFeedrate (line : Line) : Bool := line.feedrate != 0.0

/-- Whether the line has parameters besides coordinates and feed rate. -/
def hasParams (line : Line) : Bool := !line.numbers.isEmpty || !line.texts.isEmpty

/-- Whether the line has a comment with some text. -/
def hasComment (line : Line) : Bool := line.comment.any fun text => !text.isEmpty

/-- Whether the line has a coordinate, a feed rate or a parameter. -/
def hasWords (line : Line) : Bool :=
  line.x.isSome || line.y.isSome || line.z.isSome || line.e.isSome ||
    line.hasFeedrate || line.hasParams

/-- Whether there is nothing to write. -/
def isEmpty (line : Line) : Bool :=
  line.command.isNone && !line.hasWords && !line.hasComment

/-- Whether the line has a comment and nothing that a machine acts on. -/
def isCommentOnly (line : Line) : Bool :=
  line.command.isNone && !line.hasWords && line.comment.isSome

/-- Whether the line has nothing that a machine acts on. -/
def isInert (line : Line) : Bool := line.isCommentOnly || line.isEmpty

def withoutComment (line : Line) : Line := { line with comment := none }

end Line

end Toolpath
