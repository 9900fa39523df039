import Toolpath.FileTree
import Toolpath.Pass
import Toolpath.Sink

/-! # Composing a program

A composer turns orders such as "travel there" and "print to there" into lines. Every line is
reduced at once against the machine that the lines before it left, so the program so far never
holds a line that is empty.
-/

namespace Toolpath

/-- Measures of the printer and its speeds. -/
structure Geometry where
  nozzleSize : Float := 0.4
  layerHeight : Float := 0.2
  /-- Width of a printed line; one that is not positive stands for the nozzle size. -/
  extrusionWidth : Float := 0.0
  /-- Factor of the filament length; one that is not positive stands for one. -/
  extrusionMultiplier : Float := 1.0
  filamentDiameter : Float := 1.75
  printFeedrate : Float := 2400.0
  travelFeedrate : Float := 6000.0
  deriving DecidableEq, Repr

namespace Geometry

def pi : Float := 3.141592653589793

/-- Length of filament for one millimetre of printed line. -/
def extrusionPerMillimetre (geometry : Geometry) : Float :=
  let width := if 0.0 < geometry.extrusionWidth then geometry.extrusionWidth else geometry.nozzleSize
  let multiplier :=
    if 0.0 < geometry.extrusionMultiplier then geometry.extrusionMultiplier else 1.0
  let radius := geometry.filamentDiameter / 2.0
  geometry.layerHeight * width * multiplier / (pi * radius * radius)

end Geometry

/-- Something that a composer is asked to add. -/
inductive Order where
  | home
  | relativeExtrusion
  | comment (text : String)
  | line (line : Line)
  /-- A move without printing, at the present height and the travel rate unless others are given. -/
  | travel (x y : Float) (z feedrate : Option Float)
  /-- A move that prints, at the present height and the print rate unless others are given. -/
  | print (x y : Float) (z feedrate : Option Float)
  deriving DecidableEq, Repr

/-- A program under construction. -/
structure Composer where
  geometry : Geometry := {}
  tuning : Tuning := .permissive
  machine : Machine := {}
  lines : Array Line := #[]
  deriving DecidableEq, Repr

namespace Composer

/-- What carrying out an order leaves behind. -/
structure Reply where
  composer : Composer
  fault : Option Fault := none
  notes : List Note := []
  deriving DecidableEq, Repr

/-- Reduces a line and adds what is left of it. -/
def add (composer : Composer) (line : Line) : Reply :=
  let step := composer.tuning.reduce composer.machine line
  match step.fault with
  | some fault => { composer := { composer with machine := step.machine }, fault := some fault }
  | none =>
    { composer := { composer with
        machine := step.machine
        lines := if step.line.isEmpty then composer.lines else composer.lines.push step.line }
      notes := composer.tuning.notes line step.machine }

def travelLine (composer : Composer) (x y : Float) (z feedrate : Option Float) : Line where
  command := some .rapidMove
  x := some x
  y := some y
  z := some (z.getD composer.machine.z)
  feedrate := feedrate.getD composer.geometry.travelFeedrate

/-- The line of a printing move: as much filament as the distance needs. -/
def printLine (composer : Composer) (x y : Float) (z feedrate : Option Float) : Line :=
  let height := z.getD composer.machine.z
  { command := some .linearMove
    x := some x
    y := some y
    z := some height
    e := some (composer.machine.distanceTo x y height * composer.geometry.extrusionPerMillimetre)
    feedrate := feedrate.getD composer.geometry.printFeedrate }

/-- A comment with its marker, which is put before a text that lacks it. -/
def markComment (text : String) : String :=
  if text.toList.head? = some commentMarker then text
  else String.ofList [commentMarker, ' '] ++ text

/-- Carries out an order. Printing needs E words that are increments. -/
def carryOut (composer : Composer) : Order → Reply
  | .home => composer.add (.ofCommand .home)
  | .relativeExtrusion => composer.add (.ofCommand .relativeExtrusion)
  | .comment text => composer.add (.ofComment (markComment text))
  | .line line => composer.add line
  | .travel x y z feedrate => composer.add (composer.travelLine x y z feedrate)
  | .print x y z feedrate =>
    if composer.machine.relativeExtrusion then composer.add (composer.printLine x y z feedrate)
    else { composer, fault := some (.unsupported .absoluteExtrusionPrintMove) }

/-- The canonical texts of the lines, unless a number asks for too many places. -/
def texts? (composer : Composer) : Option (List String) :=
  composer.lines.toList.mapM (Line.render? composer.tuning.precision)

/-- The whole program, a line feed after each line. -/
def program? (composer : Composer) : Option String := composer.texts?.map Run.terminated

/-- How the writing of a program ends. -/
inductive Closing where
  | complete
  | failed (fault : IoFault)
  /-- A number that needs too many places ends the writing at once. -/
  | aborted
  deriving DecidableEq, Repr

/-- Writes lines one after the other until one cannot be written or does not fit, and then completes
the output. -/
def writeLines (precision : Precision) (sink : Sink) : List Line → Sink × Closing
  | [] => (sink, sink.flushFault.elim .complete .failed)
  | line :: rest =>
    match line.render? precision with
    | none => (sink, .aborted)
    | some text =>
      match sink.writeLine text with
      | (sink, none) => writeLines precision sink rest
      | (sink, some fault) => (sink, .failed fault)

def write (composer : Composer) (sink : Sink) : Sink × Closing :=
  writeLines composer.tuning.precision sink composer.lines.toList

/-- Writes the program into a sink; nothing is told of writing that ends at once. -/
def deliver? (composer : Composer) (sink : Sink) : Option (Sink × Option IoFault) :=
  match composer.write sink with
  | (sink, .complete) => some (sink, none)
  | (sink, .failed fault) => some (sink, some fault)
  | (_, .aborted) => none

/-- Writes the program to a file, which is created or emptied before the first line. -/
def save (composer : Composer) (tree : FileTree) (path : String) : FileTree × Closing :=
  match tree.write path .empty with
  | .error fault => (tree, .failed fault)
  | .ok created =>
    let (sink, closing) := composer.write {}
    match created.write path sink.written with
    | .ok after => (after, closing)
    | .error fault => (created, .failed fault)

/-- The tree with the program in a file; nothing is told of writing that ends at once. -/
def save? (composer : Composer) (tree : FileTree) (path : String) :
    Option (Except IoFault FileTree) :=
  match composer.save tree path with
  | (after, .complete) => some (.ok after)
  | (_, .failed fault) => some (.error fault)
  | (_, .aborted) => none

end Composer

end Toolpath
