import Toolpath.Decimal.Fixed
import Toolpath.Line

/-! # Writing a line

A line is written as a list of fields with one space between them: command, X, Y, Z, E, F, number
parameters, text parameters, comment. Parameters come in the order of their keys.
-/

namespace Toolpath

/-- Decimal places of the numbers of a line. -/
structure Precision where
  /-- Places of X, Y and number parameters. -/
  xy : Nat
  z : Nat
  e : Nat
  deriving DecidableEq, Repr

/-- The places that are used unless others are asked for. -/
def Precision.standard : Precision := ⟨4, 5, 8⟩

/-- A piece of a written line. -/
inductive Field where
  | command (command : Command)
  | number (letter : Char) (places : Nat) (value : Float)
  | text (letter : Char) (text : String)
  | comment (text : String)
  deriving DecidableEq, Repr

namespace Field

/-- The text of a field, for any number of places. -/
def render : Field → String
  | command c => c.text
  | number letter places value => String.ofList (letter :: Fixed.chars places value)
  | text letter rest => letter.toString ++ rest
  | comment remark => remark

/-- Whether a field asks for no more places than a number can have. -/
def fits : Field → Bool
  | number _ places _ => decide (places ≤ Fixed.maxPlaces)
  | command _ | text .. | comment _ => true

end Field

namespace Line

/-- The fields of a line in the order in which they are written. -/
def fields (precision : Precision) (line : Line) : List Field :=
  line.command.toList.map .command ++
  line.x.toList.map (.number 'X' precision.xy) ++
  line.y.toList.map (.number 'Y' precision.xy) ++
  line.z.toList.map (.number 'Z' precision.z) ++
  line.e.toList.map (.number 'E' precision.e) ++
  (if line.hasFeedrate then [.number 'F' 0 line.feedrate] else []) ++
  line.numbers.entries.map (fun entry => .number entry.1 precision.xy entry.2) ++
  line.texts.entries.map (fun entry => .text entry.1 entry.2) ++
  (line.comment.filter fun text => !text.isEmpty).toList.map .comment

/-- The canonical text of a line, for any number of places. -/
def render (precision : Precision) (line : Line) : String :=
  " ".intercalate ((line.fields precision).map Field.render)

/-- The canonical text of a line, unless a number in it asks for more places than can be written. -/
def render? (precision : Precision) (line : Line) : Option String :=
  if (line.fields precision).all Field.fits then some (line.render precision) else none

/-- The canonical text with the standard places. -/
def text (line : Line) : String := line.render .standard

end Line

end Toolpath
