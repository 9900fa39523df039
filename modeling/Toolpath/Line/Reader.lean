import Toolpath.Decimal.Numeral
import Toolpath.Line
import Toolpath.Word

/-! # Reading a line

The words of a line are taken from left to right. A later word for the same slot replaces an
earlier one, and the first word that does not fit its slot is the fault that is reported.
-/

namespace Toolpath

/-- Why a word does not fit its slot. -/
inductive ReadFault where
  /-- A command word whose rest is not a code. -/
  | invalidCommand (word : String)
  /-- A coordinate or feed rate word whose rest is not a number. -/
  | invalidNumber (letter : Char) (word : String)
  deriving DecidableEq, Repr

def ReadFault.message : ReadFault → String
  | .invalidCommand word => "invalid command code in token '" ++ word ++ "'"
  | .invalidNumber letter word =>
    "invalid number for '" ++ letter.toString ++ "' in token '" ++ word ++ "'"

namespace Line

def maxCode : Nat := 65535

def familyOfLetter (letter : Char) : Family := if letter.toUpper = 'G' then .g else .m

/-- The number after a letter, or the fault of the whole word. -/
def number (letter : Char) (rest : List Char) (word : String) : Except ReadFault Float :=
  match Numeral.read? rest with
  | some value => .ok value
  | none => .error (.invalidNumber letter word)

/-- Sets the coordinate that a letter names. -/
def setAxis (line : Line) (letter : Char) (value : Float) : Line :=
  match letter.toUpper with
  | 'X' => { line with x := some value }
  | 'Y' => { line with y := some value }
  | 'Z' => { line with z := some value }
  | _ => { line with e := some value }

/-- Adds a parameter: a number if its text is one. -/
def addParam (line : Line) (key : Char) (rest : List Char) : Line :=
  match Numeral.read? rest with
  | some value => { line with numbers := line.numbers.insert key value }
  | none => { line with texts := line.texts.insert key (String.ofList rest) }

/-- Takes one more word into a line. -/
def take (line : Line) (word : Word) : Except ReadFault Line :=
  match word.text.toList with
  | [] => .ok line
  | letter :: rest =>
    match word.kind with
    | .comment => .ok { line with comment := some word.text }
    | .command =>
      match Numeral.natural? maxCode rest with
      | some code => .ok { line with command := some ⟨familyOfLetter letter, UInt16.ofNat code⟩ }
      | none => .error (.invalidCommand word.text)
    | .axis => (number letter rest word.text).map (line.setAxis letter)
    | .feedrate => (number letter rest word.text).map fun value => { line with feedrate := value }
    | .parameter => .ok (line.addParam letter rest)

/-- The line that a list of words spells. -/
def ofWords (words : List Word) : Except ReadFault Line := words.foldlM take blank

def read (text : String) : Except ReadFault Line := ofWords (Word.scan text)

end Line

end Toolpath
