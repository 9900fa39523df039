/-! # Words of a line

A line of G-code is a run of words, separated by blanks, and an optional comment that starts at the
first marker and runs to the end of the line. The kind of a word follows from its first letter.
-/

namespace Toolpath

def commentMarker : Char := ';'

/-- Whether a character separates words: space, tab, line feed, form feed or carriage return. -/
def isBlank (c : Char) : Bool :=
  c = ' ' || c = '\t' || c = '\n' || c = '\x0c' || c = '\r'

/-- What a word is for. -/
inductive WordKind where
  /-- A command such as `G1` or `M83`. -/
  | command
  /-- A coordinate: X, Y, Z or E. -/
  | axis
  /-- A feed rate. -/
  | feedrate
  /-- A parameter under any other letter. -/
  | parameter
  /-- The comment, with its marker. -/
  | comment
  deriving DecidableEq, Repr

/-- The kind of a word that starts with a letter, in either case. -/
def WordKind.ofLetter (letter : Char) : WordKind :=
  match letter.toUpper with
  | 'G' | 'M' => .command
  | 'X' | 'Y' | 'Z' | 'E' => .axis
  | 'F' => .feedrate
  | _ => .parameter

structure Word where
  kind : WordKind
  text : String
  deriving DecidableEq, Repr

namespace Word

/-- The part of a line before the first comment marker. -/
def code (line : List Char) : List Char := line.takeWhile (· ≠ commentMarker)

/-- The part of a line from the first comment marker on. -/
def remark (line : List Char) : List Char := line.dropWhile (· ≠ commentMarker)

/-- Code and comment make up the line. -/
theorem code_append_remark (line : List Char) : code line ++ remark line = line :=
  List.takeWhile_append_dropWhile

/-- The maximal runs of characters that are not blank. -/
def runs (text : List Char) : List (List Char) :=
  (text.splitOnP isBlank).filter fun run => !run.isEmpty

/-- The word that a run of characters spells. -/
def ofRun (run : List Char) : Word where
  kind := run.head?.elim .parameter WordKind.ofLetter
  text := String.ofList run

/-- The words of a line in order, its comment last. -/
def scan (line : String) : List Word :=
  let comment := remark line.toList
  (runs (code line.toList)).map ofRun ++
    if comment.isEmpty then [] else [⟨.comment, String.ofList comment⟩]

end Word

end Toolpath
