import Toolpath.Text.Lines

/-! # Why a text is no pattern

A fault in the writing of a pattern knows the stretch of the text that it is about. Its report shows
the text with that stretch underlined.
-/

namespace Toolpath.Pattern

/-- A stretch of a text: the number of characters before it, and before what follows it. -/
structure Stretch where
  start : Nat
  stop : Nat
  deriving DecidableEq, Repr

inductive Complaint where
  | classEscape
  | classRangeOrder
  | classRangeLiteral
  | classUnclosed
  | decimalInvalid
  | hexEmpty
  | hexInvalid
  | hexDigit
  | escapeEnd
  | escapeUnknown
  | flagDanglingNegation
  | flagDuplicate
  | flagRepeatedNegation
  | flagEnd
  | flagUnknown
  | nameDuplicate
  | nameEmpty
  | nameInvalid
  | nameEnd
  | groupUnclosed
  | groupUnopened
  | countOrder
  | countEmpty
  | countUnclosed
  | repetitionMissing
  | wordEdgeUnclosed
  | wordEdgeUnknown
  | wordEdgeEnd
  | propertyInvalid
  | backreference
  | lookAround
  /-- More levels inside each other than the limit allows. -/
  | nestedTooDeep (limit : Nat)
  /-- A character beyond the basic ones where only bytes are allowed. -/
  | wideCharacter
  | invalidText
  | propertyUnknown
  | categoryUnknown
  | shorthandUnknown
  | caseUnknown
  deriving DecidableEq, Repr

def Complaint.message : Complaint → String
  | classEscape => "invalid escape sequence found in character class"
  | classRangeOrder => "invalid character class range, the start must be <= the end"
  | classRangeLiteral => "invalid range boundary, must be a literal"
  | classUnclosed => "unclosed character class"
  | decimalInvalid => "decimal literal invalid"
  | hexEmpty => "hexadecimal literal empty"
  | hexInvalid => "hexadecimal literal is not a Unicode scalar value"
  | hexDigit => "invalid hexadecimal digit"
  | escapeEnd => "incomplete escape sequence, reached end of pattern prematurely"
  | escapeUnknown => "unrecognized escape sequence"
  | flagDanglingNegation => "dangling flag negation operator"
  | flagDuplicate => "duplicate flag"
  | flagRepeatedNegation => "flag negation operator repeated"
  | flagEnd => "expected flag but got end of regex"
  | flagUnknown => "unrecognized flag"
  | nameDuplicate => "duplicate capture group name"
  | nameEmpty => "empty capture group name"
  | nameInvalid => "invalid capture group character"
  | nameEnd => "unclosed capture group name"
  | groupUnclosed => "unclosed group"
  | groupUnopened => "unopened group"
  | countOrder => "invalid repetition count range, the start must be <= the end"
  | countEmpty => "repetition quantifier expects a valid decimal"
  | countUnclosed => "unclosed counted repetition"
  | repetitionMissing => "repetition operator missing expression"
  | wordEdgeUnclosed =>
    "special word boundary assertion is either unclosed or contains an invalid character"
  | wordEdgeUnknown =>
    "unrecognized special word boundary assertion, valid choices are: start, end, start-half " ++
      "or end-half"
  | wordEdgeEnd =>
    "found either the beginning of a special word boundary or a bounded repetition on a \\b with " ++
      "an opening brace, but no closing brace"
  | propertyInvalid => "invalid Unicode character class"
  | backreference => "backreferences are not supported"
  | lookAround => "look-around, including look-ahead and look-behind, is not supported"
  | nestedTooDeep limit =>
    "exceed the maximum number of nested parentheses/brackets (" ++ limit.repr ++ ")"
  | wideCharacter => "Unicode not allowed here"
  | invalidText => "pattern can match invalid UTF-8"
  | propertyUnknown => "Unicode property not found"
  | categoryUnknown => "Unicode property value not found"
  | shorthandUnknown =>
    "Unicode-aware Perl class not found (make sure the unicode-perl feature is enabled)"
  | caseUnknown =>
    "Unicode-aware case insensitivity matching is not available (make sure the unicode-case " ++
      "feature is enabled)"

/-- Why a text is no pattern. -/
inductive Fault where
  /-- A fault in the writing, where it is, and another place that it has to do with. -/
  | written (complaint : Complaint) (place : Stretch) (other : Option Stretch)
  /-- The pattern takes too much room with its repetitions written out. -/
  | tooLarge (limit : Nat)
  /-- The pattern asks for words of any script. -/
  | anyScript
  deriving DecidableEq, Repr

def lineAndColumn (text : List Char) (position : Nat) : Nat × Nat :=
  let before := text.take position
  (1 + before.count '\n', 1 + (before.reverse.takeWhile (· ≠ '\n')).length)

def fill (count : Nat) (c : Char) : String := String.ofList (List.replicate count c)

/-- The line below a line that underlines stretches of it, given by their columns. -/
def underline (padding : Nat) (columns : List (Nat × Nat)) : String :=
  let (line, _) := columns.foldl (fun (line, position) (start, stop) =>
    let size := max 1 (stop - start)
    (line ++ fill (start - 1 - position) ' ' ++ fill size '^', max position (start - 1) + size))
    ("", 0)
  fill padding ' ' ++ line

/-- The report of a fault in the writing of a text. -/
def pointedOut (text : String) (complaint : Complaint) (stretches : List Stretch) : String :=
  let chars := text.toList
  let lines := Lines.ofString text
  let count := lines.length + (if chars.getLast? = some '\n' then 1 else 0)
  let width := if count ≤ 1 then 0 else count.repr.length
  let padding := if width = 0 then 4 else width + 2
  let places := (stretches.mergeSort fun a b => a.start ≤ b.start).map fun stretch =>
    (lineAndColumn chars stretch.start, lineAndColumn chars stretch.stop)
  let shown := lines.mapIdx fun index line =>
    let number := (index + 1).repr
    let front := if width = 0 then "    " else fill (width - number.length) ' ' ++ number ++ ": "
    let marked := places.filterMap fun ((line, start), (lastLine, stop)) =>
      if line = index + 1 && lastLine = line then some (start, stop) else none
    front ++ line ++ "\n" ++ (if marked.isEmpty then "" else underline padding marked ++ "\n")
  let spread := places.filterMap fun ((line, start), (lastLine, stop)) =>
    if line = lastLine then none
    else some ("on line " ++ line.repr ++ " (column " ++ start.repr ++ ") through line " ++
      lastLine.repr ++ " (column " ++ (stop - 1).repr ++ ")")
  let divider := if chars.contains '\n' then fill 79 '~' ++ "\n" else ""
  let notes := if divider.isEmpty || spread.isEmpty then "" else "\n".intercalate spread ++ "\n"
  "regex parse error:\n" ++ divider ++ String.join shown ++ divider ++ notes ++
    "error: " ++ complaint.message

def Fault.message (text : String) : Fault → String
  | written complaint place other => pointedOut text complaint (place :: other.toList)
  | tooLarge limit => "Compiled regex exceeds size limit of " ++ limit.repr ++ " bytes."
  | anyScript => "error building NFA"

end Toolpath.Pattern
