import Toolpath.Shell.Pattern.CharSet

/-! # Edges

An edge is a condition on a position of a text. It looks at the characters on both sides and takes
no room itself.
-/

namespace Toolpath

/-- A condition on a position. -/
inductive Edge where
  | textStart
  | textEnd
  /-- After a line feed, or at the start. -/
  | lineStart
  /-- Before a line feed, or at the end. -/
  | lineEnd
  /-- After a line end of any kind, or at the start. -/
  | anyLineStart
  /-- Before a line end of any kind, or at the end. -/
  | anyLineEnd
  | wordEdge
  | noWordEdge
  | wordStart
  | wordEnd
  /-- No word stands before the position. -/
  | wordStartHalf
  /-- No word stands after the position. -/
  | wordEndHalf
  deriving DecidableEq, Repr

namespace Edge

def isOfWords : Edge → Bool
  | wordEdge | noWordEdge | wordStart | wordEnd | wordStartHalf | wordEndHalf => true
  | textStart | textEnd | lineStart | lineEnd | anyLineStart | anyLineEnd => false

/-- Whether a condition holds between two characters; a missing one is an end of the text. -/
def holds (edge : Edge) (before after : Option Char) : Bool :=
  let wordBefore := before.any CharSet.word.contains
  let wordAfter := after.any CharSet.word.contains
  match edge with
  | textStart => before.isNone
  | textEnd => after.isNone
  | lineStart => before.isNone || before = some '\n'
  | lineEnd => after.isNone || after = some '\n'
  | anyLineStart => before.isNone || before = some '\n' || (before = some '\r' && after ≠ some '\n')
  | anyLineEnd => after.isNone || after = some '\r' || (after = some '\n' && before ≠ some '\r')
  | wordEdge => wordBefore != wordAfter
  | noWordEdge => wordBefore == wordAfter
  | wordStart => !wordBefore && wordAfter
  | wordEnd => wordBefore && !wordAfter
  | wordStartHalf => !wordBefore
  | wordEndHalf => !wordAfter

end Edge

end Toolpath
