import Toolpath.Shell.Pattern.Edge
import Toolpath.Shell.Pattern.Fault

/-! # Drafts of patterns

A draft is a pattern as it is written: each construct knows where it stands, and a change of flags is
a construct like any other. Drafts may not nest deeper than a limit.
-/

namespace Toolpath.Pattern

/-- What a pattern may turn on and off for the constructs that follow. -/
inductive Flag where
  /-- Letters stand for both cases. -/
  | anyCase
  /-- The anchors hold at every line. -/
  | perLine
  /-- The dot stands for line feeds too. -/
  | dotAll
  /-- Repetitions take as little as they can, and those with a mark as much as they can. -/
  | swapGreed
  /-- Characters beyond the basic ones are characters, not bytes. -/
  | wide
  /-- A carriage return belongs to a line end. -/
  | returns
  /-- Blanks and comments in the pattern say nothing. -/
  | spaced
  deriving DecidableEq, Repr

/-- Flags and the values that they get. -/
abbrev FlagChange := List (Flag × Bool)

/-- A character that stands for itself. -/
structure Literal where
  c : Char
  /-- Whether it is written as the code of a byte. -/
  asByte : Bool
  place : Stretch
  deriving DecidableEq, Repr

inductive Operation where
  | both
  | difference
  | symmetricDifference
  deriving DecidableEq, Repr

def Operation.apply : Operation → CharSet → CharSet → CharSet
  | both, left, right => left.intersect right
  | difference, left, right => left.difference right
  | symmetricDifference, left, right => left.symmetricDifference right

/-- A construct that stands for one of several characters. -/
inductive Family where
  /-- A set with a letter of its own, or its complement. -/
  | shorthand (set : CharSet) (negated : Bool)
  /-- The characters with a property; some names can only be those of a category. -/
  | property (ofCategory : Bool)
  deriving DecidableEq, Repr

/-- What is written between the brackets of a set. -/
inductive SetDraft where
  | empty (place : Stretch)
  | literal (literal : Literal)
  | range (first last : Literal)
  /-- A set by its name, or its complement. -/
  | named (set : CharSet) (negated : Bool) (place : Stretch)
  | family (family : Family) (place : Stretch)
  | bracketed (negated : Bool) (body : SetDraft) (place : Stretch)
  | union (items : List SetDraft) (place : Stretch)
  | operation (operation : Operation) (left right : SetDraft) (place : Stretch)

namespace SetDraft

def place : SetDraft → Stretch
  | literal written => written.place
  | range first last => ⟨first.place.start, last.place.stop⟩
  | empty place | named _ _ place | family _ place | bracketed _ _ place | union _ place
  | operation _ _ _ place => place

/-- The constructs inside one that nests. -/
def inner? : SetDraft → Option (List SetDraft)
  | bracketed _ body _ => some [body]
  | union items _ => some items
  | operation _ left right _ => some [left, right]
  | empty _ | literal _ | range _ _ | named _ _ _ | family _ _ => none

/-- The first construct that nests deeper than a number of levels. -/
def tooDeep? : Nat → SetDraft → Option Stretch
  | 0, draft => draft.inner?.map fun _ => draft.place
  | levels + 1, draft => draft.inner?.bind fun inner => inner.findSome? (tooDeep? levels)

/-- The set with the given items, the last one first. Without items it stands at a place of its
own. -/
def ofItems (start : Nat) : List SetDraft → SetDraft
  | [] => .empty ⟨start, start⟩
  | [only] => only
  | last :: earlier =>
    let items := (last :: earlier).reverse
    .union items ⟨(items.head?.elim start fun first => first.place.start), last.place.stop⟩

end SetDraft

/-- A pattern as it is written. -/
inductive Draft where
  | empty (place : Stretch)
  | flags (change : FlagChange) (place : Stretch)
  | literal (literal : Literal)
  | dot (place : Stretch)
  /-- The mark for a start, of the text or of a line. -/
  | start (place : Stretch)
  /-- The mark for an end, of the text or of a line. -/
  | stop (place : Stretch)
  | edge (condition : Edge) (place : Stretch)
  | family (family : Family) (place : Stretch)
  | bracketed (negated : Bool) (body : SetDraft) (place : Stretch)
  | repeated (body : Draft) (least : Nat) (most : Option Nat) (greedy : Bool) (place : Stretch)
  /-- A group, which counts as one of the pattern's groups unless it only changes flags. -/
  | group (counted : Bool) (change : FlagChange) (body : Draft) (place : Stretch)
  | choice (parts : List Draft) (place : Stretch)
  | sequence (parts : List Draft) (place : Stretch)

namespace Draft

def place : Draft → Stretch
  | literal written => written.place
  | empty place | flags _ place | dot place | start place | stop place | edge _ place
  | family _ place | bracketed _ _ place | repeated _ _ _ _ place | group _ _ _ place
  | choice _ place | sequence _ place => place

def maxLevels : Nat := 250

/-- The patterns inside one that nests. -/
def inner? : Draft → Option (List Draft)
  | repeated body _ _ _ _ | group _ _ body _ => some [body]
  | choice parts _ | sequence parts _ => some parts
  | bracketed _ _ _ => some []
  | empty _ | flags _ _ | literal _ | dot _ | start _ | stop _ | edge _ _ | family _ _ => none

/-- The first construct that nests deeper than a number of levels. -/
def tooDeep? : Nat → Draft → Option Stretch
  | 0, draft => draft.inner?.map fun _ => draft.place
  | levels + 1, .bracketed _ body _ => body.tooDeep? levels
  | levels + 1, draft => draft.inner?.bind fun inner => inner.findSome? (tooDeep? levels)

/-- The sequence of the given parts, the last one first, between two positions. -/
def ofParts (start stop : Nat) : List Draft → Draft
  | [] => .empty ⟨start, stop⟩
  | [only] => only
  | parts => .sequence parts.reverse ⟨start, stop⟩

end Draft

end Toolpath.Pattern
