import Toolpath.Shell.Pattern

/-! # Patterns that are looked up

Some patterns stand for a few fixed texts, in spite of parts that cannot occur. Such texts are looked
up as they are, and no states are laid out for the pattern. To find them, the starts of a pattern's
stretches are gathered, in the order in which the pattern prefers them. A start is cut where it gets
long, and there are not more than so many of them.
-/

namespace Toolpath.Pattern

/-- The bytes that a stretch starts with. -/
structure Start where
  bytes : List UInt8
  /-- Whether they are the whole stretch. -/
  whole : Bool
  deriving DecidableEq, Repr

/-- A start of no more than so many bytes. -/
def Start.cut (length : Nat) (start : Start) : Start :=
  if start.bytes.length ≤ length then start else ⟨start.bytes.take length, false⟩

/-- The starts of all stretches, if they are known. -/
abbrev Starts := Option (List Start)

namespace Starts

def maxCount : Nat := 250

def maxLength : Nat := 100

/-- The greatest number of characters of a set that are looked at one by one. -/
def maxChars : Nat := 10

/-- The greatest number of repetitions that are looked at one by one. -/
def maxTimes : Nat := 10

/-- How long starts are kept if there would be too many of them. -/
def shortLength : Nat := 4

def nothing : Starts := some [⟨[], true⟩]

/-- Starts without those that are the same as the one before. -/
def distinct (starts : List Start) : List Start :=
  (starts.foldl (fun (kept : List Start) start =>
    match kept with
    | last :: earlier =>
      if last.bytes = start.bytes then ⟨last.bytes, last.whole && start.whole⟩ :: earlier
      else start :: kept
    | [] => [start]) []).reverse

/-- No start is known to be a whole stretch. -/
def unfinished (starts : Starts) : Starts :=
  starts.map fun starts => starts.map fun start => ⟨start.bytes, false⟩

/-- Whether going on changes nothing. -/
def isOver (starts : Starts) : Bool := starts.all fun starts => starts.all fun start => !start.whole

/-- The starts where anything may follow the whole stretches among them. -/
def followedByAny (starts : List Start) : Starts :=
  if starts.any fun start => start.bytes.isEmpty then none else unfinished (some starts)

/-- The starts with what follows the whole stretches among them. -/
def followedBy (starts next : Starts) : Starts :=
  match starts, next with
  | none, _ => none
  | some starts, none => followedByAny starts
  | some starts, some next =>
    if maxCount < starts.length * next.length then followedByAny starts
    else
      let longer := starts.flatMap fun start =>
        if start.whole then next.map fun other => ⟨start.bytes ++ other.bytes, other.whole⟩
        else [start]
      some ((distinct longer).map (Start.cut maxLength))

/-- The starts of either kind, those of the first kind being preferred. -/
def or (starts others : Starts) : Starts :=
  match starts, others with
  | some starts, some others =>
    if starts.length + others.length ≤ maxCount then some (distinct (starts ++ others))
    else
      let short := distinct (starts.map (Start.cut shortLength))
      let shortOthers := distinct (others.map (Start.cut shortLength))
      if short.length + shortOthers.length ≤ maxCount then some (distinct (short ++ shortOthers))
      else none
  | _, _ => none

/-- The starts of so many stretches in a row. -/
def inRow (starts : Starts) : Nat → Starts
  | 0 => nothing
  | count + 1 =>
    let earlier := inRow starts count
    if earlier.isOver then earlier else earlier.followedBy starts

def repeated (starts : Starts) (least : Nat) (most : Option Nat) (greedy : Bool) : Starts :=
  if least = 0 then
    let present := if most = some 1 then starts else starts.unfinished
    if greedy then present.or nothing else nothing.or present
  else
    let several := starts.inRow (min least maxTimes)
    if most = some least && least ≤ maxTimes then several else several.unfinished

/-- The starts of one character of a set. -/
def ofSet (set : CharSet) : Starts :=
  if maxChars < total (set.ranges.map fun (first, last) => last - first + 1) then none
  else
    some (set.ranges.flatMap fun (first, last) =>
      (List.range (last - first + 1)).map fun offset =>
        ⟨String.utf8EncodeChar (Char.ofNat (first + offset)), true⟩)

/-- The starts of a pattern's stretches. -/
def ofPattern : Pattern → Starts
  | .empty | .edge _ _ => nothing
  | .text chars => some [Start.cut maxLength ⟨chars.flatMap String.utf8EncodeChar, true⟩]
  | .one among _ => ofSet among
  | .sequence parts =>
    (parts.map fun part => ofPattern part).foldl (fun starts next =>
      if starts.isOver then starts else starts.followedBy next) nothing
  | .choice parts => (parts.map fun part => ofPattern part).foldl or (some [])
  | .repeated body least most greedy => (ofPattern body).repeated least most greedy
  | .group body => ofPattern body

/-! ## Looking up -/

/-- The starts without those that begin with an earlier one. -/
def leading (starts : List Start) : List Start :=
  (starts.foldl (fun kept start =>
    if kept.any fun (other : Start) => other.bytes.isPrefixOf start.bytes then kept
    else start :: kept) []).reverse

/-- The bytes that all starts begin with. -/
def common : List Start → List UInt8
  | [] => []
  | first :: others => others.foldl (fun bytes start =>
      ((List.zip bytes start.bytes).takeWhile fun (a, b) => a = b).map (·.1)) first.bytes

/-- Characters that occur often in texts of all kinds. -/
def oftenSeen : String := "\n\r (),-./0129:_abcdefghilmnoprstuvxy|"

def isRare (byte : UInt8) : Bool := !oftenSeen.toList.any fun c => c.toNat = byte.toNat

/-- To which lengths starts are cut, one after the other, and how many of them are few enough not to
be cut. -/
def cuts : List (Nat × Nat) := [(5, 10), (4, 10), (3, 64), (2, 64), (1, 10)]

/-- Starts cut shorter and shorter as long as there are too many of them. -/
def shortened : List (Nat × Nat) → List Start → List Start
  | [], starts => starts
  | (length, count) :: rest, starts =>
    if starts.length ≤ count then starts
    else shortened rest (leading (starts.map (Start.cut length)))

/-- Whether whole stretches are looked up as they are, and not by some bytes that they start with:
one byte that is rare, several that they have in common, or the first ones of many stretches. -/
def isLookedUp (starts : List Start) : Bool :=
  let all := leading starts
  let shared := (common all).length
  if starts.isEmpty || !starts.all fun start => start.whole && !start.bytes.isEmpty then false
  else if 1 < starts.length && shared ≤ 3 && (common all).head?.any isRare then
    all.all fun start => start.bytes.length ≤ 1
  else if 4 < shared || (1 < shared && 16 < all.length) then all.length = 1
  else
    let short := shortened cuts all
    short.all (·.whole) || short.any (fun start => start.bytes.length ≤ 2) || 64 < short.length

end Starts

/-- Whether a pattern has neither groups nor edges. -/
def isBare : Pattern → Bool
  | empty | text _ | one _ _ => true
  | edge _ _ | group _ => false
  | sequence parts | choice parts => (parts.map fun part => part.isBare).all id
  | repeated body _ _ _ => body.isBare

/-- How many texts a choice has to hold for it to be looked up in a table. -/
def tableSize : Nat := 3000

/-- Whether a pattern is a choice of so many texts that they are looked up in a table. -/
def isTable : Pattern → Bool
  | choice parts =>
    tableSize ≤ parts.length && parts.all fun part => match part with
      | text _ => true
      | _ => false
  | _ => false

/-- Whether a pattern's stretches are looked up as they are. -/
def isLookedUp (pattern : Pattern) : Bool :=
  pattern.isTable || (pattern.isBare && (Starts.ofPattern pattern).any Starts.isLookedUp)

end Toolpath.Pattern
