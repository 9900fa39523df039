import Toolpath.Shell.Pattern
import Toolpath.Shell.Pattern.Bytes

/-! # How much room a pattern takes

A pattern is laid out as a web of states over bytes, with its bounded repetitions written out, once
for reading forward and once for reading backward. A state takes 32 bytes, a way out of a state with
several of them eight more, and a branch of a fork four more. Patterns that take too much room are
refused.
-/

namespace Toolpath.Pattern

inductive Direction where
  | forward
  | backward
  deriving DecidableEq, Repr

def stateRoom : Nat := 32

/-- The room of a way out of a state that has several. -/
def wayRoom : Nat := 8

def branchRoom : Nat := 4

/-- The states of a pattern: how much room they take, and whether the last one is a fork, to which
going on adds a branch. -/
structure Layout where
  room : Nat
  endsInFork : Bool := false
  deriving DecidableEq, Repr

namespace Layout

/-- The room with a way to what follows. -/
def leading (layout : Layout) : Nat := layout.room + if layout.endsInFork then branchRoom else 0

def state : Layout := ⟨stateRoom, false⟩

def append (first second : Layout) : Layout := ⟨first.leading + second.room, second.endsInFork⟩

def inSequence : List Layout → Layout
  | [] => state
  | first :: others => others.foldl append first

def copies (layout : Layout) : Nat → Layout
  | 0 => state
  | count + 1 => ⟨count * layout.leading + layout.room, layout.endsInFork⟩

/-- A fork whose branches meet again. -/
def inChoice (layouts : List Layout) : Layout :=
  ⟨total (layouts.map leading) + 2 * stateRoom + layouts.length * branchRoom, false⟩

def optional (layout : Layout) : Layout :=
  ⟨layout.leading + 2 * stateRoom + 2 * branchRoom, false⟩

/-- A layout that may be passed again and again, at least once. -/
def again (layout : Layout) : Layout :=
  ⟨layout.leading + stateRoom + branchRoom, true⟩

/-- A layout so many times or more often. What may be empty takes a detour if it may be left out. -/
def atLeast (layout : Layout) (canBeEmpty : Bool) : Nat → Layout
  | 0 => if canBeEmpty then optional (again layout) else again layout
  | 1 => again layout
  | count + 2 => (copies layout (count + 1)).append (again layout)

/-- A layout so many times, and up to so many times more. -/
def bounded (layout : Layout) (least more : Nat) : Layout :=
  if more = 0 then copies layout least
  else if least = 0 && more = 1 then optional layout
  else
    let step := layout.leading + stateRoom + 2 * branchRoom
    ⟨(copies layout least).leading + more * step + stateRoom, false⟩

end Layout

/-! ## Sets -/

/-- The states for one character of a set. Reading forward, states with the same rest are one state;
reading backward, those with the same beginning. -/
def setLayout (direction : Direction) (set : CharSet) : Layout :=
  let room :=
    if set.isBasic then 2 * stateRoom + set.ranges.length * wayRoom
    else
      match direction with
      | .forward =>
        stateRoom + total ((Bytes.points set).map fun blocks =>
          stateRoom + (Bytes.gathered blocks).length * wayRoom)
      | .backward =>
        2 * stateRoom + (Bytes.ofSet set).length * branchRoom +
          (Bytes.beginnings set).length * stateRoom
  ⟨room, false⟩

/-! ## Choices of texts -/

/-- The ways out of a point where texts part, by their bytes. -/
abbrev Ways := List (UInt8 × List (List UInt8))

/-- A point where texts part. A text that ends there closes the ways that are open, and the texts
after it open new ones. -/
structure Parting where
  closed : List Ways := []
  opened : Ways := []

namespace Parting

def along (byte : UInt8) (rest : List UInt8) : Ways → Ways
  | [] => [(byte, [rest])]
  | (other, rests) :: ways =>
    if byte = other then (other, rest :: rests) :: ways else (other, rests) :: along byte rest ways

def add (parting : Parting) : List UInt8 → Parting
  | byte :: rest => { parting with opened := along byte rest parting.opened }
  | [] =>
    let hasWays := !parting.opened.isEmpty || parting.closed.any fun ways => !ways.isEmpty
    if !hasWays && !parting.closed.isEmpty then parting
    else { closed := parting.opened :: parting.closed, opened := [] }

def ofTexts (texts : List (List UInt8)) : Parting := texts.foldl add {}

/-- The ways that lie beside each other. -/
def bundles (parting : Parting) : List Ways :=
  (parting.opened :: parting.closed).filter fun ways => !ways.isEmpty

/-- The room of a parting: a fork between its bundles and the ends of texts. -/
def room (parting : Parting) : Nat :=
  let bundleRoom (ways : Ways) : Nat :=
    if ways.length = 1 then stateRoom else stateRoom + ways.length * wayRoom
  if parting.bundles.isEmpty then 0
  else
    total (parting.bundles.map bundleRoom) + stateRoom +
      (parting.bundles.length + parting.closed.length) * branchRoom

/-- The texts that are left after each way. -/
def rests (parting : Parting) : List (List (List UInt8)) :=
  parting.bundles.flatMap fun ways => ways.map fun way => way.2.reverse

end Parting

/-- The room of all partings of some groups of texts, at most a number of bytes long. -/
def partingsRoom (room : Nat) : Nat → List (List (List UInt8)) → Nat
  | 0, _ => room
  | bytes + 1, groups =>
    let partings := groups.map Parting.ofTexts
    let rests := partings.flatMap Parting.rests
    let room := room + total (partings.map Parting.room)
    if rests.isEmpty then room else partingsRoom room bytes rests

def textBytes (direction : Direction) (chars : List Char) : List UInt8 :=
  let bytes := chars.flatMap String.utf8EncodeChar
  if direction = .forward then bytes else bytes.reverse

def chars? : Pattern → Option (List Char)
  | text chars => some chars
  | _ => none

/-- The states for one of several texts. -/
def textsLayout (direction : Direction) (texts : List (List Char)) : Layout :=
  let bytes := texts.map (textBytes direction)
  let longest := (bytes.map List.length).foldl max 0
  ⟨partingsRoom stateRoom (longest + 1) [bytes], false⟩

/-! ## Patterns -/

def layout (direction : Direction) : Pattern → Layout
  | empty | edge _ _ => .state
  | text chars => ⟨chars.foldl (fun room c => room + c.utf8Size * stateRoom) 0, false⟩
  | one among _ => setLayout direction among
  | sequence parts =>
    let layouts := parts.map fun part => part.layout direction
    .inSequence (if direction = .forward then layouts else layouts.reverse)
  | choice parts =>
    match parts.mapM chars? with
    | some texts => textsLayout direction texts
    | none => .inChoice (parts.map fun part => part.layout direction)
  | repeated body least most _ =>
    let inner := body.layout direction
    match most with
    | none => inner.atLeast (body.lengths.least.all (· = 0)) least
    | some most => inner.bounded least (most - least)
  | group body =>
    let inner := body.layout direction
    if direction = .forward then ⟨2 * stateRoom + inner.leading, false⟩ else inner

/-- Whether a stretch of the pattern can only stand where the text starts, or only where it ends,
seen in a direction. -/
def isAnchored (direction : Direction) : Pattern → Bool
  | empty | text _ | one _ _ => false
  | edge condition _ => condition = if direction = .forward then .textStart else .textEnd
  | sequence parts =>
    let inner := parts.map fun part => (part.isAnchored direction, part.lengths.most == some 0)
    let ordered := if direction = .forward then inner else inner.reverse
    let front := ordered.takeWhile (·.2)
    ((front ++ (ordered.drop front.length).take 1).map (·.1)).any id
  | choice parts => (parts.map fun part => part.isAnchored direction).all id
  | repeated body least _ _ => 0 < least && body.isAnchored direction
  | group body => body.isAnchored direction

/-- The room of the states that pass over the text before a stretch. -/
def approachRoom (direction : Direction) (pattern : Pattern) : Nat :=
  if pattern.isAnchored direction then stateRoom
  else (Layout.again ⟨2 * stateRoom + wayRoom, false⟩).leading

/-- The room of all states for a direction. The whole pattern counts as a group. -/
def room (direction : Direction) (pattern : Pattern) : Nat :=
  pattern.approachRoom direction + (pattern.group.layout direction).leading + stateRoom

def maxRoom : Nat := 10485760

end Toolpath.Pattern
