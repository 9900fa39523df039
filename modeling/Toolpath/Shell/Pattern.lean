import Toolpath.Shell.Pattern.Edge

/-! # Patterns

A pattern describes stretches of a text. Patterns are put together by functions that keep them
simple: what is written one after the other is one sequence, characters next to each other are one
text, alternatives of single characters are one set, and what all alternatives begin with stands
before them.
-/

namespace Toolpath

/-- A description of stretches of a text. -/
inductive Pattern where
  /-- The empty stretch. -/
  | empty
  /-- Certain characters, one after the other. -/
  | text (chars : List Char)
  /-- One character of a set, which may have been described as a set of bytes. -/
  | one (among : CharSet) (asBytes : Bool)
  /-- The empty stretch at certain positions. Words are words of any script or of the basic
  characters. -/
  | edge (condition : Edge) (anyScript : Bool)
  | sequence (parts : List Pattern)
  | choice (parts : List Pattern)
  /-- Several stretches in a row, as many as the bounds allow. -/
  | repeated (body : Pattern) (least : Nat) (most : Option Nat) (greedy : Bool)
  /-- A group of its own, whose stretch may be asked for. -/
  | group (body : Pattern)

namespace Pattern

/-! ## Comparing -/

mutual

/-- Whether two patterns are built in the same way. No group is the same as another one. -/
def same : Pattern → Pattern → Bool
  | .empty, .empty => true
  | .text a, .text b => a = b
  | .one a ofBytes, .one b asBytes => a.ranges = b.ranges && ofBytes = asBytes
  | .edge a ofScripts, .edge b anyScript => a = b && ofScripts = anyScript
  | .sequence a, .sequence b => sameAll a b
  | .choice a, .choice b => sameAll a b
  | .repeated a least most greedy, .repeated b low high eager =>
    least = low && most = high && greedy = eager && a.same b
  | _, _ => false

/-- Whether two lists hold the same patterns. -/
def sameAll : List Pattern → List Pattern → Bool
  | [], [] => true
  | a :: as, b :: bs => if a.same b then sameAll as bs else false
  | _, _ => false

end

/-! ## Lengths -/

/-- The sum of two lengths, if both are known. -/
def added (a b : Option Nat) : Option Nat := a.bind fun a => b.map (a + ·)

/-- The least and the greatest length of a stretch, in bytes, if they are known. -/
structure Lengths where
  least : Option Nat
  most : Option Nat
  deriving DecidableEq, Repr

/-- The lengths of a stretch. Where a part cannot occur its lengths are not known, and neither are
those of what it is a part of. -/
def lengths : Pattern → Lengths
  | empty => ⟨some 0, some 0⟩
  | text chars =>
    let size := chars.foldl (fun size c => size + c.utf8Size) 0
    ⟨some size, some size⟩
  | one among _ =>
    ⟨among.ranges.head?.map fun range => (Char.ofNat range.1).utf8Size,
      among.ranges.getLast?.map fun range => (Char.ofNat range.2).utf8Size⟩
  | edge _ _ => ⟨some 0, some 0⟩
  | sequence parts =>
    let inner := parts.map fun part => part.lengths
    ⟨(inner.map Lengths.least).foldl added (some 0), (inner.map Lengths.most).foldl added (some 0)⟩
  | choice parts =>
    let inner := parts.map fun part => part.lengths
    ⟨(inner.mapM Lengths.least).bind List.min?, (inner.mapM Lengths.most).bind List.max?⟩
  | repeated body least most _ =>
    let inner := body.lengths
    ⟨inner.least.map (least * ·), most.bind fun most => inner.most.map (most * ·)⟩
  | group body => body.lengths

/-! ## Putting patterns together -/

/-- One character of a set; a set of one character is a text. -/
def oneOf (among : CharSet) (asBytes : Bool) : Pattern :=
  match among.only? with
  | some c => .text [c]
  | none => if among.ranges.isEmpty then .one .empty true else .one among asBytes

/-- What a pattern adds to a sequence. -/
def asParts : Pattern → List Pattern
  | empty => []
  | sequence parts => parts
  | other => [other]

/-- A sequence that is being put together: its parts, the last one first, and the characters after
them, the last one first. -/
structure Gathered where
  parts : List Pattern := []
  chars : List Char := []

namespace Gathered

def all (gathered : Gathered) : List Pattern :=
  if gathered.chars.isEmpty then gathered.parts else .text gathered.chars.reverse :: gathered.parts

def add (gathered : Gathered) : Pattern → Gathered
  | .text chars => { gathered with chars := chars.reverse ++ gathered.chars }
  | part => ⟨part :: gathered.all, []⟩

end Gathered

def inSequence (parts : List Pattern) : Pattern :=
  let gathered := parts.foldl (fun gathered part => part.asParts.foldl Gathered.add gathered) {}
  match gathered.all with
  | [] => .empty
  | [only] => only
  | parts => .sequence parts.reverse

/-- What a pattern adds to a choice. -/
def asAlternatives : Pattern → List Pattern
  | choice parts => parts
  | other => [other]

def char? : Pattern → Option Char
  | text [c] => some c
  | _ => none

def set? : Pattern → Option CharSet
  | one among _ => some among
  | _ => none

def parts? : Pattern → Option (List Pattern)
  | sequence parts => some parts
  | _ => none

/-- How many parts at the front of two lists are the same. -/
def commonLength (a b : List Pattern) : Nat :=
  ((List.zip a b).takeWhile fun (x, y) => x.same y).length

/-- The set of characters that alternatives stand for, if each of them stands for one character or
each for a set. -/
def asSet? (alternatives : List Pattern) : Option CharSet :=
  match alternatives.mapM char? with
  | some chars => some (.ofPairs (chars.map fun c => (c, c)))
  | none => (alternatives.mapM set?).map fun sets => sets.foldl CharSet.union .empty

/-- The alternatives split behind the parts that all of them begin with, if there are such. -/
def split? (alternatives : List Pattern) : Option (List Pattern × List (List Pattern)) :=
  match alternatives.mapM parts? with
  | some (first :: others) =>
    let count := others.foldl (fun count parts => min count (commonLength first parts)) first.length
    if count = 0 then none
    else some (first.take count, (first :: others).map (List.drop count))
  | _ => none

/-- One of several patterns. The limit on the steps is not reached if it is the size of the
alternatives: each step takes parts away from all of them. -/
def eitherOf : Nat → List Pattern → Pattern
  | 0, parts => .choice parts
  | limit + 1, parts =>
    match parts.flatMap asAlternatives with
    | [only] => only
    | alternatives =>
      match asSet? alternatives with
      | some set => oneOf set false
      | none =>
        match split? alternatives with
        | some (front, rests) => inSequence (front ++ [eitherOf limit (rests.map inSequence)])
        | none => .choice alternatives

def total (numbers : List Nat) : Nat := numbers.foldl (· + ·) 0

/-- How many patterns there are in a pattern, with itself. -/
def size : Pattern → Nat
  | empty | text _ | one _ _ | edge _ _ => 1
  | sequence parts | choice parts => 1 + total (parts.map fun part => part.size)
  | repeated body _ _ _ | group body => 1 + body.size

def oneAmong (parts : List Pattern) : Pattern := eitherOf (1 + total (parts.map size)) parts

/-- A pattern several times in a row. What can only be empty counts once. -/
def times (body : Pattern) (least : Nat) (most : Option Nat) (greedy : Bool) : Pattern :=
  let onlyEmpty := body.lengths.most = some 0
  let least := if onlyEmpty then min least 1 else least
  let most := if onlyEmpty then some (most.elim 1 (min 1)) else most
  if least = 0 && most = some 0 then .empty
  else if least = 1 && most = some 1 then body
  else .repeated body least most greedy

/-- Whether a pattern asks for words of any script. -/
def asksForScripts : Pattern → Bool
  | empty | text _ | one _ _ => false
  | edge _ anyScript => anyScript
  | sequence parts | choice parts => (parts.map fun part => part.asksForScripts).any id
  | repeated body _ _ _ | group body => body.asksForScripts

end Pattern

end Toolpath
