/-! # Sets of characters

A set is a list of ranges of code points in order, with gaps between them. The code points of
surrogates are no characters: the neighbours of a range step over them.
-/

namespace Toolpath

structure CharSet where
  /-- The first and the last code point of each range. -/
  ranges : List (Nat × Nat)
  /-- Whether the set is known to hold every letter in both cases or not at all. -/
  caseless : Bool
  deriving DecidableEq, Repr

namespace CharSet

def maxCode : Nat := 0x10ffff

def succ (code : Nat) : Nat := if code = 0xd7ff then 0xe000 else code + 1

def pred (code : Nat) : Nat := if code = 0xe000 then 0xd7ff else code - 1

def ordered (a b : Nat) : Nat × Nat := if a ≤ b then (a, b) else (b, a)

/-- Adds a range behind the earlier ones, which come last first; ranges that touch become one. -/
def append (earlier : List (Nat × Nat)) (range : Nat × Nat) : List (Nat × Nat) :=
  match earlier with
  | (first, last) :: rest =>
    if range.1 ≤ last + 1 then (first, max last range.2) :: rest else range :: earlier
  | [] => [range]

/-- Ranges in order, with gaps between them. -/
def tidy (ranges : List (Nat × Nat)) : List (Nat × Nat) :=
  let sorted := ranges.mergeSort fun a b => a.1 < b.1 || (a.1 = b.1 && a.2 ≤ b.2)
  (sorted.foldl append []).reverse

def empty : CharSet := ⟨[], true⟩

def ofRanges (ranges : List (Nat × Nat)) : CharSet := ⟨tidy ranges, ranges.isEmpty⟩

def all : CharSet := ⟨[(0, maxCode)], true⟩

def contains (set : CharSet) (c : Char) : Bool :=
  set.ranges.any fun (first, last) => first ≤ c.toNat && c.toNat ≤ last

def insert (set : CharSet) (first last : Char) : CharSet :=
  ⟨tidy (set.ranges ++ [(first.toNat, last.toNat)]), false⟩

def union (a b : CharSet) : CharSet :=
  if b.ranges.isEmpty || a.ranges = b.ranges then a
  else ⟨tidy (a.ranges ++ b.ranges), a.caseless && b.caseless⟩

def intersect (a b : CharSet) : CharSet :=
  if a.ranges.isEmpty then a
  else if b.ranges.isEmpty then empty
  else
    let pieces := a.ranges.flatMap fun (first, last) => b.ranges.filterMap fun (low, high) =>
      if max first low ≤ min last high then some (max first low, min last high) else none
    ⟨pieces, a.caseless && b.caseless⟩

/-- What is left of a range without another one. -/
def without (range other : Nat × Nat) : List (Nat × Nat) :=
  if range.2 < other.1 || other.2 < range.1 then [range]
  else
    (if range.1 < other.1 then [ordered range.1 (pred other.1)] else []) ++
      (if other.2 < range.2 then [ordered (succ other.2) range.2] else [])

def difference (a b : CharSet) : CharSet :=
  if a.ranges.isEmpty || b.ranges.isEmpty then a
  else
    let pieces := b.ranges.foldl (fun pieces other => pieces.flatMap (without · other)) a.ranges
    ⟨pieces, a.caseless && b.caseless⟩

def symmetricDifference (a b : CharSet) : CharSet := (a.union b).difference (a.intersect b)

def between (before after : Nat × Nat) : Nat × Nat := ordered (succ before.2) (pred after.1)

def complement (set : CharSet) : CharSet :=
  match set.ranges, set.ranges.getLast? with
  | first :: rest, some last =>
    let front := if 0 < first.1 then [(0, pred first.1)] else []
    let gaps := List.zipWith between (first :: rest) rest
    let back := if last.2 < maxCode then [ordered (succ last.2) maxCode] else []
    ⟨front ++ gaps ++ back, set.caseless⟩
  | _, _ => all

/-- The part of a range that lies in another one, moved up or down. -/
def moved (range within : Nat × Nat) (move : Nat → Nat) : Option (Nat × Nat) :=
  let first := max range.1 within.1
  let last := min range.2 within.2
  if first ≤ last then some (move first, move last) else none

/-- A set with its basic letters in both cases. -/
def withBothCases (set : CharSet) : CharSet :=
  if set.caseless then set
  else
    let lower := ('a'.toNat, 'z'.toNat)
    let upper := ('A'.toNat, 'Z'.toNat)
    let added := set.ranges.flatMap fun range =>
      (moved range lower (· - 32)).toList ++ (moved range upper (· + 32)).toList
    ⟨tidy (set.ranges ++ added), true⟩

/-- Whether a set holds only basic characters. -/
def isBasic (set : CharSet) : Bool := set.ranges.all fun (_, last) => last < 0x80

def only? (set : CharSet) : Option Char :=
  match set.ranges with
  | [(first, last)] => if first = last then some (Char.ofNat first) else none
  | _ => none

def ofPairs (pairs : List (Char × Char)) : CharSet :=
  ofRanges (pairs.map fun (first, last) => (first.toNat, last.toNat))

def named? : String → Option CharSet
  | "alnum" => some (ofPairs [('0', '9'), ('A', 'Z'), ('a', 'z')])
  | "alpha" => some (ofPairs [('A', 'Z'), ('a', 'z')])
  | "ascii" => some (ofPairs [('\x00', '\x7f')])
  | "blank" => some (ofPairs [('\t', '\t'), (' ', ' ')])
  | "cntrl" => some (ofPairs [('\x00', '\x1f'), ('\x7f', '\x7f')])
  | "digit" => some (ofPairs [('0', '9')])
  | "graph" => some (ofPairs [('!', '~')])
  | "lower" => some (ofPairs [('a', 'z')])
  | "print" => some (ofPairs [(' ', '~')])
  | "punct" => some (ofPairs [('!', '/'), (':', '@'), ('[', '\x60'), ('\x7b', '~')])
  | "space" => some (ofPairs [('\t', '\r'), (' ', ' ')])
  | "upper" => some (ofPairs [('A', 'Z')])
  | "word" => some (ofPairs [('0', '9'), ('A', 'Z'), ('_', '_'), ('a', 'z')])
  | "xdigit" => some (ofPairs [('0', '9'), ('A', 'F'), ('a', 'f')])
  | _ => none

def digit : CharSet := ofPairs [('0', '9')]

/-- White space of the basic characters. -/
def space : CharSet := ofPairs [('\t', '\r'), (' ', ' ')]

/-- Letters, digits and the underscore. -/
def word : CharSet := ofPairs [('0', '9'), ('A', 'Z'), ('_', '_'), ('a', 'z')]

end CharSet

end Toolpath
