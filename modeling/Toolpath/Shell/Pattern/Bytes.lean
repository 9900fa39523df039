import Toolpath.Shell.Pattern.CharSet

/-! # Characters as bytes

A range of characters, written as bytes, falls into blocks: in each block the first byte runs
through a range, and so does each byte after it, independently of the others.
-/

namespace Toolpath.Bytes

def ofCode (code : Nat) : List UInt8 := String.utf8EncodeChar (Char.ofNat code)

/-- The range of each byte of a block. -/
abbrev Block := List (UInt8 × UInt8)

/-- The greatest code points of characters with one, two and three bytes: the characters of one block
have equally many bytes. -/
def sizeBounds : List Nat := [0x7f, 0x7ff, 0xffff]

/-- Where a range falls apart for the last bytes to run through all their values: the first code
point of the second piece. -/
def alignedSplit? (first last : Nat) (bytes : Nat) : Option Nat :=
  let unit := 1 <<< (6 * bytes)
  if first / unit = last / unit then none
  else if first % unit ≠ 0 then some ((first / unit + 1) * unit)
  else if last % unit ≠ unit - 1 then some (last / unit * unit)
  else none

/-- The first code point of the second piece, if a range has to be split. -/
def split? (first last : Nat) : Option Nat :=
  ((sizeBounds.find? fun bound => first ≤ bound && bound < last).map (· + 1)) <|>
    (if last < 0x80 then none else [1, 2, 3].findSome? (alignedSplit? first last))

/-- The pieces of a range, at most so many splits deep. Surrogates are no characters. -/
def pieces : Nat → Nat × Nat → List (Nat × Nat)
  | 0, range => [range]
  | depth + 1, (first, last) =>
    if first < 0xe000 && 0xd7ff < last then
      pieces depth (first, 0xd7ff) ++ pieces depth (0xe000, last)
    else
      match split? first last with
      | some second => pieces depth (first, second - 1) ++ pieces depth (second, last)
      | none => [(first, last)]

/-- The blocks of a range of code points. No range is split more than eleven splits deep: once at
the surrogates, three times by size and at most twice for each byte after the first. -/
def blocks (range : Nat × Nat) : List Block :=
  (pieces 16 range).map fun (first, last) => List.zip (ofCode first) (ofCode last)

def ofSet (set : CharSet) : List Block := set.ranges.flatMap blocks

/-- Blocks in order, gathered by their first byte: the first byte and what follows it. -/
def gathered (blocks : List Block) : List ((UInt8 × UInt8) × List Block) :=
  (blocks.foldl (fun (groups : List ((UInt8 × UInt8) × List Block)) block =>
    match block, groups with
    | [], _ => groups
    | head :: tail, (same, tails) :: earlier =>
      if head = same then (same, tail :: tails) :: earlier else (head, [tail]) :: groups
    | head :: tail, [] => [(head, [tail])]) []).reverse.map fun (head, tails) =>
      (head, tails.reverse)

/-- All the lists of blocks that are left after a number of bytes at most. -/
def leftovers : Nat → List (List Block) → List (List Block)
  | 0, _ => []
  | bytes + 1, lists =>
    let next := lists.flatMap fun blocks => (gathered blocks).map (·.2)
    lists ++ leftovers bytes (next.filter fun blocks => blocks.any fun block => !block.isEmpty)

/-- The points where reading a set's characters byte by byte may stand: what is left to read differs
between any two of them. -/
def points (set : CharSet) : List (List Block) := (leftovers 4 [ofSet set]).eraseDups

/-- The beginnings of the blocks of a set, each of them once. -/
def beginnings (set : CharSet) : List Block :=
  ((ofSet set).flatMap fun block =>
    (List.range block.length).map fun last => block.take (last + 1)).eraseDups

end Toolpath.Bytes
