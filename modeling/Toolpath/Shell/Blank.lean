/-! # Blanks

The characters that count as white space in any script, and texts without them at their ends.
-/

namespace Toolpath.Blank

/-- The first and the last code point of each run of blanks. -/
def ranges : List (Nat × Nat) := [
  (0x09, 0x0d), (0x20, 0x20), (0x85, 0x85), (0xa0, 0xa0), (0x1680, 0x1680), (0x2000, 0x200a),
  (0x2028, 0x2029), (0x202f, 0x202f), (0x205f, 0x205f), (0x3000, 0x3000)]

def isBlank (c : Char) : Bool := ranges.any fun (first, last) => first ≤ c.toNat && c.toNat ≤ last

def trimLeft (text : List Char) : List Char := text.dropWhile isBlank

/-- A text without blanks at its ends. -/
def trim (text : List Char) : List Char := (trimLeft (trimLeft text).reverse).reverse

end Toolpath.Blank
