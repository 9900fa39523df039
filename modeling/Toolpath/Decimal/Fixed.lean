import Toolpath.Decimal.Exact

/-! # Fixed places, as short as possible

The text of a float with at most a given number of decimal places: the exact value rounded half to
even, without trailing zeros, without a point that nothing follows, without a zero before the
point, and without a minus before zero.
-/

namespace Toolpath.Fixed

/-- The most decimal places that a number can be written with. -/
def maxPlaces : Nat := 65535

/-- Units of `10 ^ -places` in a magnitude, rounded half to even. -/
def scaled (units places : Nat) : Nat :=
  roundHalfEven (units * tenTo places) Exact.unitsPerOne

/-- Drops trailing zeros of a scaled number together with the places that they fill. -/
def trimZeros : Nat → Nat → Nat × Nat
  | count, 0 => (count, 0)
  | count, places + 1 => if count % 10 = 0 then trimZeros (count / 10) places else (count, places + 1)

/-- A whole number of `10 ^ -places` in decimal, without the zero before the point. -/
def plain (count places : Nat) : List Char :=
  if places = 0 then Nat.toDigits 10 count
  else
    let whole := count / tenTo places
    let head := if whole = 0 then [] else Nat.toDigits 10 whole
    head ++ '.' :: (Nat.toDigits 10 (count % tenTo places)).leftpad places '0'

/-- Decimal places after which every float ends: a unit is a whole number of `10 ^ -1074`. -/
def filledPlaces : Nat := 1074

/-- The text of a finite magnitude of `units`, rounded to `places`; places that only a zero could
fill are left out from the start. -/
def magnitude (negative : Bool) (units places : Nat) : List Char :=
  let rounded := min places filledPlaces
  let (count, kept) := trimZeros (scaled units rounded) rounded
  if negative && count != 0 then '-' :: plain count kept else plain count kept

/-- The characters of a number with at most `places` decimal places. -/
def chars (places : Nat) (value : Float) : List Char :=
  match Exact.ofFloat value with
  | .nan => ['N', 'a', 'N']
  | .infinite negative => if negative then ['-', 'i', 'n', 'f'] else ['i', 'n', 'f']
  | .finite negative units => magnitude negative units places

def text (places : Nat) (value : Float) : String := String.ofList (chars places value)

/-- The text of a number, unless it asks for more places than can be written. -/
def text? (places : Nat) (value : Float) : Option String :=
  if places ≤ maxPlaces then some (text places value) else none

end Toolpath.Fixed
