/-! # The exact content of a float

Every finite binary64 number is a whole number of units of `2 ^ -1074`, so reading and writing
decimal text needs natural numbers only. This module splits a float into its sign and its units,
puts one back together, and rounds a quotient of naturals to the nearest float. It does not know
any decimal notation.
-/

namespace Toolpath

/-- The quotient `num / den` rounded to the nearest natural number, a half going to the even one. -/
def roundHalfEven (num den : Nat) : Nat :=
  let quotient := num / den
  let twice := 2 * (num % den)
  if twice < den then quotient
  else if den < twice then quotient + 1
  else quotient + quotient % 2

/-- What a float stands for; a finite one is `units * 2 ^ -1074`, negated if `negative`. -/
inductive Exact where
  | nan
  | infinite (negative : Bool)
  | finite (negative : Bool) (units : Nat)
  deriving DecidableEq, Repr

def tenTo (power : Nat) : Nat := Nat.pow 10 power

namespace Exact

/-- Units that make one whole: a finite magnitude is `units / unitsPerOne`. -/
def unitsPerOne : Nat := 1 <<< 1074

/-- The least number of units that is beyond every finite float. -/
def unitsLimit : Nat := 1 <<< 2098

def signBit : Nat := 1 <<< 63

/-- The value of the lowest exponent bit, above the fraction bits. -/
def exponentBit : Nat := 1 <<< 52

/-- The content of a float, read off its sign, exponent and fraction bits. -/
def ofFloat (value : Float) : Exact :=
  let bits := value.toBits.toNat
  let negative := decide (signBit ≤ bits)
  let exponent := bits / exponentBit % 2048
  let fraction := bits % exponentBit
  if exponent = 2047 then
    if fraction = 0 then infinite negative else nan
  else if exponent = 0 then finite negative fraction
  else finite negative ((exponentBit + fraction) <<< (exponent - 1))

/-- Spacing, as a power of two, of the float grid around a magnitude of `units`. -/
def gridShift (units : Nat) : Nat := units.log2 - 52

/-- Exponent and fraction bits of a magnitude that lies on the float grid.

The leading bit of a normal significand carries into the exponent, so one sum serves normal and
subnormal magnitudes alike. -/
def magnitudeBits (units : Nat) : Nat :=
  gridShift units * exponentBit + units >>> gridShift units

def floatOfBits (negative : Bool) (magnitude : Nat) : Float :=
  Float.ofBits (UInt64.ofNat (if negative then signBit + magnitude else magnitude))

/-- The float with this content, provided the units lie on the float grid. -/
def toFloat : Exact → Float
  | nan => Float.ofBits 0x7ff8000000000000
  | infinite negative => floatOfBits negative (2047 * exponentBit)
  | finite negative units => floatOfBits negative (magnitudeBits units)

/-- The units of the float nearest to `num / den`, a half going to the even neighbour; nothing
bounds the result, so it may be beyond `unitsLimit`. -/
def nearestUnits (num den : Nat) : Nat :=
  let spacing := 1 <<< gridShift (num * unitsPerOne / den)
  roundHalfEven (num * unitsPerOne) (den * spacing) * spacing

/-- The float nearest to `num / den`, or the infinity of that sign when the quotient is too large. -/
def nearest (negative : Bool) (num den : Nat) : Exact :=
  let units := nearestUnits num den
  if units < unitsLimit then finite negative units else infinite negative

end Exact

end Toolpath
