import Toolpath.Decimal.Exact

/-! # Shortest decimal digits

The fewest digits that read back as the same float, found on the coarsest decimal grid that has a
point among the reals that round to it. How the digits are laid out is a `Layout`, one value for
each place that prints a number.
-/

namespace Toolpath

/-- Which of two shortest decimals is taken when the float lies halfway between them. -/
inductive Tie where
  | up
  | even
  deriving DecidableEq, Repr

/-- The reals that round to one positive float, in quarters of a unit. -/
structure Rounding where
  low : Nat
  value : Nat
  high : Nat
  /-- Whether the ends themselves round to the float. -/
  closed : Bool
  deriving DecidableEq, Repr

namespace Rounding

/-- Quarters of a unit that make one whole. -/
def quartersPerOne : Nat := 4 * Exact.unitsPerOne

/-- Half the grid spacing to either side; below a power of two the spacing is halved. -/
def ofUnits (units : Nat) : Rounding :=
  let shift := Exact.gridShift units
  let spacing := 1 <<< shift
  let below := if units = Exact.exponentBit * spacing && 0 < shift then spacing else 2 * spacing
  { low := 4 * units - below
    value := 4 * units
    high := 4 * units + 2 * spacing
    closed := units / spacing % 2 = 0 }

/-- Whether the fraction `num / den` of quarters rounds to the float. -/
def holds (r : Rounding) (num den : Nat) : Bool :=
  if r.closed then decide (r.low * den ≤ num) && decide (num ≤ r.high * den)
  else decide (r.low * den < num) && decide (num < r.high * den)

/-- Distance of `num / den` from the float, times `den`. -/
def distance (r : Rounding) (num den : Nat) : Nat :=
  (num - r.value * den) + (r.value * den - num)

/-- Whether the upper of two neighbours is taken, `above` and `below` being their distances. -/
def takesUpper (tie : Tie) (lower above below : Nat) : Bool :=
  if above = below then tie = .up || lower % 2 = 1 else above < below

/-- The nearest multiple of `10 ^ power` that rounds to the float, if any: the coefficient. -/
def onGrid? (r : Rounding) (tie : Tie) (power : Int) : Option Nat :=
  let step := quartersPerOne * tenTo power.toNat
  let den := tenTo (-power).toNat
  let lower := r.value * den / step
  let upper := lower + 1
  let lowerHolds := 0 < lower && r.holds (lower * step) den
  let upperHolds := r.holds (upper * step) den
  if lowerHolds && upperHolds then
    let above := r.distance (upper * step) den
    let below := r.distance (lower * step) den
    some (if takesUpper tie lower above below then upper else lower)
  else if lowerHolds then some lower
  else if upperHolds then some upper
  else none

/-- The largest power of ten that can divide a float's shortest decimal. -/
def greatestPower : Int := 309

/-- Steps from the greatest power down to the finest grid that is ever needed. -/
def gridCount : Nat := 634

/-- Coefficient and power of ten of the shortest decimal of a float. -/
def shortest (r : Rounding) (tie : Tie) : Nat × Int :=
  let found := (List.range gridCount).findSome? fun (step : Nat) =>
    let power : Int := greatestPower - step
    (r.onGrid? tie power).map (·, power)
  found.getD (0, 0)

end Rounding

/-- How the digits of a number are laid out. -/
structure Layout where
  /-- Least power of ten of the leading digit that is written without an exponent, if bounded. -/
  least : Option Int
  /-- First power of ten of the leading digit that is written with an exponent, if bounded. -/
  beyond : Option Int
  /-- Whether a whole number written without an exponent ends in a point and a zero. -/
  point : Bool
  /-- Whether an exponent of zero or more has a plus sign. -/
  plus : Bool
  tie : Tie
  deriving DecidableEq, Repr

namespace Layout

/-- Whether a number whose leading digit stands at `lead` is written without an exponent. -/
def isPositional (l : Layout) (lead : Int) : Bool :=
  l.least.all (decide <| · ≤ lead) && l.beyond.all (decide <| lead < ·)

/-- Digits times a power of ten, without an exponent. -/
def positional (l : Layout) (digits : List Char) (power : Int) : List Char :=
  if 0 ≤ power then
    digits ++ List.replicate power.toNat '0' ++ (if l.point then ['.', '0'] else [])
  else
    let places := (-power).toNat
    if places < digits.length then
      digits.take (digits.length - places) ++ '.' :: digits.drop (digits.length - places)
    else '0' :: '.' :: digits.leftpad places '0'

/-- Digits times a power of ten, with one digit before the point and an exponent. -/
def scientific (l : Layout) (digits : List Char) (lead : Int) : List Char :=
  let fraction := match digits.drop 1 with
    | [] => []
    | rest => '.' :: rest
  let sign := if lead < 0 then ['-'] else if l.plus then ['+'] else []
  digits.take 1 ++ fraction ++ 'e' :: sign ++ Nat.toDigits 10 lead.natAbs

def magnitude (l : Layout) (units : Nat) : List Char :=
  if units = 0 then l.positional ['0'] 0
  else
    let (coefficient, power) := (Rounding.ofUnits units).shortest l.tie
    let digits := Nat.toDigits 10 coefficient
    let lead := power + digits.length - 1
    if l.isPositional lead then l.positional digits power else l.scientific digits lead

def text (l : Layout) (value : Float) : String :=
  match Exact.ofFloat value with
  | .nan => "NaN"
  | .infinite negative => if negative then "-inf" else "inf"
  | .finite negative units =>
    String.ofList (if negative then '-' :: l.magnitude units else l.magnitude units)

/-- Numbers in messages never have an exponent, and whole ones have no point. -/
def message : Layout where
  least := none
  beyond := none
  point := false
  plus := false
  tie := .up

/-- Numbers in a listing of the machine are written without an exponent from `1e-4` to below
`1e16`, and whole ones end in a point and a zero. -/
def listing : Layout where
  least := some (-4)
  beyond := some 16
  point := true
  plus := false
  tie := .up

end Layout

end Toolpath
