import Toolpath.Decimal.Exact

/-! # Reading decimal text

A `Decimal` is a signed coefficient with a power of ten. Its float is the nearest one, for every
length of the coefficient and every exponent. `Numeral.read?` accepts the number notation of
G-code words: digits with an optional point and exponent, and the names of the infinities and of
the undefined number in any case of letters.
-/

namespace Toolpath

/-- The number `coefficient * 10 ^ exponent`, negated if `negative`. -/
structure Decimal where
  negative : Bool
  coefficient : Nat
  exponent : Int
  deriving DecidableEq, Repr

namespace Decimal

/-- Past this many places the power of ten alone decides between zero and infinity. -/
def exponentReach : Nat := 400

/-- The content of the float nearest to a decimal.

A coefficient of at least one with an exponent beyond the reach is infinite, and one that is still
below `10 ^ -exponentReach` is zero; between them the quotient is rounded exactly. -/
def nearest (d : Decimal) : Exact :=
  if d.coefficient = 0 then .finite d.negative 0
  else if 0 ≤ d.exponent then
    if exponentReach < d.exponent.toNat then .infinite d.negative
    else .nearest d.negative (d.coefficient * tenTo d.exponent.toNat) 1
  else
    let places := (-d.exponent).toNat
    if d.coefficient.log2 + exponentReach < places then .finite d.negative 0
    else .nearest d.negative d.coefficient (tenTo places)

def toFloat (d : Decimal) : Float := d.nearest.toFloat

/-- The decimal that a whole part, a fraction part and an exponent spell. -/
def ofDigits (negative : Bool) (whole fraction : List Char) (exponent : Int) : Decimal where
  negative
  coefficient := Nat.ofDigitChars 10 (whole ++ fraction) 0
  exponent := exponent - fraction.length

end Decimal

namespace Numeral

/-- An optional leading sign, and whether it is a minus. -/
def takeSign : List Char → Bool × List Char
  | '-' :: rest => (true, rest)
  | '+' :: rest => (false, rest)
  | rest => (false, rest)

/-- The digits after an optional point, and what follows them. -/
def takeFraction : List Char → List Char × List Char
  | '.' :: rest => (rest.takeWhile Char.isDigit, rest.dropWhile Char.isDigit)
  | rest => ([], rest)

/-- One or more digits and nothing else, with an optional sign. -/
def exponentDigits? (text : List Char) : Option Int :=
  let (negative, digits) := takeSign text
  if digits.isEmpty || !digits.all Char.isDigit then none
  else
    let size : Int := Nat.ofDigitChars 10 digits 0
    some (if negative then -size else size)

/-- The exponent that ends a number: nothing, or a mark and signed digits. -/
def exponent? : List Char → Option Int
  | [] => some 0
  | mark :: rest => if mark = 'e' || mark = 'E' then exponentDigits? rest else none

/-- An unsigned number: digits before or after the point or both, then an optional exponent. -/
def unsigned? (negative : Bool) (text : List Char) : Option Decimal :=
  let whole := text.takeWhile Char.isDigit
  let (fraction, rest) := takeFraction (text.dropWhile Char.isDigit)
  if whole.isEmpty && fraction.isEmpty then none
  else (exponent? rest).map (Decimal.ofDigits negative whole fraction)

/-- A name, in any case of letters, that stands for a value outside the decimals. -/
def named? (negative : Bool) (text : List Char) : Option Exact :=
  let name := text.map Char.toLower
  if name = ['n', 'a', 'n'] then some .nan
  else if name = ['i', 'n', 'f'] || name = ['i', 'n', 'f', 'i', 'n', 'i', 't', 'y'] then
    some (.infinite negative)
  else none

/-- What a number text stands for, rounded to the nearest float. -/
def content? (text : List Char) : Option Exact :=
  let (negative, body) := takeSign text
  (named? negative body).or ((unsigned? negative body).map Decimal.nearest)

/-- The float that a number text stands for. -/
def read? (text : List Char) : Option Float := (content? text).map Exact.toFloat

/-- A whole number up to `limit`: an optional plus and at least one digit. -/
def natural? (limit : Nat) (text : List Char) : Option Nat :=
  let digits := match text with
    | '+' :: rest => rest
    | rest => rest
  if digits.isEmpty || !digits.all Char.isDigit then none
  else
    let value := Nat.ofDigitChars 10 digits 0
    if limit < value then none else some value

end Numeral

end Toolpath
