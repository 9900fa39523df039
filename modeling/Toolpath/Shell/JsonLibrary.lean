import Toolpath.Decimal.Shortest
import Toolpath.Machine.Document
import Toolpath.Shell.Json

/-! # A JSON library

The reader of JSON documents and a writer of records as a `JsonLibrary`. There are two ways to read
a number: to the nearest float, or by two roundings, one of the digits and one of the quotient,
which is faster and may miss the nearest float by one.
-/

namespace Toolpath

namespace Json

/-- Numbers in a document are written without an exponent from `1e-5` to below `1e16`, whole ones
end in a point and a zero, and an exponent has its sign. -/
def documentLayout : Layout where
  least := some (-5)
  beyond := some 16
  point := true
  plus := true
  tie := .even

/-- The nearest float, if there is a finite one. -/
def Numeral.nearest? (numeral : Numeral) : Option Float :=
  match numeral.decimal.nearest with
  | .finite negative units => some (Exact.finite negative units).toFloat
  | _ => none

/-- The largest significand of a number that is read by two roundings. -/
def maxSignificand : Nat := 0xffffffffffffffff

/-- The value of the digits in front that are taken into a significand, and how many are left. -/
def takeDigits (significand : Nat) : List Char → Nat × Nat
  | [] => (significand, 0)
  | digit :: rest =>
    let next := significand * 10 + (digit.toNat - '0'.toNat)
    if maxSignificand < next then (significand, rest.length + 1) else takeDigits next rest

/-- Divides by a power of ten, by `1e308` as often as the power is greater. Two such divisions leave
nothing of a significand. -/
def divideBy (value : Float) (power : Nat) : Float :=
  let steps := (power - 1) / 308
  Nat.repeat (· / 1e308) (min steps 2) value / Decimal.toFloat ⟨false, 1, power - 308 * steps⟩

/-- A float times a power of ten, unless that is out of range. -/
def scale? (value : Float) (power : Int) : Option Float :=
  if power < 0 then some (divideBy value power.natAbs)
  else if power ≤ 308 then
    let product := value * Decimal.toFloat ⟨false, 1, power⟩
    if product.isFinite then some product else none
  else if value == 0.0 then some value
  else none

/-- The float that two roundings lead to. Digits that a significand has no room for are passed over. -/
def Numeral.quotient? (numeral : Numeral) : Option Float :=
  let (front, skipped) := takeDigits 0 numeral.whole
  let (significand, left) := takeDigits front numeral.fraction
  let power := numeral.exponent + skipped - (numeral.fraction.length - left : Nat)
  (scale? (Decimal.toFloat ⟨false, significand, 0⟩) power).map fun value =>
    if numeral.negative then -value else value

section Library

variable (float? : Numeral → Option Float)

/-- The value that a field could take. -/
def Tree.scalar? : Tree → Option Machine.Scalar
  | .number numeral => (float? numeral).map .number
  | .bool value => some (.flag value)
  | _ => none

/-- The document that a tree is, if the names in it have a text. -/
def Tree.document? : Tree → Option Document
  | .object members =>
    (members.mapM fun (raw, value) =>
      (decode? raw).map fun name => (String.ofList name, Tree.scalar? float? value)).map .object
  | .array items => some (.array (items.map (Tree.scalar? float?)))
  | _ => some .other

def scalarText : Machine.Scalar → String
  | .number value => if value.isFinite then documentLayout.text value else "null"
  | .flag value => if value then "true" else "false"

def escape (c : Char) : List Char :=
  if isPlain c then [c]
  else match c with
    | '"' => ['\\', '"']
    | '\\' => ['\\', '\\']
    | '\n' => ['\\', 'n']
    | '\r' => ['\\', 'r']
    | '\t' => ['\\', 't']
    | '\x08' => ['\\', 'b']
    | '\x0c' => ['\\', 'f']
    | _ => '\\' :: 'u' :: (Nat.toDigits 16 c.toNat).leftpad 4 '0'

def quoted (text : String) : String :=
  String.ofList ('"' :: (text.toList.flatMap escape ++ ['"']))

/-- The library that reads numbers in the given way. -/
def library : JsonLibrary where
  parse? text := (read? text.toList).bind (Tree.document? float?)
  float?
  numeral := documentLayout.text
  compact fields :=
    let members := fields.map fun (name, value) => quoted name ++ ":" ++ scalarText value
    "\x7b" ++ ",".intercalate members ++ "\x7d"
  pretty fields :=
    let members := fields.map fun (name, value) => "  " ++ quoted name ++ ": " ++ scalarText value
    if members.isEmpty then "\x7b\x7d" else "\x7b\n" ++ ",\n".intercalate members ++ "\n\x7d"

end Library

end Json

namespace JsonLibrary

/-- The library that reads numbers to the nearest float. -/
def precise : JsonLibrary := Json.library Json.Numeral.nearest?

/-- The library that reads numbers by two roundings. -/
def fast : JsonLibrary := Json.library Json.Numeral.quotient?

end JsonLibrary

namespace Machine

def toJson (machine : Machine) : String := JsonLibrary.fast.compact machine.fields

def readJson? (text : String) : Option Machine := JsonLibrary.fast.readMachine? text

end Machine

end Toolpath
