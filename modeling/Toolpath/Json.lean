import Toolpath.Decimal.Numeral
import Toolpath.Machine.Key

/-! # The JSON library

The machine is saved as a JSON document by a library that is a parameter here. `JsonLibrary` names
what the program calls, and `JsonLibrary.Lawful` what may be relied on: the notation of objects and
numbers, and the two layouts of a record. That numbers survive being written and read is
`JsonLibrary.RoundsCorrectly`, which is asked for only where it is needed.
-/

namespace Toolpath

namespace Json

/-- What a library makes of a document. A value that is neither a flag nor a number in range is left
open, because no field takes it. -/
inductive Document where
  | object (members : List (String × Option Machine.Scalar))
  | array (items : List (Option Machine.Scalar))
  | other
  deriving DecidableEq, Repr

def isSpace (c : Char) : Bool := c = ' ' || c = '\n' || c = '\t' || c = '\r'

/-- Text that may stand between the tokens of a document. -/
structure Blanks where
  text : List Char
  blank : ∀ c ∈ text, isSpace c = true

/-- Whether a character stands for itself in a string. -/
def isPlain (c : Char) : Bool := 32 ≤ c.toNat && c != '"' && c != '\\'

/-- A number by the parts of its spelling. -/
structure Numeral where
  negative : Bool
  whole : List Char
  fraction : List Char
  exponent : Int
  deriving DecidableEq, Repr

def Numeral.decimal (numeral : Numeral) : Decimal :=
  .ofDigits numeral.negative numeral.whole numeral.fraction numeral.exponent

/-- The digits of a whole part: a zero alone, or no zero in front. -/
structure IsWhole (digits : List Char) : Prop where
  nonempty : digits ≠ []
  digit : ∀ c ∈ digits, c.isDigit = true
  lead : digits = ['0'] ∨ digits.head? ≠ some '0'

/-- A fraction after its point; without digits there is no point either. -/
def pointed : List Char → List Char
  | [] => []
  | fraction => '.' :: fraction

def signed (negative : Bool) (text : List Char) : List Char :=
  if negative then '-' :: text else text

inductive SpellsExponent : Int → List Char → Prop
  | absent : SpellsExponent 0 []
  | marked {mark : Char} {sign digits : List Char} (exponential : mark = 'e' ∨ mark = 'E')
    (signed : sign ∈ [[], ['+'], ['-']]) (nonempty : digits ≠ [])
    (digit : ∀ c ∈ digits, c.isDigit = true) :
    SpellsExponent
      (if sign = ['-'] then -(Nat.ofDigitChars 10 digits 0 : Int) else Nat.ofDigitChars 10 digits 0)
      (mark :: (sign ++ digits))

structure Numeral.Spells (numeral : Numeral) (text : List Char) : Prop where
  whole : IsWhole numeral.whole
  fraction : ∀ c ∈ numeral.fraction, c.isDigit = true
  parts : ∃ tail, SpellsExponent numeral.exponent tail ∧
    text = signed numeral.negative (numeral.whole ++ (pointed numeral.fraction ++ tail))

/-- A value that is no string, array or object. -/
inductive Token where
  | null
  | flag (value : Bool)
  | number (numeral : Numeral)
  deriving DecidableEq, Repr

inductive Token.Spells : Token → List Char → Prop
  | null : Spells .null "null".toList
  | flag (value : Bool) : Spells (.flag value) (if value then "true" else "false").toList
  | number {numeral : Numeral} {text : List Char} (spells : numeral.Spells text) :
    Spells (.number numeral) text

/-- A member of an object as it stands in a document, with the blanks around its parts. -/
structure Member where
  name : String
  plain : ∀ c ∈ name.toList, isPlain c = true
  token : Token
  spelling : List Char
  spells : token.Spells spelling
  beforeName : Blanks
  beforeColon : Blanks
  beforeValue : Blanks
  afterValue : Blanks

def Member.text (member : Member) : List Char :=
  member.beforeName.text ++ '"' :: (member.name.toList ++ '"' :: (member.beforeColon.text ++
    ':' :: (member.beforeValue.text ++ (member.spelling ++ member.afterValue.text))))

/-- An object as it stands in a document, with the blanks around and inside its braces. -/
def object (lead inner trail : Blanks) (members : List Member) : String :=
  String.ofList (lead.text ++ '\x7b' :: ([','].intercalate (members.map Member.text) ++
    (inner.text ++ '\x7d' :: trail.text)))

end Json

/-- A library that reads and writes JSON documents. -/
structure JsonLibrary where
  /-- What a text is read as, if it is a document. -/
  parse? : String → Option Json.Document
  /-- The float that a number is read as, unless it is out of range. -/
  float? : Json.Numeral → Option Float
  /-- What a finite number is written as. -/
  numeral : Float → String
  /-- What a record is written as on one line. -/
  compact : List (String × Machine.Scalar) → String
  /-- What a record is written as with a field to a line. -/
  pretty : List (String × Machine.Scalar) → String

namespace JsonLibrary

variable (library : JsonLibrary)

/-- What a token is read as. -/
def value? : Json.Token → Option Machine.Scalar
  | .null => none
  | .flag value => some (.flag value)
  | .number numeral => (library.float? numeral).map .number

/-- What a value is written as; only finite numbers have a text of their own. -/
def text : Machine.Scalar → String
  | .number value => if value.isFinite then library.numeral value else "null"
  | .flag value => if value then "true" else "false"

/-- Fields whose names can stand between quotes as they are. -/
def PlainNames (fields : List (String × Machine.Scalar)) : Prop :=
  ∀ field ∈ fields, ∀ c ∈ field.1.toList, Json.isPlain c = true

/-- The library keeps to the notation. Every object is read as what its members spell, both layouts
of a record are objects, and a number that was written is a number in range. -/
structure Lawful : Prop where
  parse?_object : ∀ lead inner trail members,
    library.parse? (Json.object lead inner trail members) =
      some (.object (members.map fun member => (member.name, library.value? member.token)))
  compact_eq : ∀ fields, PlainNames fields → library.compact fields =
    "\x7b" ++ ",".intercalate (fields.map fun field =>
      "\"" ++ field.1 ++ "\":" ++ library.text field.2) ++ "\x7d"
  pretty_eq : ∀ fields, PlainNames fields → fields ≠ [] → library.pretty fields =
    "\x7b\n" ++ ",\n".intercalate (fields.map fun field =>
      "  \"" ++ field.1 ++ "\": " ++ library.text field.2) ++ "\n\x7d"
  numeral_accepted : ∀ value : Float, value.isFinite = true →
    ∃ numeral : Json.Numeral, numeral.Spells (library.numeral value).toList ∧
      (library.float? numeral).isSome = true

/-- Numbers are written with enough digits to tell them from their neighbours, and a number in range
is read as the float nearest to it. -/
structure RoundsCorrectly : Prop where
  numeral_nearest : ∀ value : Float, value.isFinite = true →
    ∃ numeral : Json.Numeral, numeral.Spells (library.numeral value).toList ∧
      numeral.decimal.nearest = Exact.ofFloat value
  float?_eq : ∀ (numeral : Json.Numeral) (negative : Bool) (units : Nat),
    numeral.decimal.nearest = .finite negative units →
      library.float? numeral = some (Exact.finite negative units).toFloat

end JsonLibrary

end Toolpath
