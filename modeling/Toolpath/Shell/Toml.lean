import Toolpath.Decimal.Numeral
import Toolpath.Settings
import Toolpath.Shell.Json
import Toolpath.Text.Lines

/-! # Reading settings documents

A settings file is a TOML document. Every setting is a flag, a whole number or a number, so a line
is blank, a comment, or a key with such a value; strings, arrays, dates and tables never fit a
setting and are refused like any other fault.
-/

namespace Toolpath.Settings

/-- A setting that a document can hold. -/
inductive Key where
  | threshold
  | xyDecimals
  | zDecimals
  | eDecimals
  | removeComments
  | allowUnknown
  deriving DecidableEq, Repr

namespace Key

def all : List Key := [threshold, xyDecimals, zDecimals, eDecimals, removeComments, allowUnknown]

def name : Key → String
  | threshold => "threshold"
  | xyDecimals => "xy_decimals"
  | zDecimals => "z_decimals"
  | eDecimals => "e_decimals"
  | removeComments => "remove_comments"
  | allowUnknown => "allow_unknown_gcode"

def ofName? (text : String) : Option Key := all.find? fun key => key.name = text

end Key

inductive Value where
  | flag (value : Bool)
  | whole (value : Int)
  | number (value : Float)
  deriving DecidableEq, Repr

namespace Document

def isSpace (c : Char) : Bool := c = ' ' || c = '\t'

def skip (text : List Char) : List Char := text.dropWhile isSpace

/-- Whether a character may stand in a comment or a quoted key. -/
def isPrintable (c : Char) : Bool := c = '\t' || (32 ≤ c.toNat && c ≠ '\x7f')

/-- Whether nothing but an optional comment is left of a line. -/
def isLineEnd (text : List Char) : Bool :=
  match skip text with
  | [] => true
  | c :: comment => c = '#' && comment.all isPrintable

/-- Whether a character may stand in a key without quotes. -/
def isBareKey (c : Char) : Bool := c.isAlphanum || c = '_' || c = '-'

def hexValue? (digits : List Char) : Option Nat :=
  digits.foldlM (fun value digit => (Json.hexDigit? digit).map (value * 16 + ·)) 0

def charOf? (code : Nat) : Option Char :=
  if code.isValidChar then some (Char.ofNat code) else none

/-- The character that a letter stands for after a backslash, where it takes no digits. -/
def escaped? : Char → Option Char
  | '"' => some '"'
  | '\\' => some '\\'
  | 'b' => some '\x08'
  | 'e' => some '\x1b'
  | 'f' => some '\x0c'
  | 'n' => some '\n'
  | 'r' => some '\r'
  | 't' => some '\t'
  | _ => none

/-- A key in double quotes from after the opening one: its text, and what follows. -/
def quotedKey? : List Char → Option (List Char × List Char)
  | [] => none
  | '"' :: rest => some ([], rest)
  | '\\' :: 'x' :: a :: b :: rest => do
    let c ← (hexValue? [a, b]).bind charOf?
    let (key, after) ← quotedKey? rest
    return (c :: key, after)
  | '\\' :: 'u' :: a :: b :: c :: d :: rest => do
    let c ← (hexValue? [a, b, c, d]).bind charOf?
    let (key, after) ← quotedKey? rest
    return (c :: key, after)
  | '\\' :: 'U' :: a :: b :: c :: d :: e :: f :: g :: h :: rest => do
    let c ← (hexValue? [a, b, c, d, e, f, g, h]).bind charOf?
    let (key, after) ← quotedKey? rest
    return (c :: key, after)
  | '\\' :: c :: rest => do
    let c ← escaped? c
    let (key, after) ← quotedKey? rest
    return (c :: key, after)
  | c :: rest => do
    if !isPrintable c then none
    else
      let (key, after) ← quotedKey? rest
      return (c :: key, after)

/-- A key in single quotes from after the opening one: its text, and what follows. -/
def literalKey? (text : List Char) : Option (List Char × List Char) :=
  let key := text.takeWhile (· ≠ '\'')
  match text.dropWhile (· ≠ '\'') with
  | _ :: rest => if key.all isPrintable then some (key, rest) else none
  | [] => none

/-- The key at the start of a line, and what follows it. -/
def key? : List Char → Option (List Char × List Char)
  | '"' :: rest => quotedKey? rest
  | '\'' :: rest => literalKey? rest
  | text =>
    let key := text.takeWhile isBareKey
    if key.isEmpty then none else some (key, text.dropWhile isBareKey)

/-- Digits with single underscores between them, without the underscores. -/
def digitGroups? (isDigit : Char → Bool) (text : List Char) : Option (List Char) :=
  let groups := text.splitOn '_'
  if groups.all fun group => !group.isEmpty && group.all isDigit then some groups.flatten else none

/-- Decimal digits that have no leading zero. -/
def decimalDigits? (text : List Char) : Option (List Char) :=
  match digitGroups? Char.isDigit text with
  | some ('0' :: _ :: _) => none
  | digits => digits

def valueIn (base : Nat) (digits : List Char) : Nat :=
  digits.foldl (fun value digit => value * base + (Json.hexDigit? digit).getD 0) 0

/-- A whole number in base sixteen, eight or two, after its mark. -/
def based? : List Char → Option Nat
  | '0' :: 'x' :: rest =>
    (digitGroups? (fun c => (Json.hexDigit? c).isSome) rest).map (valueIn 16)
  | '0' :: 'o' :: rest => (digitGroups? (fun c => '0' ≤ c && c ≤ '7') rest).map (valueIn 8)
  | '0' :: 'b' :: rest => (digitGroups? (fun c => c = '0' || c = '1') rest).map (valueIn 2)
  | _ => none

def whole? (text : List Char) : Option Int :=
  match based? text with
  | some value => some value
  | none =>
    let (negative, body) := Numeral.takeSign text
    (decimalDigits? body).map fun digits =>
      let size : Int := Nat.ofDigitChars 10 digits 0
      if negative then -size else size

/-- A number with a fraction part or an exponent or both. -/
def decimal? (text : List Char) : Option Decimal := do
  let (negative, body) := Numeral.takeSign text
  let mantissa := body.takeWhile fun c => c ≠ 'e' && c ≠ 'E'
  let exponent ← match body.dropWhile fun c => c ≠ 'e' && c ≠ 'E' with
    | [] => some 0
    | _ :: rest =>
      let (below, digits) := Numeral.takeSign rest
      (digitGroups? Char.isDigit digits).map fun digits =>
        let size : Int := Nat.ofDigitChars 10 digits 0
        if below then -size else size
  let whole ← decimalDigits? (mantissa.takeWhile (· ≠ '.'))
  let fraction ← match mantissa.dropWhile (· ≠ '.') with
    | [] => some []
    | _ :: rest => digitGroups? Char.isDigit rest
  return Decimal.ofDigits negative whole fraction exponent

/-- The names of the numbers that have no digits, with an optional sign. -/
def named? (text : List Char) : Option Exact :=
  let (negative, body) := Numeral.takeSign text
  if body = ['i', 'n', 'f'] then some (.infinite negative)
  else if body = ['n', 'a', 'n'] then some .nan
  else none

/-- The float of a number; digits that stand for no finite number are refused. -/
def number? (text : List Char) : Option Float :=
  match named? text with
  | some exact => some exact.toFloat
  | none =>
    match (decimal? text).map Decimal.nearest with
    | some (.finite negative units) => some (Exact.finite negative units).toFloat
    | _ => none

def value? (text : List Char) : Option Value :=
  if text = ['t', 'r', 'u', 'e'] then some (.flag true)
  else if text = ['f', 'a', 'l', 's', 'e'] then some (.flag false)
  else ((whole? text).map .whole).or ((number? text).map .number)

/-- A line of a document: a key and its value, or neither. -/
def line? (text : List Char) : Option (Option (Key × Value)) :=
  if isLineEnd text then some none
  else do
    let (name, rest) ← key? (skip text)
    let key ← Key.ofName? (String.ofList name)
    match skip rest with
    | '=' :: rest =>
      let isValue (c : Char) : Bool := !isSpace c && c ≠ '#'
      let word := (skip rest).takeWhile isValue
      let value ← value? word
      if isLineEnd ((skip rest).dropWhile isValue) then return some (key, value) else none
    | _ => none

end Document

def maxWhole : Int := 0xffffffffffffffff

def minWhole : Int := -0x8000000000000000

def places? : Value → Option Nat
  | .whole value => if 0 ≤ value ∧ value ≤ maxWhole then some value.toNat else none
  | _ => none

/-- A threshold; a whole number stands for the nearest float. -/
def threshold? : Value → Option Float
  | .number value => some value
  | .whole value =>
    if minWhole ≤ value ∧ value ≤ maxWhole then
      some (Decimal.toFloat ⟨decide (value < 0), value.natAbs, 0⟩)
    else none
  | .flag _ => none

def flag? : Value → Option Bool
  | .flag value => some value
  | _ => none

/-- The settings with another value for a setting, if the value is of its kind. -/
def set? (settings : Settings) : Key → Value → Option Settings
  | .threshold, value => (threshold? value).map ({ settings with threshold := · })
  | .xyDecimals, value => (places? value).map ({ settings with xyDecimals := · })
  | .zDecimals, value => (places? value).map ({ settings with zDecimals := · })
  | .eDecimals, value => (places? value).map ({ settings with eDecimals := · })
  | .removeComments, value => (flag? value).map ({ settings with removeComments := · })
  | .allowUnknown, value => (flag? value).map ({ settings with allowUnknown := · })

/-- Takes the lines of a document; a setting that is there twice is refused. -/
def ofLines? (settings : Settings) (seen : List Key) : List (List Char) → Option Settings
  | [] => some settings
  | text :: rest => do
    match ← Document.line? text with
    | none => ofLines? settings seen rest
    | some (key, value) =>
      if key ∈ seen then none
      else
        let settings ← settings.set? key value
        ofLines? settings (key :: seen) rest

/-- The text without the mark that may stand at its very beginning. -/
def dropByteOrderMark : List Char → List Char
  | '\ufeff' :: rest => rest
  | text => text

def readToml? (text : String) : Option Settings :=
  ofLines? {} [] (Lines.split '\n' '\r' (dropByteOrderMark text.toList))

end Toolpath.Settings
