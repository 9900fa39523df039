import Toolpath.Json

/-! # Reading JSON documents

Reading of strict JSON into a tree. Numbers keep their digits and strings keep their escapes until
someone asks for the value, because a document may hold numbers and strings that nobody looks at.
-/

namespace Toolpath.Json

inductive Tree where
  | null
  | bool (value : Bool)
  | number (numeral : Numeral)
  /-- A string as it stands between its quotes, with its escapes. -/
  | string (raw : List Char)
  | array (items : List Tree)
  | object (members : List (List Char × Tree))
  deriving Repr

def skip (text : List Char) : List Char := text.dropWhile isSpace

def hexDigit? (c : Char) : Option Nat :=
  if c.isDigit then some (c.toNat - '0'.toNat)
  else if 'a' ≤ c ∧ c ≤ 'f' then some (c.toNat - 'a'.toNat + 10)
  else if 'A' ≤ c ∧ c ≤ 'F' then some (c.toNat - 'A'.toNat + 10)
  else none

def hex4? (a b c d : Char) : Option Nat := do
  let a ← hexDigit? a
  let b ← hexDigit? b
  let c ← hexDigit? c
  let d ← hexDigit? d
  return ((a * 16 + b) * 16 + c) * 16 + d

def escaped? : Char → Option Char
  | '"' => some '"'
  | '\\' => some '\\'
  | '/' => some '/'
  | 'b' => some '\x08'
  | 'f' => some '\x0c'
  | 'n' => some '\n'
  | 'r' => some '\r'
  | 't' => some '\t'
  | _ => none

/-- A string from after its opening quote: its raw content, and what follows the closing quote. -/
def string? : List Char → Option (List Char × List Char)
  | [] => none
  | '"' :: rest => some ([], rest)
  | '\\' :: 'u' :: a :: b :: c :: d :: rest =>
    if (hex4? a b c d).isSome then
      (string? rest).map fun (raw, after) => ('\\' :: 'u' :: a :: b :: c :: d :: raw, after)
    else none
  | '\\' :: c :: rest =>
    if (escaped? c).isSome then (string? rest).map fun (raw, after) => ('\\' :: c :: raw, after)
    else none
  | c :: rest =>
    if c.toNat < 32 ∨ c = '\\' then none
    else (string? rest).map fun (raw, after) => (c :: raw, after)

def pair (high low : Nat) : Char := Char.ofNat (0x10000 + (high - 0xd800) * 0x400 + (low - 0xdc00))

/-- The text of a raw string; a half of a pair on its own has none. -/
def decode? : List Char → Option (List Char)
  | [] => some []
  | '\\' :: 'u' :: a :: b :: c :: d :: '\\' :: 'u' :: a' :: b' :: c' :: d' :: rest => do
    let first ← hex4? a b c d
    if first < 0xd800 ∨ 0xdfff < first then
      return Char.ofNat first :: (← decode? ('\\' :: 'u' :: a' :: b' :: c' :: d' :: rest))
    let second ← hex4? a' b' c' d'
    if first ≤ 0xdbff ∧ 0xdc00 ≤ second ∧ second ≤ 0xdfff then
      return pair first second :: (← decode? rest)
    else none
  | '\\' :: 'u' :: a :: b :: c :: d :: rest => do
    let unit ← hex4? a b c d
    if unit < 0xd800 ∨ 0xdfff < unit then return Char.ofNat unit :: (← decode? rest) else none
  | '\\' :: c :: rest => do return (← escaped? c) :: (← decode? rest)
  | c :: rest => (decode? rest).map (c :: ·)

def digits? (text : List Char) : Option (List Char × List Char) :=
  let digits := text.takeWhile Char.isDigit
  if digits.isEmpty then none else some (digits, text.dropWhile Char.isDigit)

/-- The digits before the point: a zero, or digits that do not start with one. -/
def whole? : List Char → Option (List Char × List Char)
  | '0' :: rest => if (rest.head?.any Char.isDigit) then none else some (['0'], rest)
  | text => digits? text

/-- The digits after an optional point, of which there is at least one. -/
def fraction? : List Char → Option (List Char × List Char)
  | '.' :: rest => digits? rest
  | rest => some ([], rest)

/-- An optional exponent with an optional sign. -/
def exponent? : List Char → Option (Int × List Char)
  | mark :: rest =>
    if mark = 'e' ∨ mark = 'E' then do
      let (negative, text) := Numeral.takeSign rest
      let (digits, after) ← digits? text
      let size : Int := Nat.ofDigitChars 10 digits 0
      return (if negative then -size else size, after)
    else some (0, mark :: rest)
  | [] => some (0, [])

def unsigned? (negative : Bool) (text : List Char) : Option (Numeral × List Char) := do
  let (whole, text) ← whole? text
  let (fraction, text) ← fraction? text
  let (exponent, text) ← exponent? text
  return ({ negative, whole, fraction, exponent }, text)

def number? : List Char → Option (Numeral × List Char)
  | '-' :: rest => unsigned? true rest
  | text => unsigned? false text

mutual

/-- A value, and what follows it; `fuel` bounds the number of nested calls. -/
def value? : Nat → List Char → Option (Tree × List Char)
  | 0, _ => none
  | fuel + 1, text =>
    match skip text with
    | 'n' :: 'u' :: 'l' :: 'l' :: rest => some (.null, rest)
    | 't' :: 'r' :: 'u' :: 'e' :: rest => some (.bool true, rest)
    | 'f' :: 'a' :: 'l' :: 's' :: 'e' :: rest => some (.bool false, rest)
    | '"' :: rest => (string? rest).map fun (raw, after) => (.string raw, after)
    | '[' :: rest =>
      match skip rest with
      | ']' :: after => some (.array [], after)
      | _ => (items? fuel rest).map fun (items, after) => (.array items, after)
    | '{' :: rest =>
      match skip rest with
      | '}' :: after => some (.object [], after)
      | _ => (members? fuel rest).map fun (members, after) => (.object members, after)
    | rest => (number? rest).map fun (value, after) => (.number value, after)

/-- The items of an array that is not empty, up to its closing bracket. -/
def items? : Nat → List Char → Option (List Tree × List Char)
  | 0, _ => none
  | fuel + 1, text => do
    let (item, rest) ← value? fuel text
    match skip rest with
    | ']' :: after => return ([item], after)
    | ',' :: more =>
      let (items, after) ← items? fuel more
      return (item :: items, after)
    | _ => none

/-- The members of an object that is not empty, up to its closing brace. -/
def members? : Nat → List Char → Option (List (List Char × Tree) × List Char)
  | 0, _ => none
  | fuel + 1, text =>
    match skip text with
    | '"' :: rest => do
      let (key, rest) ← string? rest
      match skip rest with
      | ':' :: rest =>
        let (value, rest) ← value? fuel rest
        match skip rest with
        | '}' :: after => return ([(key, value)], after)
        | ',' :: more =>
          let (members, after) ← members? fuel more
          return ((key, value) :: members, after)
        | _ => none
      | _ => none
    | _ => none

end

def read? (text : List Char) : Option Tree :=
  match value? (2 * text.length + 2) text with
  | some (value, rest) => if (skip rest).isEmpty then some value else none
  | none => none

end Toolpath.Json
