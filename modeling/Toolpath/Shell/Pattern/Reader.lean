import Toolpath.Shell.Pattern.Draft
import Toolpath.Shell.Blank
import Toolpath.Shell.Script

/-! # Reading drafts of patterns

A reader walks over the writing of a pattern and builds its draft on the way. Groups and sets nest,
so that the ones that are open are kept on a list. What the constructs mean is not its business,
but for blanks and comments, which it passes over where a flag says so.
-/

namespace Toolpath.Pattern

/-- A reader on its way over the writing of a pattern. -/
structure Reader where
  rest : List Char
  /-- The number of characters that have been read. -/
  position : Nat := 0
  /-- Whether blanks and comments say nothing. -/
  spaced : Bool := false
  /-- The names of groups, and where they stand. -/
  names : List (List Char × Stretch) := []

/-- A part of the reading, which may fail. -/
abbrev Reading := StateT Reader (Except Fault)

def refuse {α : Type} (complaint : Complaint) (start stop : Nat) : Reading α :=
  throw (.written complaint ⟨start, stop⟩ none)

def here : Reading Nat := return (← get).position

def next? : Reading (Option Char) := return (← get).rest.head?

def pass (count : Nat) : Reading Unit :=
  modify fun reader => { reader with
    rest := reader.rest.drop count
    position := reader.position + (reader.rest.take count).length }

/-- How many characters at the front are blank or in a comment. -/
def ignored (inComment : Bool) (count : Nat) : List Char → Nat
  | [] => count
  | c :: rest =>
    if inComment then ignored (c ≠ '\n') (count + 1) rest
    else if c = '#' then ignored true (count + 1) rest
    else if Blank.isBlank c then ignored false (count + 1) rest
    else count

/-- Goes on to the next character that says something. -/
def skip : Reading Unit := do
  let reader ← get
  if reader.spaced then pass (ignored false 0 reader.rest)

/-- Goes on by one character and over what says nothing, and gives the character there. -/
def advance : Reading (Option Char) := do
  pass 1
  skip
  next?

/-- Goes on over a text if it stands here. -/
def passText (text : List Char) : Reading Bool := do
  if text.isPrefixOf (← get).rest then
    pass text.length
    return true
  return false

/-- Characters that fit, with what says nothing between them, at most as many as the second list is
long; `gathered` holds the earlier ones, the last one first. -/
def gather (fits : Char → Bool) (gathered : List Char) : List Char → Reading (List Char)
  | [] => return gathered.reverse
  | _ :: fuel => do
    match ← next? with
    | some c =>
      if fits c then
        let _ ← advance
        gather fits (c :: gathered) fuel
      else return gathered.reverse
    | none => return gathered.reverse

/-- As many characters that fit as there are. -/
def gatherAll (fits : Char → Bool) : Reading (List Char) := do
  gather fits [] (← get).rest

/-! ## Escapes -/

/-- What a single construct stands for. -/
inductive Atom where
  /-- A character, and whether it was written as the code of a byte. -/
  | literal (c : Char) (asByte : Bool)
  | family (family : Family)
  | edge (condition : Edge)

def hexValue? (c : Char) : Option Nat :=
  if c.isDigit then some (c.toNat - '0'.toNat)
  else if 'a' ≤ c.toLower ∧ c.toLower ≤ 'f' then some (c.toLower.toNat - 'a'.toNat + 10)
  else none

def hexChar? (digits : List Char) : Option Char :=
  let code := digits.foldl (fun code c => code * 16 + (hexValue? c).getD 0) 0
  if code.isValidChar then some (Char.ofNat code) else none

def hexDigits : Nat → Reading (List Char)
  | 0 => return []
  | count + 1 => do
    let position ← here
    match ← next? with
    | none => refuse .escapeEnd position position
    | some c =>
      if (hexValue? c).isNone then refuse .hexDigit position (position + 1)
      let _ ← advance
      return c :: (← hexDigits count)

/-- A character by its code, from the letter on that follows the backslash. -/
def hexEscape (letter : Char) : Reading Atom := do
  match ← advance with
  | none => refuse .escapeEnd (← here) (← here)
  | some '{' =>
    let brace ← here
    let _ ← advance
    let digits ← gatherAll fun c => (hexValue? c).isSome
    let stop ← here
    match ← next? with
    | none => refuse .escapeEnd brace stop
    | some '}' =>
      let _ ← advance
      if digits.isEmpty then refuse .hexEmpty brace (← here)
      match hexChar? digits with
      | some c => return .literal c false
      | none => refuse .hexInvalid (brace + 1) stop
    | some _ => refuse .hexDigit stop (stop + 1)
  | some _ =>
    let start ← here
    let digits ← hexDigits (if letter = 'x' then 2 else if letter = 'u' then 4 else 8)
    match hexChar? digits with
    | some c => return .literal c (letter = 'x')
    | none => refuse .hexInvalid start (← here)

/-- The names of categories that no property shares. -/
def categoryNames : List String := ["cf", "lc", "sc"]

/-- Whether the name of a property can only be that of a category. Blanks, hyphens, underscores,
case and a leading `is` do not count. -/
def isCategoryName (name : List Char) : Bool :=
  let lower := name.map Char.toLower
  let bare := if ['i', 's'].isPrefixOf lower then lower.drop 2 else lower
  let counting := bare.filter fun c => c.toNat < 0x80 && c ≠ ' ' && c ≠ '_' && c ≠ '-'
  categoryNames.contains (String.ofList counting)

/-- The name of a property, from the letter on that follows the backslash. -/
def propertyEscape : Reading Atom := do
  match ← advance with
  | none => refuse .escapeEnd (← here) (← here)
  | some '{' =>
    let _ ← advance
    let name ← gatherAll (· ≠ '}')
    if (← next?).isNone then refuse .escapeEnd (← here) (← here)
    pass 1
    return .family (.property (isCategoryName name))
  | some '\\' => refuse .propertyInvalid (← here) ((← here) + 1)
  | some _ =>
    let _ ← advance
    return .family (.property false)

/-- The kind of word edge in braces after a backslash and a letter that start at a position, if a
letter follows the brace. -/
def namedWordEdge? (start : Nat) : Reading (Option Edge) := do
  let before ← get
  let isName (c : Char) : Bool := c.isAlpha || c = '-'
  match ← advance with
  | none => refuse .wordEdgeEnd start (← here)
  | some first =>
    if !isName first then
      set before
      return none
    let nameStart ← here
    let name ← gatherAll isName
    let stop ← here
    if (← next?) ≠ some '}' then refuse .wordEdgeUnclosed before.position stop
    pass 1
    match String.ofList name with
    | "start" => return some .wordStart
    | "end" => return some .wordEnd
    | "start-half" => return some .wordStartHalf
    | "end-half" => return some .wordEndHalf
    | _ => refuse .wordEdgeUnknown nameStart stop

/-- The edge of a word, or a kind of it in braces. -/
def wordEdge (start : Nat) : Reading Atom := do
  if (← next?) = some '{' then return .edge ((← namedWordEdge? start).getD .wordEdge)
  return .edge .wordEdge

/-- Whether a character stands for itself after a backslash. -/
def isEscapable (c : Char) : Bool :=
  c.toNat < 0x80 && !c.isAlphanum && c ≠ '<' && c ≠ '>'

def control? : Char → Option Char
  | 'a' => some '\x07'
  | 'f' => some '\x0c'
  | 't' => some '\t'
  | 'n' => some '\n'
  | 'r' => some '\r'
  | 'v' => some '\x0b'
  | _ => none

/-- The condition that a letter or a mark stands for after a backslash. -/
def edge? : Char → Option Edge
  | 'A' => some .textStart
  | 'z' => some .textEnd
  | 'B' => some .noWordEdge
  | '<' => some .wordStart
  | '>' => some .wordEnd
  | _ => none

/-- The set that a letter stands for after a backslash. -/
def shorthand? (c : Char) : Option CharSet :=
  match c.toLower with
  | 'd' => some .digit
  | 's' => some .space
  | 'w' => some .word
  | _ => none

/-- A construct that begins with a backslash. -/
def escape : Reading Atom := do
  let start ← here
  pass 1
  match ← next? with
  | none => refuse .escapeEnd start (← here)
  | some c =>
    if c.isDigit then refuse .backreference start (start + 2)
    else if c = 'x' || c = 'u' || c = 'U' then hexEscape c
    else if c = 'p' || c = 'P' then propertyEscape
    else
      pass 1
      match shorthand? c with
      | some set => return .family (.shorthand set c.isUpper)
      | none =>
        match control? c, edge? c with
        | some control, _ => return .literal control false
        | none, some condition => return .edge condition
        | none, none =>
          if c = 'b' then wordEdge start
          else if isEscapable c then return .literal c false
          else refuse .escapeUnknown start (← here)

/-! ## Sets -/

/-- A set whose closing bracket has not been read. -/
structure OpenSet where
  /-- The opening bracket and what belongs to it. -/
  place : Stretch
  negated : Bool
  /-- What has been read, and how it is put together with what follows. -/
  waiting : Option (SetDraft × Operation) := none
  /-- Where the items begin. -/
  start : Nat
  /-- The items, the last one first. -/
  items : List SetDraft := []

namespace OpenSet

def add (opened : OpenSet) (item : SetDraft) : OpenSet :=
  { opened with items := item :: opened.items }

/-- What has been read of a set. -/
def operand (opened : OpenSet) : SetDraft :=
  let right := SetDraft.ofItems opened.start opened.items
  match opened.waiting with
  | none => right
  | some (left, operation) =>
    .operation operation left right ⟨left.place.start, right.place.stop⟩

/-- A set after the mark of an operation, which ends at a position. -/
def operate (opened : OpenSet) (operation : Operation) (position : Nat) : OpenSet :=
  { opened with waiting := some (opened.operand, operation), start := position, items := [] }

/-- Where a set stands whose closing bracket ends at a position. -/
def closedAt (opened : OpenSet) (position : Nat) : Stretch := ⟨opened.place.start, position⟩

end OpenSet

/-- The hyphens at the front of a set, which stand for themselves, added to earlier items. -/
def leadingHyphens (start : Nat) (items : List SetDraft) : List Char → Reading (List SetDraft)
  | [] => return items
  | _ :: fuel => do
    if (← next?) = some '-' then
      let position ← here
      let hyphen := SetDraft.literal ⟨'-', false, ⟨position, position + 1⟩⟩
      if (← advance).isNone then refuse .classUnclosed start start
      leadingHyphens start (hyphen :: items) fuel
    else return items

/-- The opening bracket of a set, and what may follow it only there. -/
def openSet : Reading OpenSet := do
  let start ← here
  let goOn : Reading Unit := do
    if (← advance).isNone then refuse .classUnclosed start (← here)
  goOn
  let negated := (← next?) = some '^'
  if negated then goOn
  let first ← here
  let hyphens ← leadingHyphens start [] (← get).rest
  if hyphens.isEmpty && (← next?) = some ']' then
    let bracket := SetDraft.literal ⟨']', false, ⟨first, first + 1⟩⟩
    goOn
    return { place := ⟨start, ← here⟩, negated, start := first, items := [bracket] }
  return { place := ⟨start, ← here⟩, negated, start := first, items := hyphens }

/-- A set by its name, between brackets and colons, if one stands here. -/
def namedSet? : Reading (Option SetDraft) := do
  let before ← get
  if !(← passText ['[', ':']) then return none
  let negated ← passText ['^']
  let name := (← get).rest.takeWhile (· ≠ ':')
  pass name.length
  if ← passText [':', ']'] then
    if let some set := CharSet.named? (String.ofList name) then
      return some (.named set negated ⟨before.position, ← here⟩)
  set before
  return none

/-- A single construct in a set, and where it stands. -/
def setAtom : Reading (Atom × Stretch) := do
  let start ← here
  match ← next? with
  | some '\\' =>
    let atom ← escape
    return (atom, ⟨start, ← here⟩)
  | some c =>
    pass 1
    return (.literal c false, ⟨start, start + 1⟩)
  | none => refuse .classUnclosed start start

/-- The item that a single construct is. -/
def itemOf (atom : Atom) (place : Stretch) : Reading SetDraft := do
  match atom with
  | .literal c asByte => return .literal ⟨c, asByte, place⟩
  | .family family => return .family family place
  | .edge _ => refuse .classEscape place.start place.stop

def bound (atom : Atom) (place : Stretch) : Reading Literal := do
  match atom with
  | .literal c asByte => return ⟨c, asByte, place⟩
  | _ => refuse .classRangeLiteral place.start place.stop

/-- An item of a set: a range or a single construct. -/
def setItem (opened : OpenSet) : Reading SetDraft := do
  let (first, place) ← setAtom
  skip
  let reader ← get
  let afterNext := reader.rest.tail
  let following :=
    if reader.spaced then afterNext[ignored false 0 afterNext]? else afterNext.head?
  match reader.rest.head? with
  | none => refuse .classUnclosed opened.place.start opened.place.stop
  | some c =>
    if c ≠ '-' || following = some ']' || following = some '-' then itemOf first place
    else
      if (← advance).isNone then refuse .classUnclosed opened.place.start opened.place.stop
      let (second, secondPlace) ← setAtom
      let low ← bound first place
      let high ← bound second secondPlace
      if high.c < low.c then refuse .classRangeOrder place.start secondPlace.stop
      return .range low high

/-- The rest of a set, with the sets around it. Each step reads a character, so that the first list,
as long as the rest of the text, lasts to the end. -/
def setRest : List Char → List OpenSet → OpenSet → Reading Draft
  | [], _, opened => refuse .classUnclosed opened.place.start opened.place.stop
  | _ :: fuel, around, opened => do
    skip
    match (← get).rest with
    | [] => refuse .classUnclosed opened.place.start opened.place.stop
    | '[' :: _ =>
      match ← namedSet? with
      | some item => setRest fuel around (opened.add item)
      | none => setRest fuel (opened :: around) (← openSet)
    | ']' :: _ =>
      pass 1
      let place := opened.closedAt (← here)
      match around with
      | [] => return .bracketed opened.negated opened.operand place
      | outer :: around =>
        setRest fuel around (outer.add (.bracketed opened.negated opened.operand place))
    | '&' :: '&' :: _ =>
      pass 2
      setRest fuel around (opened.operate .both (← here))
    | '-' :: '-' :: _ =>
      pass 2
      setRest fuel around (opened.operate .difference (← here))
    | '~' :: '~' :: _ =>
      pass 2
      setRest fuel around (opened.operate .symmetricDifference (← here))
    | _ => setRest fuel around (opened.add (← setItem opened))

def bracketed : Reading Draft := do
  setRest (← get).rest [] (← openSet)

/-! ## Single constructs -/

/-- A character, a dot, an anchor or an escape. -/
def single (c : Char) : Reading Draft := do
  let start ← here
  if c = '\\' then
    let atom ← escape
    let place : Stretch := ⟨start, ← here⟩
    match atom with
    | .literal c asByte => return .literal ⟨c, asByte, place⟩
    | .family family => return .family family place
    | .edge condition => return .edge condition place
  else
    pass 1
    let place : Stretch := ⟨start, start + 1⟩
    match c with
    | '.' => return .dot place
    | '^' => return .start place
    | '$' => return .stop place
    | _ => return .literal ⟨c, false, place⟩

/-! ## Groups -/

def Flag.ofLetter? : Char → Option Flag
  | 'i' => some anyCase
  | 'm' => some perLine
  | 's' => some dotAll
  | 'U' => some swapGreed
  | 'u' => some wide
  | 'R' => some returns
  | 'x' => some spaced
  | _ => none

/-- The letters of flags up to the mark that ends them; `seen` holds what has been read of them. -/
def flagLetters (seen : List (Char × Stretch)) (change : FlagChange) :
    List Char → Reading FlagChange
  | [] => do refuse .flagEnd (← here) (← here)
  | _ :: fuel => do
    let position ← here
    let place : Stretch := ⟨position, position + 1⟩
    match ← next? with
    | none => refuse .flagEnd position position
    | some c =>
      if c = ':' || c = ')' then
        match seen with
        | ('-', negation) :: _ => refuse .flagDanglingNegation negation.start negation.stop
        | _ => return change.reverse
      else
        let negated := seen.any (·.1 = '-')
        let flag := Flag.ofLetter? c
        if c ≠ '-' && flag.isNone then refuse .flagUnknown position (position + 1)
        if let some (_, earlier) := seen.find? (·.1 = c) then
          throw (.written (if c = '-' then .flagRepeatedNegation else .flagDuplicate) place earlier)
        pass 1
        flagLetters ((c, place) :: seen) ((flag.map (·, !negated)).toList ++ change) fuel

def isNameChar (first : Bool) (c : Char) : Bool :=
  c = '_' || Script.isAlphabetic c ||
    (!first && (Script.isNumeric c || c = '.' || c = '[' || c = ']'))

/-- The name of a group, up to its closing mark. -/
def groupName : Reading Unit := do
  let start ← here
  let name := (← get).rest.takeWhile (· ≠ '>')
  match name.zipIdx.find? fun (c, index) => !isNameChar (index = 0) c with
  | some (_, index) => refuse .nameInvalid (start + index) (start + index + 1)
  | none =>
    pass name.length
    let stop ← here
    if (← next?).isNone then refuse .nameEnd stop stop
    pass 1
    if name.isEmpty then refuse .nameEmpty start start
    let reader ← get
    if let some (_, earlier) := reader.names.find? (·.1 = name) then
      throw (.written .nameDuplicate ⟨start, stop⟩ earlier)
    set { reader with names := (name, ⟨start, stop⟩) :: reader.names }

inductive Opening where
  /-- A group that may change flags inside it. -/
  | group (counted : Bool) (change : FlagChange)
  /-- A change of flags up to the end of the group around it. -/
  | flags (change : FlagChange)

def opening : Reading Opening := do
  let start ← here
  pass 1
  skip
  for mark in [['?', '='], ['?', '!'], ['?', '<', '='], ['?', '<', '!']] do
    if ← passText mark then refuse .lookAround start (← here)
  let inner ← here
  if (← passText ['?', 'P', '<']) || (← passText ['?', '<']) then
    groupName
    return .group true []
  else if ← passText ['?'] then
    if (← next?).isNone then refuse .groupUnclosed start (start + 1)
    let before ← here
    let change ← flagLetters [] [] (← get).rest
    let closed := (← next?) = some ')'
    if closed && (← here) = before then refuse .repetitionMissing inner inner
    pass 1
    return if closed then .flags change else .group false change
  else return .group true []

/-- Turns the passing over of blanks on or off where a change of flags says so. -/
def respace (change : FlagChange) : Reading Unit :=
  modify fun reader => { reader with spaced := (change.lookup .spaced).getD reader.spaced }

/-- The part of a pattern that is being read, at one depth. -/
structure Level where
  /-- Where the first alternative begins. -/
  start : Nat
  /-- The alternatives that are complete, the last one first. -/
  alternatives : List Draft := []
  /-- Where the alternative begins that is being read. -/
  latest : Nat := start
  /-- The parts of that alternative, the last one first. -/
  parts : List Draft := []

namespace Level

def add (level : Level) (part : Draft) : Level := { level with parts := part :: level.parts }

/-- A level after the mark between alternatives at a position. -/
def branch (level : Level) (position : Nat) : Level :=
  { level with
    alternatives := .ofParts level.latest position level.parts :: level.alternatives
    latest := position + 1
    parts := [] }

def whole (level : Level) (position : Nat) : Draft :=
  let last := Draft.ofParts level.latest position level.parts
  if level.alternatives.isEmpty then last
  else .choice (last :: level.alternatives).reverse ⟨level.start, position⟩

end Level

/-! ## Repetitions -/

/-- Whether a repetition takes as much as it can: a mark after it says no. -/
def greed : Reading Bool := return !(← passText ['?'])

def maxCount : Nat := 0xffffffff

def decimal : Reading (Except Fault Nat) := do
  let blanks := (← get).rest.takeWhile Blank.isBlank
  pass blanks.length
  let start ← here
  let digits ← gatherAll Char.isDigit
  let stop ← here
  let _ ← gatherAll Blank.isBlank
  if digits.isEmpty then return .error (.written .countEmpty ⟨start, stop⟩ none)
  let value := Nat.ofDigitChars 10 digits 0
  if maxCount < value then return .error (.written .decimalInvalid ⟨start, stop⟩ none)
  return .ok value

/-- The bounds of a repetition in braces, and whether it takes as much as it can. -/
def bounds : Reading (Nat × Option Nat × Bool) := do
  let start ← here
  let unclosed {α : Type} : Reading α := do refuse .countUnclosed start (← here)
  if (← advance).isNone then unclosed
  let least ← decimal
  let (least, most) ← match ← next? with
    | none => unclosed
    | some ',' =>
      match ← advance with
      | none => unclosed
      | some '}' => pure (← least, none)
      | some _ =>
        let least ← least
        let most ← decimal
        pure (least, some (← most))
    | some _ =>
      let least ← least
      pure (least, some least)
  if (← next?) ≠ some '}' then unclosed
  let _ ← advance
  let greedy ← greed
  if most.any (· < least) then refuse .countOrder start (← here)
  return (least, most, greedy)

/-- A level whose last part is repeated. -/
def repeatLast (level : Level) (c : Char) : Reading Level := do
  match level.parts with
  | [] | .flags _ _ :: _ => refuse .repetitionMissing (← here) (← here)
  | body :: earlier =>
    let (least, most, greedy) ← match c with
      | '{' => bounds
      | _ =>
        pass 1
        pure (if c = '+' then 1 else 0, if c = '?' then some 1 else none, ← greed)
    let place : Stretch := ⟨body.place.start, ← here⟩
    return { level with parts := .repeated body least most greedy place :: earlier }

/-! ## Whole patterns -/

/-- A group whose closing mark has not been read. -/
structure OpenGroup where
  /-- Where its opening mark stands. -/
  start : Nat
  counted : Bool
  change : FlagChange
  /-- What stands around the group. -/
  outer : Level
  /-- Whether blanks say nothing again after it. -/
  spaced : Bool

/-- The rest of a pattern, with the groups around it. Each step reads a character, so that the first
list, longer than the rest of the text, lasts to the end. -/
def patternRest : List Char → List OpenGroup → Level → Reading Draft
  | [], _, level => return level.whole (← here)
  | _ :: fuel, around, level => do
    skip
    let position ← here
    match ← next? with
    | none =>
      match around with
      | [] => return level.whole position
      | innermost :: _ => refuse .groupUnclosed innermost.start (innermost.start + 1)
    | some '(' =>
      let spaced := (← get).spaced
      match ← opening with
      | .flags change =>
        respace change
        patternRest fuel around (level.add (.flags change ⟨position, ← here⟩))
      | .group counted change =>
        respace change
        let opened : OpenGroup := { start := position, counted, change, outer := level, spaced }
        patternRest fuel (opened :: around) { start := ← here }
    | some ')' =>
      match around with
      | [] => refuse .groupUnopened position (position + 1)
      | closing :: around =>
        pass 1
        modify fun reader => { reader with spaced := closing.spaced }
        let place : Stretch := ⟨closing.start, position + 1⟩
        let draft := Draft.group closing.counted closing.change (level.whole position) place
        patternRest fuel around (closing.outer.add draft)
    | some '|' =>
      pass 1
      patternRest fuel around (level.branch position)
    | some '[' => patternRest fuel around (level.add (← bracketed))
    | some c =>
      if c = '?' || c = '*' || c = '+' || c = '{' then
        patternRest fuel around (← repeatLast level c)
      else patternRest fuel around (level.add (← single c))

def Draft.read (text : String) : Except Fault Draft := do
  let rest := text.toList
  let draft ← (patternRest (' ' :: rest) [] { start := 0 }).run' { rest }
  match draft.tooDeep? Draft.maxLevels with
  | some place => throw (.written (.nestedTooDeep Draft.maxLevels) place none)
  | none => return draft

end Toolpath.Pattern
