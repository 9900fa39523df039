import Toolpath.Shell.Pattern
import Toolpath.Shell.Pattern.Draft

/-! # What drafts mean

The meaning of a draft is a pattern. It hangs on the flags, which are changed on the way from left
to right and hold again after a group as before it. Beyond the basic characters neither cases nor
properties of characters are known, so that a draft that asks for them has no meaning.
-/

namespace Toolpath.Pattern

/-- How the constructs of a draft are to be understood. -/
structure Flags where
  /-- Letters stand for both cases. -/
  anyCase : Bool := false
  /-- The anchors hold at every line. -/
  perLine : Bool := false
  /-- The dot stands for line feeds too. -/
  dotAll : Bool := false
  /-- Repetitions take as little as they can, and those with a mark as much as they can. -/
  swapGreed : Bool := false
  /-- Characters beyond the basic ones are characters, not bytes. -/
  wide : Bool := true
  /-- A carriage return belongs to a line end. -/
  returns : Bool := false
  deriving DecidableEq, Repr

namespace Flags

/-- The flags with one of them set. Blanks have no meaning. -/
def set (flags : Flags) : Flag × Bool → Flags
  | (.anyCase, value) => { flags with anyCase := value }
  | (.perLine, value) => { flags with perLine := value }
  | (.dotAll, value) => { flags with dotAll := value }
  | (.swapGreed, value) => { flags with swapGreed := value }
  | (.wide, value) => { flags with wide := value }
  | (.returns, value) => { flags with returns := value }
  | (.spaced, _) => flags

def after (flags : Flags) (change : FlagChange) : Flags := change.foldl set flags

end Flags

def meaningless {α : Type} (complaint : Complaint) (place : Stretch) : Except Fault α :=
  .error (.written complaint place none)

/-! ## Sets -/

/-- A set of bytes may not reach beyond the basic characters. -/
def narrowed (flags : Flags) (set : CharSet) (place : Stretch) : Except Fault CharSet :=
  if !flags.wide && !set.isBasic then meaningless .invalidText place else .ok set

/-- A set with its letters in both cases where the flags say so. -/
def inCases (flags : Flags) (set : CharSet) (place : Stretch) : Except Fault CharSet :=
  if !flags.anyCase || set.caseless then .ok set
  else if flags.wide then meaningless .caseUnknown place
  else .ok set.withBothCases

def completed (flags : Flags) (set : CharSet) (negated : Bool) (place : Stretch) :
    Except Fault CharSet := do
  let set ← inCases flags set place
  narrowed flags (if negated then set.complement else set) place

def Family.meaning (flags : Flags) (place : Stretch) : Family → Except Fault CharSet
  | shorthand set negated =>
    if flags.wide then meaningless .shorthandUnknown place
    else narrowed flags (if negated then set.complement else set) place
  | property ofCategory =>
    if !flags.wide then meaningless .wideCharacter place
    else meaningless (if ofCategory then .categoryUnknown else .propertyUnknown) place

/-- The character of a literal; where bytes are meant it may not be the code of half a character. -/
def Literal.meaning (flags : Flags) (literal : Literal) : Except Fault Char :=
  if !flags.wide && literal.asByte && 0x80 ≤ literal.c.toNat then
    meaningless .invalidText literal.place
  else .ok literal.c

/-- The character of a literal in a set, which is a single byte where bytes are meant. -/
def Literal.member (flags : Flags) (literal : Literal) : Except Fault Char := do
  let c ← literal.meaning flags
  if !flags.wide && 0x80 ≤ c.toNat then meaningless .wideCharacter literal.place else return c

namespace SetDraft

mutual

/-- Adds the characters that a draft stands for to a set. -/
def addTo (flags : Flags) (set : CharSet) : SetDraft → Except Fault CharSet
  | .empty _ => return set
  | .literal written => do
    let c ← written.member flags
    return set.insert c c
  | .range first last => do
    let first ← first.member flags
    let last ← last.member flags
    return set.insert first last
  | .named members negated place => return set.union (← completed flags members negated place)
  | .family written place => return set.union (← written.meaning flags place)
  | .bracketed negated body place => do
    let members ← body.addTo flags .empty
    return set.union (← completed flags members negated place)
  | .union items _ => addAllTo flags set items
  | .operation written left right _ => do
    let leftSet ← left.addTo flags .empty
    let rightSet ← right.addTo flags .empty
    let rightSet ← inCases flags rightSet right.place
    let leftSet ← inCases flags leftSet left.place
    return set.union (written.apply leftSet rightSet)

def addAllTo (flags : Flags) (set : CharSet) : List SetDraft → Except Fault CharSet
  | [] => return set
  | item :: items => do addAllTo flags (← item.addTo flags set) items

end

end SetDraft

/-! ## Patterns -/

def literalPattern (flags : Flags) (literal : Literal) : Except Fault Pattern := do
  let c ← literal.meaning flags
  if !flags.anyCase then return .text [c]
  else if flags.wide then meaningless .caseUnknown literal.place
  else if c.isAlpha then return oneOf (CharSet.withBothCases (.ofPairs [(c, c)])) true
  else return .text [c]

def dotSet (flags : Flags) : CharSet :=
  if flags.dotAll then .all
  else if flags.returns then (CharSet.ofPairs [('\n', '\n'), ('\r', '\r')]).complement
  else (CharSet.ofPairs [('\n', '\n')]).complement

def startEdge (flags : Flags) : Edge :=
  if !flags.perLine then .textStart else if flags.returns then .anyLineStart else .lineStart

def stopEdge (flags : Flags) : Edge :=
  if !flags.perLine then .textEnd else if flags.returns then .anyLineEnd else .lineEnd

namespace Draft

mutual

/-- The pattern that a draft means, and the flags after it. -/
def meaning (flags : Flags) : Draft → Except Fault (Pattern × Flags)
  | .empty _ => return (.empty, flags)
  | .flags change _ => return (.empty, flags.after change)
  | .literal written => return (← literalPattern flags written, flags)
  | .dot place =>
    if flags.wide then return (oneOf (dotSet flags) false, flags)
    else meaningless .invalidText place
  | .start _ => return (.edge (startEdge flags) false, flags)
  | .stop _ => return (.edge (stopEdge flags) false, flags)
  | .edge condition _ => return (.edge condition (condition.isOfWords && flags.wide), flags)
  | .family written place => return (oneOf (← written.meaning flags place) (!flags.wide), flags)
  | .bracketed negated body place => do
    let members ← body.addTo flags .empty
    return (oneOf (← completed flags members negated place) (!flags.wide), flags)
  | .repeated body least most greedy _ => do
    let (body, flags) ← body.meaning flags
    return (body.times least most (greedy != flags.swapGreed), flags)
  | .group counted change body _ => do
    let (body, _) ← body.meaning (flags.after change)
    return (if counted then .group body else body, flags)
  | .choice parts _ => do
    let (parts, flags) ← meanings flags [] parts
    return (oneAmong parts, flags)
  | .sequence parts _ => do
    let (parts, flags) ← meanings flags [] parts
    return (inSequence parts, flags)

/-- The patterns that drafts mean in a row, after earlier ones, the last of which comes first. -/
def meanings (flags : Flags) (earlier : List Pattern) :
    List Draft → Except Fault (List Pattern × Flags)
  | [] => return (earlier.reverse, flags)
  | part :: parts => do
    let (pattern, flags) ← part.meaning flags
    meanings flags (pattern :: earlier) parts

end

end Draft

end Toolpath.Pattern
