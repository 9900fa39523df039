import Toolpath.Shell.Pattern

/-! # Where a pattern occurs

A pattern is tried at all positions of a text at once: a set of positions is a number whose bit `i`
stands for the position before character `i`, and a pattern leads from the positions where a stretch
may begin to those where it may end. A loop never begins twice at the same position, so that loops
inside each other take no more steps than there are positions.
-/

namespace Toolpath

/-- A set of positions: bit `i` stands for the position before character `i`. -/
abbrev Positions := Nat

namespace Positions

/-- The positions where a list of answers says yes. -/
def ofList (answers : List Bool) : Positions :=
  answers.foldr (fun answer rest => 2 * rest + answer.toNat) 0

def all (size : Nat) : Positions := (1 <<< (size + 1)) - 1

def without (positions others : Positions) : Positions := positions ^^^ (positions &&& others)

end Positions

namespace Pattern

/-- The positions where a character follows that fits. -/
def followed (text : List Char) (fits : Char → Bool) : Positions := .ofList (text.map fits)

def placed (text : List Char) (condition : Edge) : Positions :=
  .ofList (List.zipWith condition.holds (none :: text.map some) (text.map some ++ [none]))

/-- A pattern laid over a text: each part knows the positions where it applies. -/
inductive Overlay where
  | stay
  /-- Goes on by one character from certain positions. -/
  | move (allowed : Positions)
  /-- Stays at certain positions. -/
  | hold (allowed : Positions)
  | seq (first second : Overlay)
  | alt (first second : Overlay)
  /-- Once or more often. -/
  | loop (body : Overlay)
  deriving DecidableEq, Repr

namespace Overlay

/-- Overlays put together two by two, as a tree that is no deeper than it has to be. -/
def tree (join : Overlay → Overlay → Overlay) (none : Overlay) (overlays : List Overlay) : Overlay :=
  match overlays with
  | [] => none
  | [only] => only
  | first :: second :: rest =>
    let half := (rest.length + 2) / 2
    join (tree join none ((first :: second :: rest).take half))
      (tree join none ((first :: second :: rest).drop half))
termination_by overlays.length
decreasing_by all_goals simp only [List.length_take, List.length_drop, List.length_cons]; omega

def inSequence (overlays : List Overlay) : Overlay := tree seq stay overlays

def inChoice (overlays : List Overlay) : Overlay := tree alt (hold 0) overlays

/-- An overlay a number of times. In a text of a size, a stretch that is put together from more
pieces than there are positions has empty pieces, and one of them more or less makes no difference. -/
def copies (size count : Nat) (overlay : Overlay) : Overlay :=
  inSequence (List.replicate (min count (size + 1)) overlay)

/-- An overlay so many times, and up to so many times more, or as often as can be. -/
def repeated (size least : Nat) (most : Option Nat) (overlay : Overlay) : Overlay :=
  match most, least with
  | some most, least =>
    seq (copies size least overlay) (copies size (most - least) (alt stay overlay))
  | none, 0 => alt stay (loop overlay)
  | none, least + 1 => seq (copies size least overlay) (loop overlay)

end Overlay

/-- What a walk over an overlay remembers: at which positions its loops have begun. -/
inductive Trace where
  | fresh
  | pair (first second : Trace)
  | loop (begun : Positions) (body : Trace)
  deriving DecidableEq, Repr

namespace Trace

def parts : Trace → Trace × Trace
  | pair first second => (first, second)
  | _ => (fresh, fresh)

def ofParts : Trace → Trace → Trace
  | fresh, fresh => fresh
  | first, second => pair first second

/-- Where a loop has begun, and the trace of what it repeats. -/
def turns : Trace → Positions × Trace
  | loop begun body => (begun, body)
  | _ => (0, fresh)

end Trace

/-- Turns of a loop, at most so many: each one begins where the last one has ended and none has
begun before. Gives the positions where a turn has ended. -/
def turns (step : Trace → Positions → Trace × Positions) :
    Nat → Positions × Trace → Positions → Positions → Trace × Positions
  | 0, (begun, body), _, reached => (.loop begun body, reached)
  | count + 1, (begun, body), starts, reached =>
    let unseen := Positions.without starts begun
    if unseen = 0 then (.loop begun body, reached)
    else
      let (body, ends) := step body unseen
      turns step count (begun ||| unseen, body) ends (reached ||| ends)

/-- Where stretches may end that begin at one of the positions, apart from ends that an earlier walk
with the same trace has given. -/
def Overlay.walk (size : Nat) : Overlay → Trace → Positions → Trace × Positions
  | stay, trace, starts => (trace, starts)
  | move allowed, trace, starts => (trace, (starts &&& allowed) <<< 1)
  | hold allowed, trace, starts => (trace, starts &&& allowed)
  | seq first second, trace, starts =>
    if starts = 0 then (trace, 0)
    else
      let (firstTrace, middle) := first.walk size trace.parts.1 starts
      let (secondTrace, ends) := second.walk size trace.parts.2 middle
      (.ofParts firstTrace secondTrace, ends)
  | alt first second, trace, starts =>
    if starts = 0 then (trace, 0)
    else
      let (firstTrace, firstEnds) := first.walk size trace.parts.1 starts
      let (secondTrace, secondEnds) := second.walk size trace.parts.2 starts
      (.ofParts firstTrace secondTrace, firstEnds ||| secondEnds)
  | loop body, trace, starts =>
    turns (fun trace starts => body.walk size trace starts) (size + 2) trace.turns starts 0

/-- Certain characters, one after the other, laid over a text that is long enough to hold them. Each
character is looked for once. -/
def textOverlay (text chars : List Char) : Overlay :=
  if text.length < chars.length then .hold 0
  else
    let marks := chars.eraseDups.map fun c => (c, followed text (· = c))
    .inSequence (chars.map fun c => .move ((marks.lookup c).getD 0))

def overlay (text : List Char) : Pattern → Overlay
  | empty => .stay
  | .text chars => textOverlay text chars
  | one among _ => .move (followed text among.contains)
  | edge condition _ => .hold (placed text condition)
  | sequence parts => .inSequence (parts.map fun part => part.overlay text)
  | choice parts => .inChoice (parts.map fun part => part.overlay text)
  | repeated body least most _ => (body.overlay text).repeated text.length least most
  | group body => body.overlay text

/-- Whether a text holds a stretch of the pattern. -/
def occursIn (pattern : Pattern) (text : String) : Bool :=
  let text := text.toList
  ((pattern.overlay text).walk text.length .fresh (.all text.length)).2 ≠ 0

end Pattern

end Toolpath
