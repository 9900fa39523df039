import Toolpath.Note
import Toolpath.Shell.Blank
import Toolpath.Shell.Visible

/-! # Which notes are shown

A filter is a list of directives such as `debug`, `name=info` or `name`, and an optional pattern
after a slash that occurs in shown messages. Of the directives whose name starts the target of a
note, the one with the longest name decides. What a pattern means is a parameter.
-/

namespace Toolpath

/-- One rule of a filter. -/
structure Directive where
  /-- How the targets start that the rule is for; all targets if there is none. -/
  name : Option String
  /-- The greatest rank that is shown. -/
  rank : Nat
  deriving DecidableEq, Repr

structure NoteFilter where
  directives : List Directive
  /-- What is asked of the messages of shown notes. -/
  accepts : String → Bool := fun _ => true

namespace NoteFilter

def maxRank : Nat := Level.trace.rank

/-- The greatest rank that a level name lets through, in any case of letters. -/
def rankOf? (text : String) : Option Nat :=
  match text.toLower with
  | "off" => some 0
  | "error" => some Level.error.rank
  | "warn" => some Level.warn.rank
  | "info" => some Level.info.rank
  | "debug" => some Level.debug.rank
  | "trace" => some Level.trace.rank
  | _ => none

/-- A directive, or the text of a complaint. -/
def directive (text : List Char) : Except String Directive :=
  match text.splitOn '=' with
  | [only] =>
    let name := String.ofList only
    .ok (match rankOf? name with
      | some rank => ⟨none, rank⟩
      | none => ⟨some name, maxRank⟩)
  | [name, level] =>
    let level := String.ofList (Blank.trim level)
    if level.isEmpty then .ok ⟨some (String.ofList name), maxRank⟩
    else
      match rankOf? level with
      | some rank => .ok ⟨some (String.ofList name), rank⟩
      | none => .error ("invalid logging spec '" ++ level ++ "'")
  | _ => .error ("invalid logging spec '" ++ String.ofList text ++ "'")

/-- Adds a directive over one with the same name. -/
def addDirective (directives : List Directive) (added : Directive) : List Directive :=
  if directives.any (·.name = added.name) then
    directives.map fun directive => if directive.name = added.name then added else directive
  else directives ++ [added]

/-- The filter that a text describes, and complaints about parts of it that are passed over.
Without any directive only errors are shown. `compile` makes a pattern of the text after a slash. -/
def parse (compile : String → Except String (String → Bool)) (spec : String) :
    NoteFilter × List String :=
  let errorsOnly : List Directive := [⟨none, Level.error.rank⟩]
  match spec.toList.splitOn '/' with
  | rules :: rest =>
    if 1 < rest.length then
      ({ directives := errorsOnly }, ["invalid logging spec '" ++ spec ++ "' (too many '/'s)"])
    else
      let texts := ((rules.splitOn ',').map Blank.trim).filter fun text => !text.isEmpty
      let read := texts.map directive
      let directives := read.foldl (fun directives result =>
        match result with
        | .ok added => addDirective directives added
        | .error _ => directives) []
      let directives := if directives.isEmpty then errorsOnly else directives
      let complaints := read.filterMap fun
        | .ok _ => none
        | .error complaint => some complaint
      match rest.head?.map (compile ∘ String.ofList) with
      | none => ({ directives }, complaints)
      | some (.ok accepts) => ({ directives, accepts }, complaints)
      | some (.error fault) => ({ directives }, complaints ++ ["invalid regex filter - " ++ fault])
  | [] => ({ directives := errorsOnly }, [])

def appliesTo (target : String) (directive : Directive) : Bool :=
  directive.name.all fun name => name.toList.isPrefixOf target.toList

def nameSize (directive : Directive) : Nat := directive.name.elim 0 String.utf8ByteSize

/-- The directive that decides about a target: the last one of those with the longest name. -/
def deciding? (filter : NoteFilter) (target : String) : Option Directive :=
  (filter.directives.filter (appliesTo target)).foldl (fun best directive =>
    match best with
    | none => some directive
    | some chosen => if nameSize chosen ≤ nameSize directive then some directive else best) none

def shows (filter : NoteFilter) (note : Note) : Bool :=
  (filter.deciding? note.target).any (fun directive => decide (note.level.rank ≤ directive.rank)) &&
    filter.accepts note.message

end NoteFilter

def indented (padding : String) (text : String) : String :=
  ("\n" ++ padding).intercalate ((text.toList.splitOn '\n').map String.ofList)

/-- A note as it is written: level, target and message, as far as a terminal would show them. -/
def Note.shown (note : Note) : String :=
  let name := note.level.name
  let padding := String.ofList (List.replicate (5 - name.length) ' ')
  Visible.ofString
    ("[" ++ name ++ padding ++ " " ++ note.target ++ "] " ++ indented "    " note.message ++ "\n")

end Toolpath
