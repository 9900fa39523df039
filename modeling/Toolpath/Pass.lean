import Toolpath.Note
import Toolpath.Text.Lines

/-! # A pass over a program

A pass takes lines in order, reduces each against the machine that the lines before it left, and
collects the canonical texts of the lines that survive. It ends at the first line that fails.
`Turn` is one line of it; `Run` is what has been done so far.
-/

namespace Toolpath

/-- What becomes of one line of a pass. -/
inductive Verdict where
  | kept (text : String)
  | dropped
  | failed (fault : Fault)
  deriving DecidableEq, Repr

/-- One line of a pass: the machine after it, what becomes of it, and what is said about it. -/
structure Turn where
  machine : Machine
  verdict : Verdict
  notes : List Note := []
  deriving DecidableEq, Repr

/-- Takes the line with the given number. -/
def Tuning.turn (tuning : Tuning) (machine : Machine) (number : Nat) (raw : String) : Turn :=
  match Line.read raw with
  | .error fault => { machine, verdict := .failed (.unreadable fault) }
  | .ok line =>
    let step := tuning.reduce machine line
    match step.fault with
    | some fault => { machine := step.machine, verdict := .failed fault }
    | none =>
      let notes := tuning.notes line step.machine
      if step.line.isEmpty then
        { machine := step.machine, verdict := .dropped, notes := notes ++ [.dropped number] }
      else
        match step.line.render? tuning.precision with
        | some text => { machine := step.machine, verdict := .kept text, notes }
        | none => { machine := step.machine, verdict := .failed .placesExceeded, notes }

/-- What a pass has done so far. -/
structure Run where
  machine : Machine
  /-- Lines taken so far. -/
  count : Nat := 0
  /-- Texts of the surviving lines in order. -/
  kept : Array String := #[]
  notes : Array Note := #[]
  /-- Why the pass has ended early, if it has. -/
  fault : Option PassFault := none
  deriving DecidableEq, Repr

namespace Run

/-- Takes one more line, unless the pass has ended early. -/
def feed (tuning : Tuning) (run : Run) (raw : String) : Run :=
  if run.fault.isSome then run
  else
    let number := run.count + 1
    let turn := tuning.turn run.machine number raw
    let next := { run with machine := turn.machine, count := number, notes := run.notes ++ turn.notes }
    match turn.verdict with
    | .kept text => { next with kept := next.kept.push text }
    | .dropped => next
    | .failed fault => { next with fault := some (.line number fault) }

def feedAll (tuning : Tuning) (run : Run) (lines : List String) : Run := lines.foldl (feed tuning) run

@[simp] theorem feedAll_nil (tuning : Tuning) (run : Run) : run.feedAll tuning [] = run := rfl

@[simp] theorem feedAll_cons (tuning : Tuning) (run : Run) (raw : String) (lines : List String) :
    run.feedAll tuning (raw :: lines) = (run.feed tuning raw).feedAll tuning lines := rfl

theorem feedAll_append (tuning : Tuning) (run : Run) (first second : List String) :
    run.feedAll tuning (first ++ second) = (run.feedAll tuning first).feedAll tuning second :=
  List.foldl_append

/-- A pass that has ended takes no more lines. -/
theorem feedAll_of_fault {run : Run} (ended : run.fault.isSome) (tuning : Tuning)
    (lines : List String) : run.feedAll tuning lines = run := by
  induction lines with
  | nil => rfl
  | cons raw lines ih => rw [feedAll_cons, feed, if_pos ended, ih]

/-- Texts with a line feed after each. -/
def terminated (texts : List String) : String :=
  texts.foldl (fun output text => output ++ text ++ "\n") ""

/-- The output of a pass that has ended: the surviving lines, or a lone line feed if there is none. -/
def output (run : Run) : String :=
  if run.kept.isEmpty then "\n" else terminated run.kept.toList

end Run

def Tuning.runLines (tuning : Tuning) (machine : Machine) (lines : List String) : Run :=
  Run.feedAll tuning { machine } lines

/-- The pass over a whole text. -/
def Tuning.run (tuning : Tuning) (machine : Machine) (text : String) : Run :=
  tuning.runLines machine (Lines.ofString text)

end Toolpath
