import Toolpath.Job

/-! # The command

What the command answers to its words: the exit code, the two output streams and the files that it
leaves. The words are understood, and the notes are chosen and written, by libraries that are
parameters like those of a job.
-/

namespace Toolpath

/-- Something that is written to the error stream at once. -/
structure Utterance where
  /-- Whether it begins as a note. -/
  isNote : Bool
  text : String
  deriving DecidableEq, Repr

/-- What the command leaves behind. -/
structure Answer where
  exit : Nat
  stdout : ByteArray := .empty
  /-- What is written to the standard error stream, in order. -/
  said : List Utterance := []
  tree : FileTree
  deriving DecidableEq

/-- The answer to words that ask for no job. -/
structure Refusal where
  exit : Nat
  stdout : String := ""
  stderr : String := ""
  deriving DecidableEq, Repr

structure Logger where
  /-- Which notes a filter shows, and complaints about parts of the filter. -/
  select : String → (Note → Bool) × List String
  text : Note → String

/-- The libraries that the command is built on. -/
structure Libraries where
  /-- The options that words ask for. -/
  parse : List String → Except Refusal Options
  readSettings? : String → Option Settings
  json : JsonLibrary
  staging : Staging
  logger : Logger
  /-- How a failure is reported. -/
  report : Failure → String

namespace Answer

def failureCode : Nat := 1

/-- The exit code of a job that is ended at once. -/
def abortCode : Nat := 101

def ofRefusal (tree : FileTree) (refusal : Refusal) : Answer where
  exit := refusal.exit
  stdout := refusal.stdout.toUTF8
  said := if refusal.stderr.isEmpty then [] else [⟨false, refusal.stderr⟩]
  tree

/-- The answer of a job, after what has been said before it started. -/
def ofOutcome (libraries : Libraries) (shows : Note → Bool) (before : List Utterance)
    (settingsFile : Option String) (outcome : Job.Outcome) : Answer :=
  let notes := (settingsFile.map Note.settingsUsed).toList ++ outcome.notes
  let said := before ++ (notes.filter shows).map fun note => ⟨true, libraries.logger.text note⟩
  let answer : Answer := { exit := 0, stdout := outcome.stdout, said, tree := outcome.tree }
  match outcome.ending with
  | .done => answer
  | .failed failure =>
    { answer with exit := failureCode, said := said ++ [⟨false, libraries.report failure⟩] }
  | .aborted =>
    { answer with exit := abortCode, said := said ++ [⟨false, Fault.placesExceeded.message⟩] }

end Answer

def Libraries.answer (libraries : Libraries) (tree : FileTree) (userDirectory : Option String)
    (words : List String) (stdin : ByteArray) : Answer :=
  match libraries.parse words with
  | .error refusal => .ofRefusal tree refusal
  | .ok options =>
    match Job.configure libraries.readSettings? tree userDirectory options with
    | .error failure =>
      { exit := Answer.failureCode, said := [⟨false, libraries.report failure⟩], tree }
    | .ok job =>
      let (shows, complaints) := libraries.logger.select job.logLevel
      let before := complaints.map fun text => Utterance.mk false text
      .ofOutcome libraries shows before job.settingsFile
        (job.execute libraries.json libraries.staging tree stdin)

end Toolpath
