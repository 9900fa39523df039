import Toolpath.Command
import Toolpath.Shell.ErrorStream
import Toolpath.Shell.JsonLibrary
import Toolpath.Shell.NoteFilter
import Toolpath.Shell.Pattern.Parse
import Toolpath.Shell.Pattern.Search
import Toolpath.Shell.Staging
import Toolpath.Shell.Toml
import Toolpath.Shell.Words

/-! # The command with its libraries

The libraries that the command is built on, put together, and what it answers with them.
-/

namespace Toolpath

namespace Answer

/-- The notes that are shown, in order. -/
def log (answer : Answer) : List String := (ErrorStream.ofList answer.said).log.toList

/-- The standard error stream without the notes. -/
def stderr (answer : Answer) : String := (ErrorStream.ofList answer.said).plain

def usageCode : Nat := 2

def versionText : String := "gcode-minify 0.1.0\n"

def usageText : String :=
  "Shrink G-code by dropping redundant words and lines\n\n" ++
  "Usage: gcode-minify [OPTIONS]\n\nOptions:\n" ++
  String.join (Options.Flag.all.map fun flag => "  " ++ flag.spelling ++ "\n")

/-- A number right-aligned in five columns, and a text after it. -/
def numbered (index : Nat) (text : String) : String :=
  let number := index.repr
  String.ofList (List.replicate (5 - number.length) ' ') ++ number ++ ": " ++
    indented "       " text ++ "\n"

/-- The report of a failure: what was being done, and the reasons, numbered if there are several. -/
def report (failure : Failure) : String :=
  let causes := failure.causes.map Cause.message
  let reasons := match causes with
    | [] => ""
    | [only] => "\n\nCaused by:\n    " ++ indented "    " only ++ "\n"
    | several => "\n\nCaused by:\n" ++ String.join (several.mapIdx numbered)
  "Error: " ++ failure.context ++ (if causes.isEmpty then "\n" else reasons)

end Answer

/-- The answer to words that cannot be understood, or that ask for help or the version. -/
def OptionFault.refusal : OptionFault → Refusal
  | .help => { exit := 0, stdout := Answer.usageText }
  | .version => { exit := 0, stdout := Answer.versionText }
  | fault => { exit := Answer.usageCode, stderr := "error: " ++ fault.message ++ "\n" }

/-- The pattern that a text describes, or the text of a complaint. -/
def Pattern.compile (text : String) : Except String (String → Bool) :=
  match Pattern.parse text with
  | .ok pattern => .ok pattern.occursIn
  | .error fault => .error (fault.message text)

def Logger.standard : Logger where
  select spec :=
    let (filter, complaints) := NoteFilter.parse Pattern.compile spec
    (filter.shows, complaints.map fun text => "warning: " ++ text ++ ", ignoring it\n")
  text := Note.shown

def Libraries.standard : Libraries where
  parse words := (Options.parse words).mapError OptionFault.refusal
  readSettings? := Settings.readToml?
  json := .fast
  staging := .numbered
  logger := .standard
  report := Answer.report

def Job.ofOptions : FileTree → Option String → Options → Except Failure Job :=
  configure Libraries.standard.readSettings?

def Job.run (job : Job) (tree : FileTree) (stdin : ByteArray) : Outcome :=
  job.execute Libraries.standard.json Libraries.standard.staging tree stdin

/-- The answer to a list of words. -/
def Answer.toWords : FileTree → Option String → List String → ByteArray → Answer :=
  Libraries.standard.answer

end Toolpath
