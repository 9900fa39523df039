import Toolpath.Machine.Document
import Toolpath.Options
import Toolpath.Pass.Stream
import Toolpath.Staging

/-! # A job

A job reads a program from a file or from the standard input and writes the reduced program to a
file or to the standard output, starting from a saved machine and saving the machine after it where
asked for. The output file changes only when the whole pass has succeeded: the result is set aside
and moved into place at the end. Settings are read, machines are read and saved, and files are set
aside by libraries that are parameters.
-/

namespace Toolpath

/-- A reason behind a failure. -/
inductive Cause where
  | said (text : String)
  | io (fault : IoFault)
  /-- A fault in a document or in moving a file, in words that may change. -/
  | informal (text : String)
  deriving DecidableEq, Repr

def Cause.message : Cause → String
  | .said text => text
  | .io fault => fault.message
  | .informal text => text

/-- Why a job fails: what was being done, and the reasons from the outside in. -/
structure Failure where
  context : String
  causes : List Cause
  deriving DecidableEq, Repr

def Failure.ofPass (fault : PassFault) : Failure where
  context := "Minification failed"
  causes := .said fault.message :: match fault with
    | .line _ reason => [.said reason.message]
    | .read _ reason | .write reason => [.io reason]

/-- A result of a file operation, with what was being done in front of its failure. -/
def inContext {α : Type} (context : String) (result : Except IoFault α) : Except Failure α :=
  match result with
  | .ok value => .ok value
  | .error fault => .error ⟨context, [.io fault]⟩

/-- A document that could be read, or the failure to make sense of it. -/
def documentOr {α : Type} (context : String) (document : Option α) : Except Failure α :=
  match document with
  | some value => .ok value
  | none => .error ⟨context, [.informal "the document is not valid"]⟩

structure Job where
  /-- Path of the input; the standard input if there is none. -/
  input : Option String := none
  /-- Path of the output; the standard output if there is none. -/
  output : Option String := none
  settings : Settings := {}
  /-- Path of the settings file that was used. -/
  settingsFile : Option String := none
  stateIn : Option String := none
  stateOut : Option String := none
  logLevel : String := "warn"
  deriving DecidableEq, Repr

namespace Job

def projectSettings : String := "./.gcode-minify.toml"

/-- The settings file of a user, in the directory for configuration. -/
def userSettings (directory : String) : String := directory ++ "/gcode-minify/config.toml"

/-- The settings file that is used when none is named: the project's, else the user's. -/
def discover (tree : FileTree) (userDirectory : Option String) : Option String :=
  if tree.isFile projectSettings then some projectSettings
  else (userDirectory.map userSettings).filter tree.isFile

def loadSettings (readSettings? : String → Option Settings) (tree : FileTree) (path : String) :
    Except Failure Settings := do
  let text ← inContext ("Failed to read settings file " ++ path) (tree.readText path)
  documentOr ("Failed to parse settings file " ++ path) (readSettings? text)

/-- Settings with the options over them: a switch can only turn something on. -/
def mergeOptions (settings : Settings) (options : Options) : Settings where
  threshold := options.threshold.getD settings.threshold
  xyDecimals := options.xyDecimals.getD settings.xyDecimals
  zDecimals := options.zDecimals.getD settings.zDecimals
  eDecimals := options.eDecimals.getD settings.eDecimals
  removeComments := settings.removeComments || options.removeComments
  allowUnknown := settings.allowUnknown || options.allowUnknown

/-- A path, unless it is the dash that stands for the standard streams. -/
def pathOrStandard (text : String) : Option String := if text = "-" then none else some text

def settingsPath (tree : FileTree) (userDirectory : Option String) (options : Options) :
    Option String :=
  match options.config with
  | some path => some path
  | none => if options.noConfig then none else discover tree userDirectory

/-- The job that the options ask for. -/
def configure (readSettings? : String → Option Settings) (tree : FileTree)
    (userDirectory : Option String) (options : Options) : Except Failure Job := do
  let settingsFile := settingsPath tree userDirectory options
  let settings ← match settingsFile with
    | some path => loadSettings readSettings? tree path
    | none => .ok {}
  return {
    input := pathOrStandard options.input
    output := pathOrStandard options.output
    settings := mergeOptions settings options
    settingsFile
    stateIn := options.stateIn
    stateOut := options.stateOut
    logLevel := options.logLevel }

inductive Ending where
  | done
  | failed (failure : Failure)
  /-- A number that needs too many places ends the job at once. -/
  | aborted
  deriving DecidableEq, Repr

/-- What a job leaves behind. -/
structure Outcome where
  tree : FileTree
  /-- What has been written to the standard output. -/
  stdout : ByteArray := .empty
  notes : List Note := []
  ending : Ending := .done
  deriving DecidableEq

def loadMachine (json : JsonLibrary) (tree : FileTree) : Option String → Except Failure Machine
  | none => .ok {}
  | some path => do
    let text ← inContext ("Failed to read state file " ++ path) (tree.readText path)
    documentOr ("Failed to parse state file " ++ path) (json.readMachine? text)

/-- Opens the program; a directory can be opened but not read. -/
def openInput (tree : FileTree) (stdin : ByteArray) : Option String → Except Failure Source
  | none => .ok (.ofBytes stdin)
  | some path => do
    match ← inContext ("Failed to open " ++ path) (tree.find path) with
    | .file content => .ok (.ofBytes content)
    | .directory => .ok (.failing .isADirectory)

/-- A result that is set aside: the place where it grows, and the path that it is moved to. -/
structure Staged where
  place : Place
  path : String
  deriving DecidableEq, Repr

/-- Creates the file for the result next to the output file. -/
def stageOutput (staging : Staging) (tree : FileTree) :
    Option String → Except Failure (Option Staged × FileTree)
  | none => .ok (none, tree)
  | some path => do
    let directory := FileTree.directoryOf path
    let (place, tree) ← inContext ("Failed to create a temporary file in " ++ directory)
      (staging.create tree directory)
    return (some { place, path }, tree)

/-- What stands ready before the first line. -/
structure Start where
  machine : Machine
  source : Source
  staged : Option Staged
  tree : FileTree

/-- Everything that has to be there before the first line: the machine, the program, and the file
for the result. -/
def prepare (json : JsonLibrary) (staging : Staging) (job : Job) (tree : FileTree)
    (stdin : ByteArray) : Except Failure Start := do
  let machine ← loadMachine json tree job.stateIn
  let source ← openInput tree stdin job.input
  let (staged, tree) ← stageOutput staging tree job.output
  return { machine, source, staged, tree }

/-- The tree with what a pass has written in the file that is set aside. -/
def fill (tree : FileTree) (staged : Option Staged) (content : ByteArray) : FileTree :=
  staged.elim tree fun staged => tree.put staged.place (.file content)

/-- The tree without the file that was set aside. -/
def discard (staging : Staging) (tree : FileTree) (staged : Option Staged) : FileTree :=
  staged.elim tree fun staged => staging.drop tree staged.place

/-- Moves the result into place as the output file. -/
def keepOutput (staging : Staging) (tree : FileTree) : Option Staged → Except Failure FileTree
  | none => .ok tree
  | some staged =>
    match staging.persist tree staged.place staged.path with
    | .ok tree => .ok tree
    | .error fault =>
      let moved := "failed to persist temporary file: " ++ fault.message
      .error ⟨"Failed to write " ++ staged.path, [.informal moved, .io fault]⟩

def keepMachine (json : JsonLibrary) (tree : FileTree) (machine : Machine) :
    Option String → Except Failure FileTree
  | none => .ok tree
  | some path =>
    inContext ("Failed to write state file " ++ path)
      (tree.write path (json.pretty machine.fields ++ "\n").toUTF8)

/-- What is done with the result of a pass that has succeeded. -/
def conclude (json : JsonLibrary) (staging : Staging) (job : Job) (tree : FileTree)
    (staged : Option Staged) (delivery : Delivery) (notes : List Note) : Outcome :=
  let stdout := if staged.isSome then .empty else delivery.sink.written
  match keepOutput staging tree staged with
  | .error failure =>
    { tree := discard staging tree staged, stdout, notes, ending := .failed failure }
  | .ok tree =>
    let notes := notes ++ [.finished delivery.machine]
    match keepMachine json tree delivery.machine job.stateOut with
    | .error failure => { tree, stdout, notes, ending := .failed failure }
    | .ok tree => { tree, stdout, notes }

def execute (json : JsonLibrary) (staging : Staging) (job : Job) (tree : FileTree)
    (stdin : ByteArray) : Outcome :=
  let tuning := job.settings.resolve
  let notes := job.settings.notes
  match job.prepare json staging tree stdin with
  | .error failure => { tree, notes, ending := .failed failure }
  | .ok start =>
    let delivery := tuning.deliver start.machine start.source {}
    let notes := notes ++ delivery.notes.toList
    let stdout := if start.staged.isSome then .empty else delivery.sink.written
    let tree := fill start.tree start.staged delivery.sink.written
    match delivery.fault with
    | none => job.conclude json staging tree start.staged delivery notes
    | some (.line _ .placesExceeded) =>
      { tree := discard staging tree start.staged, stdout, notes, ending := .aborted }
    | some fault =>
      { tree := discard staging tree start.staged, stdout, notes, ending := .failed (.ofPass fault) }

end Job

end Toolpath
