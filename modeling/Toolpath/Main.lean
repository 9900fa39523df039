import Toolpath.Answer

/-! # The command line

Brings the files that the words name into a tree, asks for the answer, and carries the changes back
to the file system. Nothing is decided here.
-/

namespace Toolpath.CommandLine

/-- What an opened path holds; what can be opened but not read is a directory. -/
def content (handle : IO.FS.Handle) : IO Node := do
  try
    return .file (← handle.readBinToEnd)
  catch _ => return .directory

def probe (path : String) : IO (Option Node) := do
  try
    return some (← content (← IO.FS.Handle.mk path .read))
  catch _ => return none

def spell (place : Place) : String := "/" ++ "/".intercalate place

/-- Brings everything on the way of a path into the tree, as far as it is there. -/
def bring (tree : FileTree) (path : String) : IO FileTree := do
  match tree.route path with
  | .error _ => return tree
  | .ok route =>
    let mut tree := tree
    let mut place := route.start
    let mut there := true
    for name in route.names do
      if there then
        if name = ".." then place := place.dropLast
        else if name ≠ "." then
          place := place ++ [name]
          match ← probe (spell place) with
          | some node => tree := tree.put place node
          | none => there := false
    return tree

/-- The directory for the configuration of the user. -/
def userDirectory : IO (Option String) := do
  match ← IO.getEnv "XDG_CONFIG_HOME" with
  | some directory =>
    if directory.startsWith "/" then return some directory
  | none => pure ()
  return (← IO.getEnv "HOME").map (· ++ "/.config")

/-- The paths that a job may look at. -/
def paths (user : Option String) (options : Options) : List String :=
  [Job.projectSettings, options.input, options.output] ++ options.config.toList ++
    (user.map Job.userSettings).toList ++ options.stateIn.toList ++ options.stateOut.toList

/-- Carries a changed file back; it is set aside first and moved into place at the end. -/
def carryBack (before : FileTree) (entry : Place × Node) : IO Unit := do
  match entry with
  | (place, .file content) =>
    if before.get? place ≠ some (.file content) then
      let path := spell place
      let aside := path ++ ".part"
      IO.FS.writeBinFile aside content
      IO.FS.rename aside path
  | (_, .directory) => return ()

/-- Answers the words of a command line. -/
def run (words : List String) : IO UInt32 := do
  let workingDirectory := FileTree.names (toString (← IO.currentDir)).toList
  let user ← userDirectory
  let mut tree := FileTree.addParents { workingDirectory } workingDirectory
  let mut stdin := ByteArray.empty
  match Options.parse words with
  | .error _ => pure ()
  | .ok options =>
    for path in paths user options do
      tree ← bring tree path
    if options.input = "-" then stdin ← (← IO.getStdin).readBinToEnd
  let answer := Answer.toWords tree user words stdin
  for entry in answer.tree.entries do
    carryBack tree entry
  let stdout ← IO.getStdout
  stdout.write answer.stdout
  stdout.flush
  let stderr ← IO.getStderr
  for utterance in answer.said do
    stderr.putStr utterance.text
  return UInt32.ofNat answer.exit

end Toolpath.CommandLine

def main (words : List String) : IO UInt32 := Toolpath.CommandLine.run words
