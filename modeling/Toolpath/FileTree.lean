import Toolpath.ByteString
import Toolpath.Fault

/-! # A tree of files

The files that a job can reach, from the outermost directory down. Names are resolved one component
after the other, as a file system does it, so that each kind of failure comes from the first
component that causes it.
-/

namespace Toolpath

/-- A place in the tree: the names from the outermost directory down to it. -/
abbrev Place := List String

/-- What stands at a place. -/
inductive Node where
  | directory
  | file (content : ByteArray)
  deriving DecidableEq

/-- Files and directories, and the directory that relative paths start from. -/
structure FileTree where
  entries : List (Place × Node) := []
  workingDirectory : Place := []
  deriving DecidableEq

namespace FileTree

/-- The longest name of one component, in bytes. -/
def maxName : Nat := 255

/-- The longest path, in bytes. -/
def maxPath : Nat := 4095

/-- What stands at a place; the outermost directory is always there. -/
def get? (tree : FileTree) (place : Place) : Option Node :=
  if place.isEmpty then some .directory
  else (tree.entries.find? (·.1 = place)).map (·.2)

/-- The tree with something else at a place. -/
def put (tree : FileTree) (place : Place) (node : Node) : FileTree :=
  { tree with entries := tree.entries.filter (·.1 ≠ place) ++ [(place, node)] }

/-- The tree with nothing at a place. -/
def erase (tree : FileTree) (place : Place) : FileTree :=
  { tree with entries := tree.entries.filter (·.1 ≠ place) }

structure Route where
  /-- The directory that the path starts from. -/
  start : Place
  /-- The names of the path in order. -/
  names : List String
  /-- Whether the path ends in a slash. -/
  slash : Bool
  deriving DecidableEq, Repr

/-- The names of a text between slashes. -/
def names (text : List Char) : List String :=
  ((text.splitOn '/').filter fun part => !part.isEmpty).map String.ofList

def route (tree : FileTree) (path : String) : Except IoFault Route :=
  let text := path.toList
  if text.contains '\x00' then .error .invalidName
  else if text.isEmpty then .error .notFound
  else if maxPath < path.utf8ByteSize then .error .nameTooLong
  else .ok {
    start := if text.head? = some '/' then [] else tree.workingDirectory
    names := names text
    slash := text.getLast? = some '/' }

/-- What a name leads to from a directory; a dot stays, and two dots lead to the directory above. -/
def enter (tree : FileTree) (place : Place) (name : String) : Except IoFault (Place × Node) :=
  if name = "." then .ok (place, .directory)
  else if name = ".." then .ok (place.dropLast, .directory)
  else if maxName < name.utf8ByteSize then .error .nameTooLong
  else
    match tree.get? (place ++ [name]) with
    | some node => .ok (place ++ [name], node)
    | none => .error .notFound

/-- What a list of names leads to; every name but the last must lead to a directory. -/
def walk (tree : FileTree) (place : Place) (node : Node) :
    List String → Except IoFault (Place × Node)
  | [] => .ok (place, node)
  | name :: rest =>
    match node with
    | .file _ => .error .notADirectory
    | .directory => do
      let (place, node) ← tree.enter place name
      tree.walk place node rest

/-- What a path leads to; a path that ends in a slash leads to directories only. -/
def find (tree : FileTree) (path : String) : Except IoFault Node := do
  let route ← tree.route path
  let (_, node) ← tree.walk route.start .directory route.names
  match node with
  | .file _ => if route.slash then .error .notADirectory else .ok node
  | .directory => .ok node

def isFile (tree : FileTree) (path : String) : Bool :=
  match tree.find path with
  | .ok (.file _) => true
  | _ => false

def read (tree : FileTree) (path : String) : Except IoFault ByteArray := do
  match ← tree.find path with
  | .file content => .ok content
  | .directory => .error .isADirectory

def readText (tree : FileTree) (path : String) : Except IoFault String := do
  match String.fromUTF8? (← tree.read path) with
  | some text => .ok text
  | none => .error .invalidText

/-- Where a path puts a file. -/
inductive Target where
  /-- A name in a directory, and whether a slash follows the name. -/
  | entry (directory : Place) (name : String) (slash : Bool)
  /-- The path leads to a directory by its form alone. -/
  | directory
  deriving DecidableEq, Repr

/-- Where a path puts a file. The directories on the way must be there. -/
def target (tree : FileTree) (path : String) : Except IoFault Target := do
  let route ← tree.route path
  match route.names.getLast? with
  | none => .ok .directory
  | some name =>
    let (place, node) ← tree.walk route.start .directory route.names.dropLast
    match node with
    | .file _ => .error .notADirectory
    | .directory =>
      if name = "." ∨ name = ".." then .ok .directory
      else .ok (.entry place name route.slash)

/-- The tree with a file in a directory, unless the name belongs to a directory. -/
def putFile (tree : FileTree) (directory : Place) (name : String) (content : ByteArray) :
    Except IoFault FileTree :=
  if maxName < name.utf8ByteSize then .error .nameTooLong
  else
    match tree.get? (directory ++ [name]) with
    | some .directory => .error .isADirectory
    | _ => .ok (tree.put (directory ++ [name]) (.file content))

/-- Creates a file, or writes over one. -/
def write (tree : FileTree) (path : String) (content : ByteArray) : Except IoFault FileTree := do
  match ← tree.target path with
  | .directory => .error .isADirectory
  | .entry directory name slash =>
    if slash then .error .isADirectory else tree.putFile directory name content

/-- Moves a finished file into place, over a file that may be there. -/
def replace (tree : FileTree) (path : String) (content : ByteArray) : Except IoFault FileTree := do
  match ← tree.target path with
  | .directory => .error .busy
  | .entry directory name slash =>
    if maxName < name.utf8ByteSize then .error .nameTooLong
    else if slash then .error .notADirectory
    else tree.putFile directory name content

/-- Moves the file at a place to a path. -/
def rename (tree : FileTree) (place : Place) (path : String) : Except IoFault FileTree :=
  match tree.get? place with
  | some (.file content) => (tree.erase place).replace path content
  | _ => .error .notFound

/-- The ends of the components of a path; a leading slash or a leading dot counts as one, and other
dots say nothing. -/
def componentEnds (text : List Char) : List Nat :=
  let rooted := text.head? = some '/'
  let pieces := text.splitOn '/'
  let starts := pieces.foldl (fun (ends : List (Nat × List Char) × Nat) piece =>
    (ends.1 ++ [(ends.2, piece)], ends.2 + piece.length + 1)) ([], 0)
  let spoken := starts.1.filter fun (start, piece) =>
    !piece.isEmpty && (piece ≠ ['.'] || (start = 0 && !rooted))
  (if rooted then [1] else []) ++ spoken.map fun (start, piece) => start + piece.length

/-- The directory part of a path, or a dot if the path names no directory. -/
def directoryOf (path : String) : String :=
  let text := path.toList
  let ends := componentEnds text
  match ends.dropLast.getLast? with
  | some size => String.ofList (text.take size)
  | none => "."

def addParents (tree : FileTree) (place : Place) : FileTree :=
  (List.range (place.length + 1)).foldl (fun tree depth =>
    if (tree.get? (place.take depth)).isSome then tree
    else tree.put (place.take depth) .directory) tree

/-- Adds a file below the working directory, or a directory if the name ends in a slash, with the
directories on the way. -/
def add (tree : FileTree) (name : String) (content : ByteArray) : FileTree :=
  let place := tree.workingDirectory ++ names name.toList
  if name.toList.getLast? = some '/' then tree.addParents place
  else (tree.addParents place.dropLast).put place (.file content)

/-- An entry below the working directory by its name there; the name of a directory ends in a
slash, and a directory has no content. -/
def listed? (tree : FileTree) (entry : Place × Node) : Option (String × Option ByteArray) :=
  let below := entry.1.drop tree.workingDirectory.length
  let name := "/".intercalate below
  if below.isEmpty || !tree.workingDirectory.isPrefixOf entry.1 then none
  else some <| match entry.2 with
    | .directory => (name ++ "/", none)
    | .file content => (name, some content)

/-- Every entry below the working directory, in the order of the names. -/
def listing (tree : FileTree) : List (String × Option ByteArray) :=
  (tree.entries.filterMap tree.listed?).mergeSort fun a b => decide (a.1 ≤ b.1)

end FileTree

end Toolpath
