import Toolpath.Staging

/-! # Numbered files that are set aside

A file that is set aside gets the first free name of a numbered series, next to the file that it is
to become.
-/

namespace Toolpath

namespace FileTree

/-- The name of a file that is set aside, by its number. -/
def stagedName (number : Nat) : String :=
  String.ofList ('.' :: 't' :: 'm' :: 'p' :: (Nat.toDigits 10 number).leftpad 6 '0')

/-- The path of a file that is set aside in a directory, from the outermost directory on. -/
def stagedPath (tree : FileTree) (directory : String) : String :=
  let start := if directory.toList.head? = some '/' then []
    else tree.workingDirectory.map ("/" ++ ·) ++ ["/"]
  String.join (start ++ [directory, "/", stagedName 0])

/-- A place in a directory where nothing stands: among one name more than there are entries, one is
free. -/
def freePlace (tree : FileTree) (directory : Place) : Place :=
  let names := (List.range (tree.entries.length + 1)).map stagedName
  let free := names.find? fun name => (tree.get? (directory ++ [name])).isNone
  directory ++ [free.getD (stagedName 0)]

def stage (tree : FileTree) (directory : String) : Except IoFault (Place × FileTree) := do
  match ← tree.target (tree.stagedPath directory) with
  | .directory => .error .isADirectory
  | .entry directory _ _ =>
    let place := tree.freePlace directory
    .ok (place, tree.put place (.file .empty))

end FileTree

def Staging.numbered : Staging where
  create := FileTree.stage
  persist := FileTree.rename
  drop := FileTree.erase

end Toolpath
