import Toolpath.FileTree

/-! # Files that are set aside

A result grows in a file that is set aside and is moved into place at the end. Making such a file,
moving it and dropping it are left to a library; `Staging.Lawful` says what may be relied on.
-/

namespace Toolpath

/-- A library that sets files aside. -/
structure Staging where
  /-- Creates an empty file in a directory: its place, and the tree with it. -/
  create : FileTree → String → Except IoFault (Place × FileTree)
  /-- Moves the file at a place to a path. -/
  persist : FileTree → Place → String → Except IoFault FileTree
  /-- The tree once the file at a place is dropped. -/
  drop : FileTree → Place → FileTree

/-- A file is set aside where nothing stood, it is moved as files are moved, and nothing is left of
one that is dropped. -/
structure Staging.Lawful (staging : Staging) : Prop where
  create_cases : ∀ {tree after : FileTree} {directory : String} {place : Place},
    staging.create tree directory = .ok (place, after) →
      place ≠ [] ∧ tree.get? place = none ∧ after = tree.put place (.file .empty)
  persist_eq : ∀ tree place path, staging.persist tree place path = tree.rename place path
  drop_eq : ∀ tree place, staging.drop tree place = tree.erase place

end Toolpath
