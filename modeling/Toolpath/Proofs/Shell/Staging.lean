import Mathlib
import Toolpath.Proofs.Job.Files
import Toolpath.Shell.Staging

/-! # A numbered file is set aside where nothing stood

The series of names that is looked through has one name more than there are entries, and different
numbers have different names, so one of them is free.
-/

namespace Toolpath

namespace FileTree

/-- The name of a file that is set aside tells its number. -/
private theorem stagedName_injective : Function.Injective stagedName := by
  intro first second same
  have digits : (Nat.toDigits 10 first).leftpad 6 '0' = (Nat.toDigits 10 second).leftpad 6 '0' := by
    simpa [stagedName] using String.ofList_injective same
  have value := congrArg (Nat.ofDigitChars 10 · 0) digits
  simpa [List.leftpad, Nat.ofDigitChars_append, Nat.ofDigitChars_replicate_zero,
    Nat.ofDigitChars_ten_toDigits] using value

/-- Nothing stands at the place that is chosen for a file that is set aside. -/
private theorem get?_freePlace (tree : FileTree) (directory : Place) :
    tree.get? (tree.freePlace directory) = none := by
  rw [freePlace]
  cases free : ((List.range (tree.entries.length + 1)).map stagedName).find? fun name =>
      (tree.get? (directory ++ [name])).isNone with
  | some name =>
    have unused := List.find?_some free
    exact Option.isNone_iff_eq_none.mp unused
  | none =>
    -- Each of the names would belong to an entry, but there is one name more than entries.
    exfalso
    have taken : ∀ number < tree.entries.length + 1,
        directory ++ [stagedName number] ∈ tree.entries.map Prod.fst := by
      intro number bound
      have used := List.find?_eq_none.mp free (stagedName number)
        (List.mem_map_of_mem (List.mem_range.mpr bound))
      by_contra absent
      apply used
      rw [Option.isNone_iff_eq_none, get?_eq_none_iff (by simp)]
      intro entry member same
      exact absent (same ▸ List.mem_map_of_mem member)
    have distinct : ((List.range (tree.entries.length + 1)).map
        fun number => directory ++ [stagedName number]).Nodup := by
      apply List.Nodup.map _ List.nodup_range
      intro first second same
      exact stagedName_injective (by simpa using same)
    have among : ((List.range (tree.entries.length + 1)).map
        fun number => directory ++ [stagedName number]) ⊆ tree.entries.map Prod.fst := by
      intro place member
      obtain ⟨number, bound, rfl⟩ := List.mem_map.mp member
      exact taken number (List.mem_range.mp bound)
    have fewer := (distinct.subperm among).length_le
    rw [List.length_map, List.length_map, List.length_range] at fewer
    omega

/-- A file that is set aside stands, empty, where nothing stood. -/
private theorem stage_cases {tree after : FileTree} {directory : String} {place : Place}
    (success : tree.stage directory = .ok (place, after)) :
    place ≠ [] ∧ tree.get? place = none ∧ after = tree.put place (.file .empty) := by
  rw [stage] at success
  cases outcome : tree.target (tree.stagedPath directory) with
  | error fault =>
    rw [outcome] at success
    contradiction
  | ok target =>
    rw [outcome] at success
    cases target with
    | directory => contradiction
    | entry directory name slash =>
      obtain ⟨rfl, rfl⟩ := Prod.mk.inj (Except.ok.inj success)
      refine ⟨?_, get?_freePlace tree directory, rfl⟩
      rw [freePlace]
      simp

end FileTree

theorem Staging.lawful_numbered : Staging.numbered.Lawful where
  create_cases := FileTree.stage_cases
  persist_eq _ _ _ := rfl
  drop_eq _ _ := rfl

end Toolpath
