import Mathlib
import Toolpath.FileTree

/-! # What file operations change

Writing a file and moving one into place put it where its path lands, and change nothing else. Paths
go through directories only, so a file that appears where no directory stands changes the way of no
path. What was put where nothing stood can be taken away again, which leaves the tree as it was.
-/

namespace Toolpath.FileTree

section Places

variable {tree : FileTree} {place other : Place} {node : Node}

theorem get?_eq_none_iff (inside : place ≠ []) :
    tree.get? place = none ↔ ∀ entry ∈ tree.entries, entry.1 ≠ place := by
  rw [get?, if_neg (by simpa using inside)]
  simp

private theorem find?_filter_place (entries : List (Place × Node)) (place other : Place) :
    (entries.filter fun entry => entry.1 ≠ place).find? (fun entry => entry.1 = other) =
      if other = place then none else entries.find? fun entry => entry.1 = other := by
  rw [List.find?_filter]
  split_ifs with same
  · subst same
    simp
  · congr 1
    funext entry
    by_cases here : entry.1 = other <;> simp [here, same]

theorem get?_put (inside : place ≠ []) :
    (tree.put place node).get? other = if other = place then some node else tree.get? other := by
  by_cases outermost : other = []
  · subst outermost
    rw [if_neg inside.symm]
    rfl
  · have nonempty : ¬ other.isEmpty = true := by simpa using outermost
    rw [get?, if_neg nonempty, get?, if_neg nonempty, put, List.find?_append, find?_filter_place]
    split_ifs with same
    · simp [same]
    · simp [Ne.symm same]

/-- What was put where nothing stood can be taken away again. -/
theorem erase_put (inside : place ≠ []) (free : tree.get? place = none) :
    (tree.put place node).erase place = tree := by
  have absent := (get?_eq_none_iff inside).mp free
  have kept : tree.entries.filter (fun entry => entry.1 ≠ place) = tree.entries := by
    apply List.filter_eq_self.mpr
    intro entry member
    exact decide_eq_true (absent entry member)
  rw [erase, put, List.filter_append, List.filter_filter]
  simp only [Bool.and_self, kept, List.filter_cons, ne_eq, not_true, decide_false,
    Bool.false_eq_true, if_false, List.filter_nil, List.append_nil]

theorem put_put (first second : Node) :
    (tree.put place first).put place second = tree.put place second := by
  simp [put]

end Places

/-! ## The ways of paths -/

/-- Trees with the same directories. -/
structure SameDirectories (tree other : FileTree) : Prop where
  workingDirectory : other.workingDirectory = tree.workingDirectory
  directories : ∀ place, other.get? place = some .directory ↔ tree.get? place = some .directory

theorem SameDirectories.symm {tree other : FileTree} (same : tree.SameDirectories other) :
    other.SameDirectories tree :=
  ⟨same.workingDirectory.symm, fun place => (same.directories place).symm⟩

/-- A file where no directory stands leaves the directories alone. -/
theorem sameDirectories_put {tree : FileTree} {place : Place} (inside : place ≠ [])
    (free : tree.get? place ≠ some .directory) (content : ByteArray) :
    tree.SameDirectories (tree.put place (.file content)) := by
  refine ⟨rfl, ?_⟩
  intro other
  rw [get?_put inside]
  split_ifs with same
  · subst same
    simp [free]
  · rfl

/-- A walk that ends at a directory goes through directories. -/
private theorem SameDirectories.walk {tree other : FileTree} (same : tree.SameDirectories other)
    {place directory : Place} {names : List String}
    (success : tree.walk place .directory names = .ok (directory, .directory)) :
    other.walk place .directory names = .ok (directory, .directory) := by
  induction names generalizing place with
  | nil => exact success
  | cons name names ih =>
    rw [FileTree.walk] at success ⊢
    rw [enter] at success ⊢
    split_ifs at success ⊢ with stays above long
    · exact ih success
    · exact ih success
    · contradiction
    · cases found : tree.get? (place ++ [name]) with
      | none =>
        rw [found] at success
        contradiction
      | some node =>
        rw [found] at success
        cases node with
        | directory =>
          rw [(same.directories _).mpr found]
          exact ih success
        | file content =>
          change tree.walk (place ++ [name]) (.file content) names = _ at success
          cases names with
          | nil =>
            obtain ⟨-, stray⟩ := Prod.mk.inj (Except.ok.inj success)
            contradiction
          | cons next names => contradiction

/-- A path that puts a file goes through directories to its last name. -/
private theorem target_eq_entry_iff {tree : FileTree} {path : String} {directory : Place}
    {name : String} {slash : Bool} :
    tree.target path = .ok (.entry directory name slash) ↔
      ∃ route, tree.route path = .ok route ∧ route.names.getLast? = some name ∧
        tree.walk route.start .directory route.names.dropLast = .ok (directory, .directory) ∧
        ¬ (name = "." ∨ name = "..") ∧ route.slash = slash := by
  rw [target]
  cases tree.route path with
  | error fault => simp [bind, Except.bind]
  | ok route =>
    simp only [bind, Except.bind, Except.ok.injEq, exists_eq_left']
    cases last : route.names.getLast? with
    | none => simp
    | some final =>
      simp only [Option.some.injEq]
      cases walked : tree.walk route.start .directory route.names.dropLast with
      | error fault => simp
      | ok found =>
        obtain ⟨place, node⟩ := found
        cases node with
        | file content => simp
        | directory =>
          simp only [Except.ok.injEq, Prod.mk.injEq, and_true]
          split_ifs with dots
          · constructor
            · intro stray
              exact absurd (Except.ok.inj stray) nofun
            · rintro ⟨rfl, -, proper, -⟩
              exact absurd dots proper
          · simp only [Except.ok.injEq, Target.entry.injEq]
            constructor
            · rintro ⟨rfl, rfl, rfl⟩
              exact ⟨rfl, rfl, dots, rfl⟩
            · rintro ⟨rfl, rfl, -, rfl⟩
              exact ⟨rfl, rfl, rfl⟩

/-- A path lands at a place when a file can be put there under the path. -/
structure Lands (tree : FileTree) (path : String) (place : Place) : Prop where
  entry : ∃ directory name, place = directory ++ [name] ∧ name.utf8ByteSize ≤ maxName ∧
    tree.target path = .ok (.entry directory name false)
  free : tree.get? place ≠ some .directory

theorem Lands.inside {tree : FileTree} {path : String} {place : Place}
    (lands : tree.Lands path place) : place ≠ [] := by
  obtain ⟨directory, name, rfl, -, -⟩ := lands.entry
  simp

/-- A path lands at one place at most. -/
theorem Lands.eq_of_target {tree : FileTree} {path name : String} {place directory : Place}
    {slash : Bool} (lands : tree.Lands path place)
    (target : tree.target path = .ok (.entry directory name slash)) : place = directory ++ [name] := by
  obtain ⟨other, last, rfl, -, same⟩ := lands.entry
  obtain ⟨rfl, rfl, -⟩ := Target.entry.inj (Except.ok.inj (same.symm.trans target))
  rfl

/-- Where a path lands depends on the directories only. -/
theorem SameDirectories.lands {tree other : FileTree} (same : tree.SameDirectories other)
    {path : String} {place : Place} (lands : tree.Lands path place) : other.Lands path place := by
  obtain ⟨⟨directory, name, rfl, short, target⟩, free⟩ := lands
  refine ⟨⟨directory, name, rfl, short, ?_⟩, fun stray => free ((same.directories _).mp stray)⟩
  obtain ⟨route, start, last, walk, proper, slash⟩ := target_eq_entry_iff.mp target
  refine target_eq_entry_iff.mpr ⟨route, ?_, last, same.walk walk, proper, slash⟩
  rw [← start, FileTree.route, FileTree.route, same.workingDirectory]

private theorem putFile_eq_ok_iff {tree after : FileTree} {directory : Place} {name : String}
    {content : ByteArray} :
    tree.putFile directory name content = .ok after ↔
      name.utf8ByteSize ≤ maxName ∧ tree.get? (directory ++ [name]) ≠ some .directory ∧
        after = tree.put (directory ++ [name]) (.file content) := by
  rw [putFile]
  split_ifs with long
  · simp [Nat.not_le.mpr long]
  · have short := Nat.le_of_not_lt long
    cases found : tree.get? (directory ++ [name]) with
    | none => simp [short, eq_comm]
    | some node => cases node <;> simp [short, eq_comm]

/-- A path lands somewhere if a file can be put into the directory that it leads to. -/
private theorem exists_lands_iff {tree after : FileTree} {path : String} {content : ByteArray} :
    (∃ place, tree.Lands path place ∧ after = tree.put place (.file content)) ↔
      ∃ directory name, tree.target path = .ok (.entry directory name false) ∧
        tree.putFile directory name content = .ok after := by
  constructor
  · rintro ⟨place, ⟨⟨directory, name, rfl, short, target⟩, free⟩, rfl⟩
    exact ⟨directory, name, target, putFile_eq_ok_iff.mpr ⟨short, free, rfl⟩⟩
  · rintro ⟨directory, name, target, put⟩
    obtain ⟨short, free, rfl⟩ := putFile_eq_ok_iff.mp put
    exact ⟨_, ⟨⟨directory, name, rfl, short, target⟩, free⟩, rfl⟩

/-- A file is written where its path lands. -/
theorem write_eq_ok_iff {tree after : FileTree} {path : String} {content : ByteArray} :
    tree.write path content = .ok after ↔
      ∃ place, tree.Lands path place ∧ after = tree.put place (.file content) := by
  rw [exists_lands_iff, write]
  cases outcome : tree.target path with
  | error fault => simp [bind, Except.bind]
  | ok target =>
    cases target with
    | directory => simp [bind, Except.bind]
    | entry directory name slash => cases slash <;> simp [bind, Except.bind]

/-- A file is moved to where its path lands. -/
theorem replace_eq_ok_iff {tree after : FileTree} {path : String} {content : ByteArray} :
    tree.replace path content = .ok after ↔
      ∃ place, tree.Lands path place ∧ after = tree.put place (.file content) := by
  rw [exists_lands_iff, replace]
  cases outcome : tree.target path with
  | error fault => simp [bind, Except.bind]
  | ok target =>
    cases target with
    | directory => simp [bind, Except.bind]
    | entry directory name slash =>
      cases slash with
      | true =>
        simp only [bind, Except.bind, if_true]
        split_ifs <;> simp
      | false =>
        simp only [bind, Except.bind, Bool.false_eq_true, if_false]
        split_ifs with long
        · simp [putFile, long]
        · simp

/-- Moving a file that was set aside puts its content where the path lands. -/
theorem rename_staged {tree : FileTree} {place : Place} (inside : place ≠ [])
    (free : tree.get? place = none) (content : ByteArray) (path : String) :
    (tree.put place (.file content)).rename place path = tree.replace path content := by
  rw [rename, get?_put inside, if_pos rfl]
  simp only [erase_put inside free]

/-- A walk goes on from where it has come to. -/
private theorem walk_append {tree : FileTree} {place reached : Place} {node last : Node}
    {front : List String} (walked : tree.walk place node front = .ok (reached, last))
    (back : List String) : tree.walk place node (front ++ back) = tree.walk reached last back := by
  induction front generalizing place node with
  | nil =>
    obtain ⟨rfl, rfl⟩ := Prod.mk.inj (Except.ok.inj walked)
    rfl
  | cons name front ih =>
    cases node with
    | file content => contradiction
    | directory =>
      rw [FileTree.walk] at walked
      rw [List.cons_append, FileTree.walk]
      cases entered : tree.enter place name with
      | error fault =>
        rw [entered] at walked
        contradiction
      | ok next =>
        rw [entered] at walked
        exact ih walked

/-- A file is read where its path lands. -/
theorem Lands.read {tree : FileTree} {path : String} {place : Place} (lands : tree.Lands path place)
    {content : ByteArray} (present : tree.get? place = some (.file content)) :
    tree.read path = .ok content := by
  obtain ⟨⟨directory, name, rfl, short, target⟩, -⟩ := lands
  obtain ⟨route, start, last, walk, proper, slash⟩ := target_eq_entry_iff.mp target
  obtain ⟨stay, up⟩ := not_or.mp proper
  have names : route.names.dropLast ++ [name] = route.names := by
    apply List.dropLast_append_getLast?
    exact last
  have found : tree.walk route.start .directory route.names =
      .ok (directory ++ [name], .file content) := by
    rw [← names, walk_append walk, FileTree.walk, enter, if_neg stay, if_neg up,
      if_neg (Nat.not_lt.mpr short), present]
    rfl
  simp [FileTree.read, find, start, found, slash, bind, Except.bind]

/-- A file that is put where a path lands does not change where paths land. -/
theorem Lands.put {tree : FileTree} {path other : String} {place there : Place}
    (lands : tree.Lands path place) (content : ByteArray) (otherLands : tree.Lands other there) :
    (tree.put place (.file content)).Lands other there :=
  (sameDirectories_put lands.inside lands.free content).lands otherLands

end Toolpath.FileTree
