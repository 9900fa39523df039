/-! # Parameters of a line

A parameter has a one-character key. The entries are kept in the order of their keys, each key
once, so two collections with the same entries are equal and are written the same way.
-/

namespace Toolpath

/-- Values under one-character keys, in increasing order of the keys. -/
structure Params (α : Type) where
  entries : List (Char × α)
  sorted : entries.Pairwise fun a b => a.1 < b.1
  deriving DecidableEq, Repr

namespace Params

variable {α : Type}

def empty : Params α := ⟨[], .nil⟩

instance : Inhabited (Params α) := ⟨empty⟩

def isEmpty (params : Params α) : Bool := params.entries.isEmpty

/-- Puts an entry in its place, over an entry with the same key. -/
def place (key : Char) (value : α) : List (Char × α) → List (Char × α)
  | [] => [(key, value)]
  | entry :: rest =>
    if key < entry.1 then (key, value) :: entry :: rest
    else if entry.1 < key then entry :: place key value rest
    else (key, value) :: rest

/-- Every key after a placement is the placed one or was there before. -/
theorem fst_of_mem_place {key : Char} {value : α} {entries : List (Char × α)} {entry : Char × α}
    (member : entry ∈ place key value entries) : entry.1 = key ∨ entry ∈ entries := by
  induction entries with
  | nil => simp_all [place]
  | cons first rest ih =>
    simp only [place] at member
    split at member
    · rcases List.mem_cons.1 member with rfl | older
      · exact .inl rfl
      · exact .inr older
    · split at member
      · rcases List.mem_cons.1 member with rfl | later
        · exact .inr (List.mem_cons_self ..)
        · exact (ih later).imp_right (List.mem_cons_of_mem _)
      · rcases List.mem_cons.1 member with rfl | older
        · exact .inl rfl
        · exact .inr (List.mem_cons_of_mem _ older)

/-- Placing an entry keeps the keys in increasing order. -/
theorem pairwise_place {key : Char} {value : α} {entries : List (Char × α)}
    (sorted : entries.Pairwise fun a b => a.1 < b.1) :
    (place key value entries).Pairwise fun a b => a.1 < b.1 := by
  induction entries with
  | nil => simp [place]
  | cons first rest ih =>
    obtain ⟨below, tail⟩ := List.pairwise_cons.1 sorted
    simp only [place]
    split
    · rename_i before
      refine List.pairwise_cons.2 ⟨fun entry member => ?_, sorted⟩
      rcases List.mem_cons.1 member with rfl | later
      · exact before
      · exact Char.lt_trans before (below _ later)
    · split
      · rename_i after
        refine List.pairwise_cons.2 ⟨fun entry member => ?_, ih tail⟩
        rcases fst_of_mem_place member with same | older
        · exact same ▸ after
        · exact below _ older
      · rename_i notBefore notAfter
        have same : key = first.1 := Char.le_antisymm (Char.not_lt.1 notAfter) (Char.not_lt.1 notBefore)
        exact List.pairwise_cons.2 ⟨fun entry member => same ▸ below _ member, tail⟩

/-- Adds a parameter; a later value under the same key replaces an earlier one. -/
def insert (params : Params α) (key : Char) (value : α) : Params α :=
  ⟨place key value params.entries, pairwise_place params.sorted⟩

def get? (params : Params α) (key : Char) : Option α :=
  (params.entries.find? (·.1 = key)).map (·.2)

/-- The parameters of a list of entries, a later entry replacing an earlier one of the same key. -/
def ofList (entries : List (Char × α)) : Params α :=
  entries.foldl (fun params entry => params.insert entry.1 entry.2) empty

end Params

end Toolpath
