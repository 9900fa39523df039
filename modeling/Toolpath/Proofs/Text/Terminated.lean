import Mathlib
import Toolpath.Pass

/-! # Lines of a terminated text

Texts that hold no line feed, with one after each, are cut into the same texts again. The only
thing that the cut can take away is one carriage return at the end of a text.
-/

namespace Toolpath

namespace Lines

variable {α : Type} [DecidableEq α]

/-- A text without a carriage return at its end, if it has one. -/
def trim (ret : α) (text : List α) : List α :=
  if text.getLast? = some ret then text.dropLast else text

/-- A string without a carriage return at its end, if it has one. -/
def trimReturn (text : String) : String := String.ofList (trim '\r' text.toList)

theorem trim_of_getLast?_ne {ret : α} {text : List α} (other : text.getLast? ≠ some ret) :
    trim ret text = text :=
  if_neg other

theorem trimReturn_eq_self_iff {text : String} :
    trimReturn text = text ↔ text.toList.getLast? ≠ some '\r' := by
  rw [trimReturn, ← String.toList_inj, String.toList_ofList]
  constructor
  · intro same last
    rw [trim, if_pos last] at same
    have nonempty : text.toList ≠ [] := by
      intro empty
      rw [empty] at last
      contradiction
    have shorter := congrArg List.length same
    have positive := List.length_pos_iff.mpr nonempty
    rw [List.length_dropLast] at shorter
    omega
  · exact trim_of_getLast?_ne

/-- Only the end of a text is trimmed. -/
theorem trim_append {ret : α} (front : List α) {back : List α} (nonempty : back ≠ []) :
    trim ret (front ++ back) = front ++ trim ret back := by
  rw [trim, trim, List.getLast?_append_of_ne_nil _ nonempty]
  split_ifs
  · exact List.dropLast_append_of_ne_nil nonempty
  · rfl

/-- What is trimmed is a carriage return at most. -/
theorem exists_trim_append (ret : α) (text : List α) :
    ∃ tail, (tail = [] ∨ tail = [ret]) ∧ text = trim ret text ++ tail := by
  by_cases returns : text.getLast? = some ret
  · obtain ⟨line, rfl⟩ := List.getLast?_eq_some_iff.mp returns
    refine ⟨[ret], .inr rfl, ?_⟩
    rw [trim, if_pos returns, List.dropLast_concat]
  · exact ⟨[], .inl rfl, by rw [trim_of_getLast?_ne returns, List.append_nil]⟩

theorem mem_of_mem_trim {ret c : α} {text : List α} (member : c ∈ trim ret text) : c ∈ text := by
  rw [trim] at member
  split_ifs at member
  · exact List.mem_of_mem_dropLast member
  · exact member

theorem chomp_concat (feed ret : α) (text : List α) :
    chomp feed ret (text ++ [feed]) = trim ret text := by
  simp only [chomp, List.getLast?_append, List.getLast?_singleton, Option.some_or, if_true,
    List.dropLast_concat]
  rfl

theorem attach_of_ne {feed c : α} (other : c ≠ feed) (pieces : List (List α)) :
    attach feed c pieces = match pieces with
      | [] => [[c]]
      | first :: rest => (c :: first) :: rest := if_neg other

/-- What stands before any line feed belongs to the first piece. -/
theorem segments_append {feed : α} {front : List α} (within : feed ∉ front) (nonempty : front ≠ [])
    (rest : List α) :
    segments feed (front ++ rest) =
      match segments feed rest with
      | [] => [front]
      | first :: others => (front ++ first) :: others := by
  induction front with
  | nil => contradiction
  | cons c front ih =>
    have other : c ≠ feed := by
      rintro rfl
      exact within (List.mem_cons_self ..)
    have later : feed ∉ front := by
      intro member
      exact within (List.mem_cons_of_mem _ member)
    rw [List.cons_append, segments_cons, attach_of_ne other]
    cases front with
    | nil =>
      rw [List.nil_append]
      cases segments feed rest <;> rfl
    | cons d front =>
      rw [ih later (List.cons_ne_nil _ _)]
      cases segments feed rest <;> rfl

theorem segments_of_not_mem {feed : α} {text : List α} (within : feed ∉ text)
    (nonempty : text ≠ []) : segments feed text = [text] := by
  have whole := segments_append within nonempty []
  rwa [List.append_nil] at whole

theorem segments_append_cons {feed : α} {text : List α} (within : feed ∉ text) (rest : List α) :
    segments feed (text ++ feed :: rest) = (text ++ [feed]) :: segments feed rest := by
  have feeds : segments feed (feed :: rest) = [feed] :: segments feed rest := if_pos rfl
  cases text with
  | nil => exact feeds
  | cons c text => rw [segments_append within (List.cons_ne_nil _ _), feeds]

/-- A text is empty, or one line that is not ended, or a line with its end and a text after it. -/
theorem segments_induction {motive : List α → Prop} (feed : α) (nil : motive [])
    (last : ∀ line, line ≠ [] → feed ∉ line → motive line)
    (cons : ∀ line rest, feed ∉ line → motive rest → motive (line ++ feed :: rest))
    (text : List α) : motive text := by
  by_cases member : feed ∈ text
  · obtain ⟨line, rest, cut, within⟩ := List.eq_append_cons_of_mem member
    have shorter : rest.length < text.length := by
      rw [cut, List.length_append, List.length_cons]
      omega
    rw [cut]
    exact cons line rest within (segments_induction feed nil last cons rest)
  · by_cases empty : text = []
    · exact empty ▸ nil
    · exact last text empty member
termination_by text.length

/-- Texts with a line feed after each are cut into these texts again, each with its line feed. -/
theorem segments_flatMap {feed : α} {texts : List (List α)} (within : ∀ text ∈ texts, feed ∉ text) :
    segments feed (texts.flatMap (· ++ [feed])) = texts.map (· ++ [feed]) := by
  induction texts with
  | nil => rfl
  | cons text texts ih =>
    obtain ⟨first, others⟩ := List.forall_mem_cons.mp within
    rw [List.flatMap_cons, List.append_assoc, List.singleton_append, segments_append_cons first,
      ih others, List.map_cons]

theorem split_flatMap {feed : α} (ret : α) {texts : List (List α)}
    (within : ∀ text ∈ texts, feed ∉ text) :
    split feed ret (texts.flatMap (· ++ [feed])) = texts.map (trim ret) := by
  rw [split, segments_flatMap within, List.map_map]
  apply List.map_congr_left
  intro text _
  exact chomp_concat feed ret text

/-- A piece holds a line feed at most at its end. -/
theorem feed_not_mem_dropLast {feed : α} {text piece : List α}
    (member : piece ∈ segments feed text) : feed ∉ piece.dropLast := by
  induction text generalizing piece with
  | nil => contradiction
  | cons c text ih =>
    simp only [segments_cons, attach] at member
    split_ifs at member with same
    · rcases List.mem_cons.mp member with rfl | later
      · exact List.not_mem_nil
      · exact ih later
    · cases pieces : segments feed text with
      | nil =>
        rw [pieces, List.mem_singleton] at member
        subst member
        exact List.not_mem_nil
      | cons first rest =>
        rw [pieces] at member ih
        rcases List.mem_cons.mp member with rfl | later
        · cases first with
          | nil => exact List.not_mem_nil
          | cons d first =>
            rw [List.dropLast_cons_of_ne_nil (List.cons_ne_nil _ _)]
            exact List.not_mem_cons_of_ne_of_not_mem (Ne.symm same) (ih (List.mem_cons_self ..))
        · exact ih (List.mem_cons_of_mem _ later)

/-- A line holds no line feed. -/
theorem feed_not_mem_of_mem_split {feed ret : α} {text line : List α}
    (member : line ∈ split feed ret text) : feed ∉ line := by
  obtain ⟨piece, present, rfl⟩ := List.mem_map.mp member
  have inner := feed_not_mem_dropLast present
  rcases List.eq_nil_or_concat' piece with rfl | ⟨front, last, rfl⟩
  · exact List.not_mem_nil
  · rw [List.dropLast_concat] at inner
    by_cases ends : last = feed
    · rw [ends, chomp_concat]
      intro member
      exact inner (mem_of_mem_trim member)
    · rw [chomp, if_neg (by simpa using ends)]
      simpa [inner] using fun same => ends same.symm

theorem feed_not_mem_of_mem_ofString {text line : String} (member : line ∈ ofString text) :
    '\n' ∉ line.toList := by
  obtain ⟨chars, present, rfl⟩ := List.mem_map.mp member
  rw [String.toList_ofList]
  exact feed_not_mem_of_mem_split present

/-- A character in front of a text that has a piece goes to its first piece. -/
private theorem attach_append {feed : α} (c : α) {pieces : List (List α)} (nonempty : pieces ≠ [])
    (others : List (List α)) :
    attach feed c (pieces ++ others) = attach feed c pieces ++ others := by
  obtain ⟨first, rest, rfl⟩ := List.exists_cons_of_ne_nil nonempty
  simp only [attach, List.cons_append]
  split_ifs <;> rfl

/-- What follows a line feed is cut on its own. -/
theorem segments_concat_append {feed : α} (body rest : List α) :
    segments feed (body ++ [feed] ++ rest) =
      segments feed (body ++ [feed]) ++ segments feed rest := by
  induction body with
  | nil =>
    simp only [List.nil_append, List.singleton_append, segments_cons, segments_nil, attach, if_true]
  | cons c body ih =>
    have nonempty : segments feed (body ++ [feed]) ≠ [] := by
      intro none
      have whole := flatten_segments feed (body ++ [feed])
      rw [none, List.flatten_nil] at whole
      exact List.append_ne_nil_of_right_ne_nil body (List.cons_ne_nil _ _) whole.symm
    simp only [List.cons_append, segments_cons, ih, attach_append c nonempty]

/-- The lines of two texts one after the other, the first of which has ended its last line. -/
theorem ofString_append {front : String} (closed : front = "" ∨ ∃ body, front = body ++ "\n")
    (back : String) : ofString (front ++ back) = ofString front ++ ofString back := by
  rcases closed with rfl | ⟨body, rfl⟩
  · simp [ofString, split]
  · have feed : ("\n" : String).toList = ['\n'] := rfl
    simp only [ofString, split, String.toList_append, feed, segments_concat_append, List.map_append]

end Lines

namespace Run

theorem toList_terminated (texts : List String) :
    (terminated texts).toList = (texts.map String.toList).flatMap (· ++ ['\n']) := by
  suffices run : ∀ output : String,
      (texts.foldl (fun output text => output ++ text ++ "\n") output).toList =
        output.toList ++ (texts.map String.toList).flatMap (· ++ ['\n']) from run ""
  induction texts with
  | nil => simp
  | cons text texts ih =>
    intro output
    rw [List.foldl_cons, ih]
    simp

theorem terminated_append (first second : List String) :
    terminated (first ++ second) = terminated first ++ terminated second := by
  rw [← String.toList_inj, String.toList_append]
  simp only [toList_terminated, List.map_append, List.flatMap_append]

@[simp] theorem terminated_singleton (text : String) : terminated [text] = text ++ "\n" := by
  rw [terminated, List.foldl_cons, List.foldl_nil, String.empty_append]

private theorem feed_not_mem_toList {texts : List String}
    (within : ∀ text ∈ texts, '\n' ∉ text.toList) :
    ∀ chars ∈ texts.map String.toList, '\n' ∉ chars := by
  intro chars member
  obtain ⟨text, present, rfl⟩ := List.mem_map.mp member
  exact within text present

/-- The lines of a terminated text are the texts it was made of, each less a carriage return at its
end. -/
theorem ofString_terminated {texts : List String} (within : ∀ text ∈ texts, '\n' ∉ text.toList) :
    Lines.ofString (terminated texts) = texts.map Lines.trimReturn := by
  rw [Lines.ofString, toList_terminated, Lines.split_flatMap _ (feed_not_mem_toList within),
    List.map_map, List.map_map]
  rfl

/-- Texts that end in no carriage return are the lines of their terminated text. -/
theorem ofString_terminated_of_plain {texts : List String}
    (plain : ∀ text ∈ texts, '\n' ∉ text.toList ∧ text.toList.getLast? ≠ some '\r') :
    Lines.ofString (terminated texts) = texts := by
  have untouched : ∀ text ∈ texts, Lines.trimReturn text = id text := by
    intro text member
    exact Lines.trimReturn_eq_self_iff.mpr (plain text member).2
  rw [ofString_terminated fun text member => (plain text member).1,
    List.map_congr_left untouched, List.map_id]

/-- A terminated text tells which texts it was made of. -/
theorem terminated_inj {first second : List String}
    (firstWithin : ∀ text ∈ first, '\n' ∉ text.toList)
    (secondWithin : ∀ text ∈ second, '\n' ∉ text.toList) :
    terminated first = terminated second ↔ first = second := by
  constructor
  · intro same
    have pieces := congrArg (fun text => Lines.segments '\n' text.toList) same
    simp only [toList_terminated, Lines.segments_flatMap (feed_not_mem_toList firstWithin),
      Lines.segments_flatMap (feed_not_mem_toList secondWithin)] at pieces
    have chars := List.map_injective_iff.mpr (List.append_left_injective ['\n']) pieces
    exact List.map_injective_iff.mpr (fun _ _ => String.toList_inj.mp) chars
  · rintro rfl
    rfl

/-- Outputs without empty lines are equal exactly if their lines are. -/
theorem output_inj {first second : Run}
    (firstLines : ∀ text ∈ first.kept.toList, '\n' ∉ text.toList ∧ text ≠ "")
    (secondLines : ∀ text ∈ second.kept.toList, '\n' ∉ text.toList ∧ text ≠ "") :
    first.output = second.output ↔ first.kept.toList = second.kept.toList := by
  -- An output without lines is written as one empty line, which no other output is.
  have shape : ∀ run : Run,
      run.output = terminated (if run.kept.toList = [] then [""] else run.kept.toList) := by
    intro run
    rw [output]
    by_cases empty : run.kept.toList = []
    · rw [if_pos (by simpa using empty), if_pos empty]
      rfl
    · rw [if_neg (by simpa using empty), if_neg empty]
  have within : ∀ {texts : List String}, (∀ text ∈ texts, '\n' ∉ text.toList ∧ text ≠ "") →
      ∀ text ∈ (if texts = [] then [""] else texts), '\n' ∉ text.toList := by
    intro texts lines text member
    split_ifs at member
    · rw [List.mem_singleton.mp member]
      exact List.not_mem_nil
    · exact (lines text member).1
  have notBlank : ∀ {texts : List String}, (∀ text ∈ texts, '\n' ∉ text.toList ∧ text ≠ "") →
      texts ≠ [""] := by
    rintro texts lines rfl
    exact (lines "" (List.mem_singleton_self _)).2 rfl
  rw [shape, shape, terminated_inj (within firstLines) (within secondLines)]
  split_ifs with none none' none'
  · exact ⟨fun _ => none.trans none'.symm, fun _ => rfl⟩
  · rw [none]
    constructor
    · intro same
      exact absurd same.symm (notBlank secondLines)
    · intro same
      exact absurd same.symm none'
  · rw [none']
    constructor
    · intro same
      exact absurd same (notBlank firstLines)
    · intro same
      exact absurd same none
  · exact Iff.rfl

section Cut

variable (texts : List String)

/-- A text with a line feed after each of its lines is cut where its lines are cut, and at its
end. -/
theorem splitOn_terminated :
    (terminated texts).toList.splitOn '\n' =
      (texts.flatMap fun text => text.toList.splitOn '\n') ++ [[]] := by
  rw [toList_terminated, List.flatMap_map]
  induction texts with
  | nil => rfl
  | cons text texts ih =>
    rw [List.flatMap_cons, List.append_assoc, List.singleton_append, List.splitOn_append_cons_self,
      ih, List.flatMap_cons, List.append_assoc]

private theorem length_splitOn_pos (text : List Char) : 0 < (text.splitOn '\n').length :=
  List.length_pos_iff.mpr (List.splitOn_ne_nil _ _)

private theorem length_splitOn_eq_one_iff (text : List Char) :
    (text.splitOn '\n').length = 1 ↔ '\n' ∉ text := by
  constructor
  · intro single member
    obtain ⟨front, back, rfl⟩ := List.append_of_mem member
    have first := length_splitOn_pos front
    have second := length_splitOn_pos back
    rw [List.splitOn_append_cons_self, List.length_append] at single
    omega
  · intro within
    rw [List.splitOn_eq_singleton within]
    rfl

private theorem length_le_length_splitOn :
    texts.length ≤ (texts.flatMap fun text => text.toList.splitOn '\n').length := by
  induction texts with
  | nil => exact Nat.le_refl 0
  | cons text texts ih =>
    have := length_splitOn_pos text.toList
    rw [List.flatMap_cons, List.length_append, List.length_cons]
    omega

/-- Texts are cut into as many lines as there are texts exactly if they hold no line feeds. -/
theorem length_splitOn_eq_iff :
    (texts.flatMap fun text => text.toList.splitOn '\n').length = texts.length ↔
      ∀ text ∈ texts, '\n' ∉ text.toList := by
  induction texts with
  | nil => simp
  | cons text texts ih =>
    have first := length_splitOn_pos text.toList
    have others := length_le_length_splitOn texts
    rw [List.forall_mem_cons, ← length_splitOn_eq_one_iff, List.flatMap_cons, List.length_append,
      List.length_cons]
    constructor
    · intro whole
      exact ⟨by omega, ih.mp (by omega)⟩
    · rintro ⟨one, rest⟩
      have := ih.mpr rest
      omega

end Cut

end Run

end Toolpath
