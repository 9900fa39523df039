import Mathlib
import Toolpath.Proofs.Line.Language

/-! # What becomes of each character of a line

The words of a line and its comment are the line itself, cut into pieces, but for the blanks before
the first marker. A word stands whole in the line: it is a run of characters other than blanks and
markers that cannot be made longer on either side. Every run that stands whole before the first
marker is a word, and the words come in the order in which they stand, since the words before one of
them spell what stands before it.
-/

namespace Toolpath

namespace Word

/-- What words spell one after the other. -/
def spelling (words : List Word) : List Char := words.flatMap fun word => word.text.toList

/-- A line without the blanks before its first marker. -/
def squeezed : List Char → List Char
  | [] => []
  | c :: rest =>
    if c = ';' then c :: rest
    else if c ∈ blanks then squeezed rest
    else c :: squeezed rest

/-- A run of characters other than blanks and markers stands between two parts of a line, and
neither part has a character next to the run that could be added to it. -/
structure StandsWhole (line front run back : List Char) : Prop where
  cut : line = front ++ run ++ back
  nonempty : run ≠ []
  unbroken : ∀ c ∈ run, c ∉ blanks ∧ c ≠ ';'
  started : ∀ c ∈ front.getLast?, c ∈ blanks ∨ c = ';'
  ended : ∀ c ∈ back.head?, c ∈ blanks ∨ c = ';'

/-- A line is cut into words, with nothing but blanks left out. -/
structure Partitions (line : List Char) (words : List Word) : Prop where
  nonempty : ∀ word ∈ words, word.text ≠ ""
  /-- Every word stands whole before the first marker, right after what the words before it spell. -/
  whole : ∀ index word, words[index]? = some word → word.kind ≠ .comment →
    ∃ front back, StandsWhole line front word.text.toList back ∧ ';' ∉ front ∧
      spelling (words.take index) = squeezed front
  /-- Every run that stands whole before the first marker is a word. -/
  covered : ∀ front run back, StandsWhole line front run back → ';' ∉ front →
    ∃ index word, words[index]? = some word ∧ word.kind ≠ .comment ∧ word.text.toList = run ∧
      spelling (words.take index) = squeezed front
  /-- A comment is the last word and all that stands from the first marker on. -/
  comment : ∀ index word, words[index]? = some word → word.kind = .comment →
    index + 1 = words.length ∧
      ∃ code, line = code ++ word.text.toList ∧ ';' ∉ code ∧ word.text.toList.head? = some ';'
  commented : (∃ word ∈ words, word.kind = .comment) ↔ ';' ∈ line
  spelled : spelling words = squeezed line

theorem spelling_append (first second : List Word) :
    spelling (first ++ second) = spelling first ++ spelling second :=
  List.flatMap_append

theorem spelling_map_ofRun (pieces : List (List Char)) :
    spelling (pieces.map ofRun) = pieces.flatten := by
  induction pieces with
  | nil => rfl
  | cons piece rest ih =>
    change (ofRun piece).text.toList ++ spelling (rest.map ofRun) = piece ++ rest.flatten
    rw [ih, ofRun, String.toList_ofList]

theorem squeezed_eq (line : List Char) :
    squeezed line = (code line).filter (· ∉ blanks) ++ remark line := by
  induction line with
  | nil => rfl
  | cons c rest ih =>
    rw [squeezed]
    split_ifs with marker blank
    · rw [marker]
      rfl
    all_goals
      have inCode : code (c :: rest) = c :: code rest := List.takeWhile_cons_of_pos (by simpa)
      have skipped : remark (c :: rest) = remark rest := List.dropWhile_cons_of_pos (by simpa)
      rw [inCode, skipped, ih]
      simp [blank]

theorem squeezed_of_unmarked {text : List Char} (unmarked : ';' ∉ text) :
    squeezed text = text.filter (· ∉ blanks) := by
  rw [squeezed_eq, code_of_unmarked unmarked, remark_of_unmarked unmarked, List.append_nil]

theorem filter_of_unbroken {word : List Char} (unbroken : ∀ c ∈ word, c ∉ blanks) :
    word.filter (· ∉ blanks) = word :=
  List.filter_eq_self.mpr (by simpa using unbroken)

/-- The words of a text spell it without its blanks. -/
theorem Separated.flatten_eq {text : List Char} {words : List (List Char)}
    (separated : Separated text words) : words.flatten = text.filter (· ∉ blanks) := by
  induction separated with
  | done => rfl
  | blank separates tail ih => simpa [separates] using ih
  | word nonempty unbroken ended tail ih =>
    rw [List.flatten_cons, List.filter_append, ih, filter_of_unbroken unbroken]

theorem spelling_runs (text : List Char) :
    spelling ((runs text).map ofRun) = text.filter (· ∉ blanks) := by
  rw [spelling_map_ofRun, (separated_runs text).flatten_eq]

theorem spelling_scanChars (line : List Char) : spelling (scanChars line) = squeezed line := by
  rw [squeezed_eq]
  by_cases bare : remark line = []
  · rw [scanChars_of_bare bare, spelling_runs, bare, List.append_nil]
  · rw [scanChars_of_marked bare, spelling_append, spelling_runs]
    simp [spelling, ofRemark]

namespace StandsWhole

variable {line front run back : List Char} (stands : StandsWhole line front run back)
include stands

theorem solid : Solid run := by
  refine ⟨stands.nonempty, fun c member => ?_⟩
  obtain ⟨unblank, unmarked⟩ := stands.unbroken c member
  exact isWordChar_iff.mpr ⟨isBlank_eq_false_iff.mpr unblank, unmarked⟩

/-- More text in front leaves a run whole if it does not touch the run. -/
theorem append_left (before : List Char)
    (apart : front = [] → ∀ c ∈ before.getLast?, c ∈ blanks ∨ c = ';') :
    StandsWhole (before ++ line) (before ++ front) run back where
  cut := by rw [stands.cut, List.append_assoc, List.append_assoc, List.append_assoc]
  nonempty := stands.nonempty
  unbroken := stands.unbroken
  started c last := by
    rw [List.getLast?_append] at last
    cases shape : front.getLast? with
    | none =>
      rw [shape, Option.none_or] at last
      exact apart (List.getLast?_eq_none_iff.mp shape) c last
    | some other =>
      rw [shape, Option.some_or] at last
      exact stands.started c (shape.trans last)
  ended := stands.ended

/-- A comment behind a text leaves every run in it whole. -/
theorem append_right {after : List Char} (marked : ∀ c ∈ after.head?, c = ';') :
    StandsWhole (line ++ after) front run (back ++ after) where
  cut := by rw [stands.cut, List.append_assoc]
  nonempty := stands.nonempty
  unbroken := stands.unbroken
  started := stands.started
  ended c first := by
    cases back with
    | nil => exact .inr (marked c first)
    | cons other rest => exact stands.ended c first

/-- A run that stands whole before the first marker cuts the words of its line in two. -/
theorem scanChars_eq (unmarked : ';' ∉ front) :
    scanChars line = (runs front).map ofRun ++ ofRun run :: scanChars back := by
  have started : ∀ c ∈ front.getLast?, isBlank c = true := by
    intro c last
    rcases stands.started c last with blank | rfl
    · exact isBlank_eq_true_iff.mpr blank
    · exact absurd (List.mem_of_getLast? last) unmarked
  have ended : ∀ c ∈ (code back).head?, isBlank c = true := by
    intro c first
    have inCode : c ∈ code back := List.mem_of_head? first
    have same : back.head? = some c := by
      rw [← code_append_remark back, List.head?_append, first, Option.some_or]
    rcases stands.ended c same with blank | rfl
    · exact isBlank_eq_true_iff.mpr blank
    · exact absurd inCode (marker_not_mem_code back)
  have words : runs (front ++ (run ++ code back)) = runs front ++ run :: runs (code back) := by
    rw [runs_append_of_getLast? started, runs_append_of_head? ended,
      runs_of_unbroken stands.nonempty stands.solid.unbroken]
    rfl
  have inFront : commentMarker ∉ front := unmarked
  have inRun := stands.solid.unmarked
  rw [stands.cut, List.append_assoc]
  simp only [scanChars, code_append inFront, remark_append inFront, code_append inRun,
    remark_append inRun, words, List.map_append, List.map_cons, List.append_assoc, List.cons_append]

end StandsWhole

/-- Every word of a text without markers stands whole in it, after the words before it. -/
theorem Separated.exists_standsWhole {text : List Char} {words : List (List Char)}
    (separated : Separated text words) (unmarked : ';' ∉ text) {index : Nat} {run : List Char}
    (found : words[index]? = some run) :
    ∃ front back, StandsWhole text front run back ∧
      (words.take index).flatten = front.filter (· ∉ blanks) := by
  induction separated generalizing index with
  | done => simp at found
  | @blank c rest words separates tail ih =>
    have inRest : ';' ∉ rest := fun member => unmarked (List.mem_cons_of_mem c member)
    obtain ⟨front, back, stands, spelled⟩ := ih inRest found
    refine ⟨[c] ++ front, back, stands.append_left [c] fun _ => by simp [separates], ?_⟩
    rw [spelled]
    simp [separates]
  | @word word rest words nonempty unbroken ended tail ih =>
    obtain ⟨inWord, inRest⟩ : ';' ∉ word ∧ ';' ∉ rest := by simpa using unmarked
    cases index with
    | zero =>
      obtain rfl : word = run := by simpa using found
      refine ⟨[], rest, ⟨rfl, nonempty, ?_, nofun, fun c first => .inl (ended c first)⟩, rfl⟩
      exact fun c member => ⟨unbroken c member, ne_of_mem_of_not_mem member inWord⟩
    | succ index =>
      obtain ⟨front, back, stands, spelled⟩ := ih inRest found
      -- The rest starts with a blank, so the run does not touch the word in front.
      have apart : front ≠ [] := by
        rintro rfl
        obtain ⟨first, others, rfl⟩ := List.exists_cons_of_ne_nil stands.nonempty
        have blank : first ∈ blanks := ended first (by rw [stands.cut]; rfl)
        exact (stands.unbroken first (List.mem_cons_self ..)).1 blank
      refine ⟨word ++ front, back, stands.append_left word fun empty => absurd empty apart, ?_⟩
      rw [List.take_succ_cons, List.flatten_cons, spelled, List.filter_append,
        filter_of_unbroken unbroken]

/-- A word at some place of a line is the run at that place, or the comment after all runs. -/
theorem getElem?_scanChars {line : List Char} {index : Nat} {word : Word}
    (found : (scanChars line)[index]? = some word) :
    (∃ run, (runs (code line))[index]? = some run ∧ word = ofRun run) ∨
      index + 1 = (scanChars line).length ∧ remark line ≠ [] ∧ word = ofRemark (remark line) := by
  have isRun (inRuns : ((runs (code line)).map ofRun)[index]? = some word) :
      ∃ run, (runs (code line))[index]? = some run ∧ word = ofRun run := by
    rw [List.getElem?_map, Option.map_eq_some_iff] at inRuns
    obtain ⟨run, present, rfl⟩ := inRuns
    exact ⟨run, present, rfl⟩
  by_cases bare : remark line = []
  · exact .inl (isRun (scanChars_of_bare bare ▸ found))
  · rw [scanChars_of_marked bare] at found ⊢
    rw [List.getElem?_append] at found
    split_ifs at found with inRuns
    · exact .inl (isRun found)
    · obtain ⟨bound, same⟩ := List.getElem?_eq_some_iff.mp found
      rw [List.length_singleton] at bound
      refine .inr ⟨?_, bare, by simpa using same.symm⟩
      rw [List.length_append, List.length_singleton]
      omega

/-- A line has a comment exactly if it has a marker. -/
theorem exists_comment_iff (line : List Char) :
    (∃ word ∈ scanChars line, word.kind = .comment) ↔ ';' ∈ line := by
  constructor
  · rintro ⟨word, member, kind⟩
    rcases mem_scanChars member with ⟨run, -, rfl⟩ | ⟨text, suffix, marked, -⟩
    · exact absurd kind (kind_ofRun_ne_comment run)
    · exact suffix.mem (List.mem_of_head? marked)
  · intro member
    rw [← code_append_remark line, List.mem_append] at member
    have inRemark := member.resolve_left (marker_not_mem_code line)
    refine ⟨ofRemark (remark line), ?_, rfl⟩
    rw [scanChars_of_marked (List.ne_nil_of_mem inRemark)]
    exact List.mem_append_right _ (List.mem_singleton_self _)

/-- Scanning cuts a line into words that are not empty. Each word before the comment is a maximal
run without blanks and markers, each such run before the first marker is a word, and the words come
in the order of these runs. A comment is there exactly if there is a marker, comes last, and is all
from the first marker on. What the words spell is the line without the blanks before its first
marker. -/
theorem scan_partitions (line : String) : Partitions line.toList (scan line) where
  nonempty word member := by
    rw [scan_eq] at member
    intro empty
    rcases mem_scanChars member with ⟨run, solid, rfl⟩ | ⟨text, -, marked, rfl⟩
    · exact solid.nonempty (by simpa [ofRun] using empty)
    · obtain rfl : text = [] := by simpa [ofRemark] using empty
      contradiction
  whole index word found spelt := by
    rw [scan_eq] at found ⊢
    rcases getElem?_scanChars found with ⟨run, present, rfl⟩ | ⟨-, -, rfl⟩
    · have unmarked := marker_not_mem_code line.toList
      obtain ⟨front, back, stands, spelled⟩ :=
        (separated_runs _).exists_standsWhole unmarked present
      have inFront : ';' ∉ front := by
        rw [stands.cut, List.append_assoc] at unmarked
        exact fun member => unmarked (List.mem_append_left _ member)
      have inRuns : index ≤ (runs (code line.toList)).length :=
        (List.getElem?_eq_some_iff.mp present).1.le
      refine ⟨front, back ++ remark line.toList, ?_, inFront, ?_⟩
      · have whole := stands.append_right (marked_remark line.toList)
        rwa [code_append_remark, ← String.toList_ofList (l := run)] at whole
      · rw [scanChars, List.take_append_of_le_length (by simpa using inRuns), ← List.map_take,
          spelling_map_ofRun, spelled, squeezed_of_unmarked inFront]
    · exact absurd rfl spelt
  covered front run back stands unmarked := by
    refine ⟨(runs front).length, ofRun run, ?_, kind_ofRun_ne_comment run,
      String.toList_ofList, ?_⟩
    · rw [scan_eq, stands.scanChars_eq unmarked]
      simp
    · rw [scan_eq, stands.scanChars_eq unmarked, List.take_left' (by simp), spelling_runs,
        squeezed_of_unmarked unmarked]
  comment index word found kind := by
    rw [scan_eq] at found ⊢
    rcases getElem?_scanChars found with ⟨run, -, rfl⟩ | ⟨last, marked, rfl⟩
    · exact absurd kind (kind_ofRun_ne_comment run)
    · refine ⟨last, code line.toList, ?_, marker_not_mem_code _, ?_⟩
      · rw [ofRemark, String.toList_ofList, code_append_remark]
      · rw [ofRemark, String.toList_ofList]
        exact head?_remark marked
  commented := exists_comment_iff line.toList
  spelled := spelling_scanChars line.toList

/-- A blank of another kind belongs to the word around it, and a comment keeps its markers and
blanks. -/
theorem scan_partitions_wide_blank :
    let line := "\tG1 \u00a0Xé;; a b"
    (∃ front back, StandsWhole line.toList front "\u00a0Xé".toList back ∧ ';' ∉ front ∧
      spelling ((scan line).take 1) = squeezed front) ∧
    (∃ index word, (scan line)[index]? = some word ∧ word.text.toList = "G1".toList ∧
      spelling ((scan line).take index) = []) ∧
    (∃ code, line.toList = code ++ ";; a b".toList ∧ ';' ∉ code) ∧
    spelling (scan line) = "G1\u00a0Xé;; a b".toList := by
  intro line
  have parts := scan_partitions line
  have stands : StandsWhole line.toList ['\t'] "G1".toList " \u00a0Xé;; a b".toList :=
    ⟨by decide +kernel, by simp, by simp [blanks], by simp [blanks], by simp [blanks]⟩
  refine ⟨parts.whole 1 ⟨.parameter, "\u00a0Xé"⟩ (by decide +kernel) (by decide), ?_, ?_,
    parts.spelled.trans (by decide +kernel)⟩
  · obtain ⟨index, word, found, -, text, before⟩ := parts.covered _ _ _ stands (by decide)
    exact ⟨index, word, found, text, before⟩
  · obtain ⟨-, code, cut, unmarked, -⟩ :=
      parts.comment 2 ⟨.comment, ";; a b"⟩ (by decide +kernel) rfl
    exact ⟨code, cut, unmarked⟩

end Word

end Toolpath
