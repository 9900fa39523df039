import Mathlib
import Toolpath.Word

/-! # Scanning words that stand one space apart

A solid run is made of word characters, neither blank nor a comment marker, so the scanner can
neither cut it nor take part of it for a comment. A list of solid runs with one space between them,
and a comment after them if there is one, is scanned as exactly those runs and that comment.
Conversely every word of a scanned line is a solid run or the comment.
-/

namespace Toolpath

/-- Whether a character neither separates words nor starts a comment. -/
def isWordChar (c : Char) : Bool := !isBlank c && c != commentMarker

theorem isWordChar_iff {c : Char} :
    isWordChar c = true ↔ isBlank c = false ∧ c ≠ commentMarker := by
  simp [isWordChar]

theorem isWordChar_of_isDigit {c : Char} (digit : c.isDigit) : isWordChar c := by
  have code := Char.isDigit_iff_toNat.mp digit
  simp only [Char.reduceToNat] at code
  simp only [isWordChar_iff, isBlank, Bool.or_eq_false_iff, decide_eq_false_iff_not]
  refine ⟨⟨⟨⟨⟨?_, ?_⟩, ?_⟩, ?_⟩, ?_⟩, ?_⟩ <;> rintro rfl <;> simp [commentMarker] at code

theorem WordKind.ofLetter_ne_comment (letter : Char) : WordKind.ofLetter letter ≠ .comment := by
  rw [WordKind.ofLetter]
  split <;> simp

namespace Word

/-- A run of characters that the scanner keeps whole. -/
structure Solid (run : List Char) : Prop where
  nonempty : run ≠ []
  word : ∀ c ∈ run, isWordChar c

theorem Solid.unbroken {run : List Char} (solid : Solid run) : ∀ c ∈ run, isBlank c = false := by
  intro c member
  exact (isWordChar_iff.mp (solid.word c member)).1

theorem solid_cons {first : Char} {rest : List Char} (letter : isWordChar first)
    (inner : ∀ c ∈ rest, isWordChar c) : Solid (first :: rest) :=
  ⟨List.cons_ne_nil _ _, List.forall_mem_cons.mpr ⟨letter, inner⟩⟩

theorem kind_ofRun_ne_comment (run : List Char) : (ofRun run).kind ≠ .comment := by
  cases run with
  | nil => simp [ofRun]
  | cons letter rest => exact WordKind.ofLetter_ne_comment letter

/-- The words of a line given as characters. -/
def scanChars (line : List Char) : List Word :=
  (runs (code line)).map ofRun ++
    if (remark line).isEmpty then [] else [⟨.comment, String.ofList (remark line)⟩]

theorem scan_eq (line : String) : scan line = scanChars line.toList := rfl

/-- The comment of a line as a word. -/
def ofRemark (remark : List Char) : Word := ⟨.comment, String.ofList remark⟩

theorem scanChars_of_bare {line : List Char} (bare : remark line = []) :
    scanChars line = (runs (code line)).map ofRun := by
  rw [scanChars, bare]
  exact List.append_nil _

theorem scanChars_of_marked {line : List Char} (marked : remark line ≠ []) :
    scanChars line = (runs (code line)).map ofRun ++ [ofRemark (remark line)] := by
  rw [scanChars, if_neg (by simpa using marked)]
  rfl

theorem Solid.unmarked {run : List Char} (solid : Solid run) : commentMarker ∉ run := by
  intro member
  exact (isWordChar_iff.mp (solid.word _ member)).2 rfl

/-- What has no marker in it stays before the comment. -/
theorem code_append {front : List Char} (unmarked : commentMarker ∉ front) (rest : List Char) :
    code (front ++ rest) = front ++ code rest := by
  apply List.takeWhile_append_of_pos
  intro c member
  simpa using ne_of_mem_of_not_mem member unmarked

theorem remark_append {front : List Char} (unmarked : commentMarker ∉ front) (rest : List Char) :
    remark (front ++ rest) = remark rest := by
  apply List.dropWhile_append_of_pos
  intro c member
  simpa using ne_of_mem_of_not_mem member unmarked

theorem code_of_unmarked {text : List Char} (unmarked : commentMarker ∉ text) :
    code text = text := by
  simpa [code] using code_append unmarked []

theorem remark_of_unmarked {text : List Char} (unmarked : commentMarker ∉ text) :
    remark text = [] := by
  simpa [remark] using remark_append unmarked []

/-- Characters that are not blank are one word. -/
theorem runs_of_unbroken {run : List Char} (nonempty : run ≠ [])
    (unbroken : ∀ c ∈ run, isBlank c = false) : runs run = [run] := by
  rw [runs, List.splitOnP_eq_singleton unbroken]
  simp [nonempty]

/-- No word goes past a blank. -/
theorem runs_append_cons (front rest : List Char) {c : Char} (blank : isBlank c = true) :
    runs (front ++ c :: rest) = runs front ++ runs rest := by
  rw [runs, List.splitOnP_append_cons front rest blank, List.filter_append]
  rfl

/-- A blank at the end of a text makes no word. -/
theorem runs_concat_blank (text : List Char) {c : Char} (blank : isBlank c = true) :
    runs (text ++ [c]) = runs text := by
  rw [runs_append_cons text [] blank]
  exact List.append_nil _

/-- No word goes past a place with a blank after it. -/
theorem runs_append_of_head? {rest : List Char} (ended : ∀ c ∈ rest.head?, isBlank c = true)
    (front : List Char) : runs (front ++ rest) = runs front ++ runs rest := by
  cases rest with
  | nil => rw [List.append_nil, show runs [] = [] from rfl, List.append_nil]
  | cons c rest =>
    have blank := ended c rfl
    have skipped : runs (c :: rest) = runs rest := runs_append_cons [] rest blank
    rw [runs_append_cons front rest blank, skipped]

/-- No word goes past a place with a blank before it. -/
theorem runs_append_of_getLast? {front : List Char}
    (started : ∀ c ∈ front.getLast?, isBlank c = true) (rest : List Char) :
    runs (front ++ rest) = runs front ++ runs rest := by
  rcases List.eq_nil_or_concat' front with rfl | ⟨start, c, rfl⟩
  · rfl
  · have blank := started c (by simp)
    rw [List.append_assoc, List.singleton_append, runs_append_cons start rest blank,
      runs_concat_blank start blank]

section Solid

variable {run : List Char} (solid : Solid run)
include solid

/-- A solid run that ends a line is its last word. -/
theorem scanChars_self : scanChars run = [ofRun run] := by
  rw [scanChars, code_of_unmarked solid.unmarked, remark_of_unmarked solid.unmarked,
    runs_of_unbroken solid.nonempty solid.unbroken]
  rfl

/-- A solid run before a space is a word of its own. -/
theorem scanChars_append_space (rest : List Char) :
    scanChars (run ++ ' ' :: rest) = ofRun run :: scanChars rest := by
  have space : code (' ' :: rest) = ' ' :: code rest := rfl
  have skipped : remark (' ' :: rest) = remark rest := rfl
  have words : runs (run ++ ' ' :: code rest) = run :: runs (code rest) := by
    rw [runs_append_cons _ _ (by decide), runs_of_unbroken solid.nonempty solid.unbroken]
    rfl
  simp only [scanChars, code_append solid.unmarked, remark_append solid.unmarked, space, skipped,
    words, List.map_cons, List.cons_append]

end Solid

/-- What starts with a marker is a comment to its end. -/
theorem scanChars_marked (rest : List Char) :
    scanChars (commentMarker :: rest) = [ofRemark (commentMarker :: rest)] := by
  have code : code (commentMarker :: rest) = [] := rfl
  have remark : remark (commentMarker :: rest) = commentMarker :: rest := rfl
  rw [scanChars, code, remark]
  rfl

/-- Solid runs one space apart are scanned as they are, and so is a comment after them. -/
theorem scanChars_intercalate (parts : List (List Char)) (solid : ∀ part ∈ parts, Solid part)
    (last : Option (List Char)) (marked : ∀ text ∈ last, text.head? = some commentMarker) :
    scanChars ([' '].intercalate (parts ++ last.toList)) =
      parts.map ofRun ++ last.toList.map ofRemark := by
  induction parts with
  | nil =>
    cases last with
    | none => rfl
    | some text =>
      obtain ⟨rest, rfl⟩ := List.head?_eq_some_iff.mp (marked text rfl)
      simpa using scanChars_marked rest
  | cons part rest ih =>
    have first := solid part (List.mem_cons_self ..)
    have tail := ih fun other member => solid other (List.mem_cons_of_mem _ member)
    cases shape : rest ++ last.toList with
    | nil =>
      obtain ⟨rfl, empty⟩ := List.append_eq_nil_iff.mp shape
      simpa [empty] using scanChars_self first
    | cons next others =>
      rw [List.cons_append, shape, List.intercalate_cons_cons, List.append_assoc,
        List.singleton_append, scanChars_append_space first, ← shape, tail]
      rfl

private theorem mem_piece {text piece : List Char} (member : piece ∈ text.splitOnP isBlank) :
    ∀ c ∈ piece, isBlank c = false ∧ c ∈ text := by
  induction text generalizing piece with
  | nil =>
    obtain rfl : piece = [] := by simpa using member
    simp
  | cons first text ih =>
    rw [List.splitOnP_cons_eq_if_modifyHead] at member
    obtain ⟨head, tail, pieces⟩ := List.exists_cons_of_ne_nil (List.splitOnP_ne_nil isBlank text)
    rw [pieces] at member ih
    split_ifs at member with blank
    · rcases List.mem_cons.mp member with rfl | later
      · simp
      · intro c present
        exact (ih later c present).imp_right (List.mem_cons_of_mem _)
    · rcases List.mem_cons.mp member with rfl | later
      · intro c present
        rcases List.mem_cons.mp present with rfl | present
        · exact ⟨by simpa using blank, List.mem_cons_self ..⟩
        · exact (ih (List.mem_cons_self ..) c present).imp_right (List.mem_cons_of_mem _)
      · intro c present
        exact (ih (List.mem_cons_of_mem _ later) c present).imp_right (List.mem_cons_of_mem _)

theorem marker_not_mem_code (line : List Char) : commentMarker ∉ code line := by
  intro member
  simpa using List.mem_takeWhile_imp member

/-- A comment starts with a marker. -/
theorem marked_remark (line : List Char) : ∀ c ∈ (remark line).head?, c = commentMarker := by
  intro c first
  have stop := List.head?_dropWhile_not (fun c => decide (c ≠ commentMarker)) line
  rw [remark] at first
  rw [first] at stop
  exact Decidable.not_not.mp (of_decide_eq_false stop)

theorem head?_remark {line : List Char} (marked : remark line ≠ []) :
    (remark line).head? = some commentMarker := by
  obtain ⟨first, rest, shape⟩ := List.exists_cons_of_ne_nil marked
  rw [← marked_remark line first (by rw [shape]; rfl), shape]
  rfl

/-- A word of a line is a solid run before the first marker, or the comment. -/
theorem mem_scanChars {line : List Char} {word : Word} (member : word ∈ scanChars line) :
    (∃ run, Solid run ∧ word = ofRun run) ∨
      ∃ text, text <:+ line ∧ text.head? = some commentMarker ∧ word = ofRemark text := by
  rcases List.mem_append.mp member with body | comment
  · obtain ⟨run, present, rfl⟩ := List.mem_map.mp body
    rw [runs, List.mem_filter] at present
    obtain ⟨piece, nonempty⟩ := present
    refine .inl ⟨run, ⟨by simpa using nonempty, ?_⟩, rfl⟩
    intro c inside
    obtain ⟨unbroken, present⟩ := mem_piece piece c inside
    apply isWordChar_iff.mpr
    exact ⟨unbroken, fun same => marker_not_mem_code line (same ▸ present)⟩
  · split_ifs at comment with empty
    · contradiction
    · exact .inr ⟨remark line, List.dropWhile_suffix _, head?_remark (by simpa using empty),
        List.mem_singleton.mp comment⟩

end Word

end Toolpath
