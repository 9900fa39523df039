import Mathlib
import Toolpath.Proofs.Line.Layout

/-! # Settled lines

A settled line is what a line becomes when it is written and read. It is written as the line itself,
with one exception: a feed rate that is written as zero is read as no feed rate, and is lost.
-/

namespace Toolpath

theorem Fixed.chars_of_beq_zero {value : Float} (zero : (value == 0.0) = true) :
    chars 0 value = ['0'] := by
  obtain ⟨negative, content⟩ := Exact.ofFloat_of_beq_zero zero
  rw [chars, content]
  cases negative <;> decide +kernel

/-- The word of a feed rate that is written as zero. -/
def Word.zeroRate : Word := ⟨.feedrate, "F0"⟩

namespace Field

/-- A field with its number settled. -/
def settled : Field → Field
  | number letter places value => number letter places (Fixed.settled places value)
  | field => field

@[simp] theorem render_settled (field : Field) : field.settled.render = field.render := by
  cases field with
  | number letter places value => rw [settled, render, render, Fixed.chars_settled]
  | command _ | text _ _ | comment _ => rfl

end Field

namespace Line

variable {line : Line}

/-- A settled line mentions a feed rate unless the line had none or one that is written as zero. -/
theorem hasFeedrate_settled_iff (precision : Precision) :
    (line.settled precision).hasFeedrate = true ↔
      line.hasFeedrate = true ∧ Fixed.chars 0 line.feedrate ≠ ['0'] := by
  have rate : (line.settled precision).hasFeedrate =
      ((if line.hasFeedrate then Fixed.settled 0 line.feedrate else 0.0) != 0.0) := rfl
  rw [rate]
  constructor
  · intro mentioned
    split_ifs at mentioned with before
    · refine ⟨before, ?_⟩
      intro zero
      have read := Fixed.read?_chars 0 line.feedrate
      rw [zero, show Numeral.read? ['0'] = some 0.0 by decide +kernel] at read
      rw [← Option.some.inj read] at mentioned
      exact absurd mentioned (by decide +kernel)
    · exact absurd mentioned (by decide +kernel)
  · rintro ⟨before, nonzero⟩
    rw [if_pos before, bne, Bool.not_eq_true']
    apply Bool.eq_false_iff.mpr
    intro zero
    apply nonzero
    rw [← Fixed.chars_settled]
    exact Fixed.chars_of_beq_zero zero

/-- A line without words has none after it was written and read. -/
theorem hasWords_settled (bare : line.hasWords = false) (precision : Precision) :
    (line.settled precision).hasWords = false := by
  simp only [hasWords, hasParams, Bool.or_eq_false_iff, Option.isSome_eq_false_iff,
    Option.isNone_iff_eq_none] at bare
  obtain ⟨⟨⟨⟨⟨x, y⟩, z⟩, e⟩, rate⟩, numbers, texts⟩ := bare
  have unset : (line.settled precision).hasFeedrate = false := by
    rw [Bool.eq_false_iff, Ne, hasFeedrate_settled_iff, rate]
    simp
  simp only [hasWords, hasParams, unset]
  simp only [settled, x, y, z, e, Params.map_isEmpty, numbers, texts, Option.map_none,
    Option.isSome_none, Bool.or_self]

section Kept

variable (kept : line.hasFeedrate = true → Fixed.chars 0 line.feedrate ≠ ['0'])
    (precision : Precision)
include kept

theorem hasFeedrate_settled : (line.settled precision).hasFeedrate = line.hasFeedrate := by
  rw [Bool.eq_iff_iff, hasFeedrate_settled_iff]
  constructor
  · exact And.left
  · intro mentioned
    exact ⟨mentioned, kept mentioned⟩

/-- Unless its feed rate is written as zero, a settled line has the words of the line. -/
theorem hasWords_settled_eq : (line.settled precision).hasWords = line.hasWords := by
  simp only [hasWords, hasParams, hasFeedrate_settled kept]
  simp only [settled, Option.isSome_map, Params.map_isEmpty]

/-- Unless its feed rate is written as zero, a settled line has the fields of the line with settled
numbers. -/
theorem fields_settled :
    (line.settled precision).fields precision = (line.fields precision).map Field.settled := by
  have rate :
      (if line.hasFeedrate then [Field.number 'F' 0 (line.settled precision).feedrate] else []) =
      (if line.hasFeedrate then [Field.number 'F' 0 line.feedrate] else []).map Field.settled := by
    split_ifs with mentioned
    · simp only [settled, mentioned, if_true]
      rfl
    · rfl
  have remark : ((line.comment.filter fun text => !text.isEmpty).filter fun text => !text.isEmpty) =
      line.comment.filter fun text => !text.isEmpty := by
    cases line.comment with
    | none => rfl
    | some text => cases empty : text.isEmpty <;> simp [Option.filter, empty]
  rw [fields, hasFeedrate_settled kept, rate, fields]
  simp only [List.map_append, settled, Option.toList_map, List.map_map, Params.map, remark]
  rfl

/-- Unless its feed rate is written as zero, a settled line is written as the line is. -/
theorem render_settled : (line.settled precision).render precision = line.render precision := by
  rw [render, fields_settled kept, List.map_map, render]
  congr 2
  funext field
  exact Field.render_settled field

end Kept

private theorem kind_word_command (command : Command) :
    (Field.command command).word.kind = .command := by
  obtain ⟨family, code⟩ := command
  simp only [Field.word, Field.render, Command.text, Word.ofRun, String.toList_ofList]
  cases family <;> rfl

private theorem kind_word_number (letter : Char) (places : Nat) (value : Float) :
    (Field.number letter places value).word.kind = WordKind.ofLetter letter := by
  simp only [Field.word, Field.render, Word.ofRun, String.toList_ofList]
  rfl

private theorem kind_word_text (letter : Char) (text : String) :
    (Field.text letter text).word.kind = WordKind.ofLetter letter := by
  simp only [Field.word, Field.render, Word.ofRun, String.toList_append, Char.toString_eq_singleton,
    String.toList_singleton]
  rfl

private theorem word_feedrate_eq_zeroRate_iff (value : Float) :
    (Field.number 'F' 0 value).word = Word.zeroRate ↔ Fixed.chars 0 value = ['0'] := by
  have word : (Field.number 'F' 0 value).word =
      ⟨.feedrate, String.ofList ('F' :: Fixed.chars 0 value)⟩ := by
    simp only [Field.word, Field.render, Word.ofRun, String.toList_ofList]
    rfl
  rw [word, Word.zeroRate, Word.mk.injEq, show "F0" = String.ofList ['F', '0'] from rfl,
    String.ofList_inj]
  simp

/-- A written line has the zero feed rate word exactly if its feed rate is written as zero. -/
theorem zeroRate_mem_scan_render_iff (legible : line.Legible) (precision : Precision) :
    Word.zeroRate ∈ Word.scan (line.render precision) ↔
      line.hasFeedrate = true ∧ Fixed.chars 0 line.feedrate = ['0'] := by
  rw [scan_render legible, List.mem_map]
  constructor
  · rintro ⟨field, member, same⟩
    have kind : field.word.kind = .feedrate := by rw [same]; rfl
    rcases mem_fields_cases member with ⟨_, rfl⟩ | ⟨letter, _, _, axis, -, rfl⟩ | ⟨mentioned, rfl⟩ |
      ⟨entry, present, rfl⟩ | ⟨entry, present, rfl⟩ | ⟨_, -, rfl⟩
    · rw [kind_word_command] at kind
      contradiction
    · rw [kind_word_number] at kind
      simp only [List.mem_cons, List.not_mem_nil, or_false] at axis
      rcases axis with rfl | rfl | rfl | rfl <;> contradiction
    · exact ⟨mentioned, (word_feedrate_eq_zeroRate_iff _).mp same⟩
    · rw [kind_word_number, (legible.numberKeys entry present).parameter] at kind
      contradiction
    · rw [kind_word_text, (legible.textKeys entry present).parameter] at kind
      contradiction
    · contradiction
  · rintro ⟨mentioned, zero⟩
    refine ⟨.number 'F' 0 line.feedrate, ?_, (word_feedrate_eq_zeroRate_iff _).mpr zero⟩
    simp [fields, mentioned]

/-- Only an empty line is written as nothing. -/
theorem render_eq_empty_iff (legible : line.Legible) {precision : Precision} :
    line.render precision = "" ↔ line.isEmpty = true := by
  have none : line.render precision = "" ↔ line.fields precision = [] := by
    constructor
    · intro nothing
      have scanned := scan_render legible precision
      rw [nothing, show Word.scan "" = [] from rfl] at scanned
      exact List.map_eq_nil_iff.mp scanned.symm
    · intro nothing
      rw [render, nothing]
      rfl
  have rate : (if line.hasFeedrate then [Field.number 'F' 0 line.feedrate] else []) = [] ↔
      line.hasFeedrate = false := by
    cases line.hasFeedrate <;> simp
  have comment : line.hasComment = false ↔ line.comment = Option.none := by
    cases shape : line.comment with
    | none => simp [hasComment, shape]
    | some remark =>
      have nonempty := legible.comment_ne_nil (Option.mem_def.mpr shape)
      simpa [hasComment, shape, String.isEmpty_iff] using nonempty
  rw [none]
  simp only [fields, legible.filter_comment, List.append_eq_nil_iff, List.map_eq_nil_iff,
    Option.toList_eq_nil_iff, rate, isEmpty, hasWords, hasParams, Params.isEmpty, comment,
    Bool.and_eq_true, Bool.not_eq_true', Bool.or_eq_false_iff, Option.isNone_iff_eq_none,
    Option.isSome_eq_false_iff, Bool.not_eq_false', List.isEmpty_iff, and_assoc]

theorem Legible.comment_settled (legible : line.Legible) (precision : Precision) :
    (line.settled precision).comment = line.comment := legible.filter_comment

theorem Legible.settled (legible : line.Legible) (precision : Precision) :
    (line.settled precision).Legible :=
  legible_of_read (read_render legible precision)

end Line

end Toolpath
