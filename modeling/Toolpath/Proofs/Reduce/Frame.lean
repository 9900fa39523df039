import Mathlib
import Toolpath.Proofs.Reduce.Axes

/-! # What reducing leaves alone

What is left of a line is part of it: the command and the parameters stay, each word stays as it is
or goes, and the comment goes only where comments are removed. A line goes as a whole if it is blank,
if it is a comment that is removed, or if it is a move of which the machine would notice no word. Any
other command, and words without a command, are kept whole, and only five commands besides the moves
change the machine. So the lines that are left come from some of the lines, in their order, with
nothing invented, altered or lost.
-/

namespace Toolpath

namespace Command

/-- The linear moves. -/
def moves : List Command := [rapidMove, linearMove]

/-- The commands besides the moves that change the machine. -/
def modal : List Command :=
  [home, relativeExtrusion, absoluteExtrusion, absolutePositioning, relativePositioning]

end Command

namespace Line

theorem isEmpty_eq_true_iff {line : Line} :
    line.isEmpty = true ↔
      line.command = none ∧ line.hasWords = false ∧ line.hasComment = false := by
  simp [isEmpty, and_assoc]

theorem command_mem_moves_iff {line : Line} :
    line.command ∈ Command.moves.map some ↔ line.action = .move := by
  simp [Command.moves, action_eq_move_iff]

end Line

namespace Tuning

/-- What may be left of a line that is not dropped. -/
structure Trims (tuning : Tuning) (line left : Line) : Prop where
  command : left.command = line.command
  numbers : left.numbers = line.numbers
  texts : left.texts = line.texts
  coordinate : ∀ axis, left.coordinate axis = none ∨ left.coordinate axis = line.coordinate axis
  e : left.e = none ∨ left.e = line.e
  feedrate : left.feedrate = 0.0 ∨ left.feedrate = line.feedrate
  comment : left.comment = if tuning.removeComments then none else line.comment

/-- A line of which the machine would notice no word. -/
structure Redundant (tuning : Tuning) (machine : Machine) (line : Line) : Prop where
  coordinate : ∀ axis, ∀ position ∈ line.coordinate axis,
    tuning.near position (machine.position axis) = true
  e : ∀ value ∈ line.e,
    tuning.near value (if machine.relativeExtrusion then 0.0 else machine.e) = true
  feedrate : line.hasFeedrate = true → tuning.near line.feedrate machine.feedrate = true
  plain : line.hasParams = false

/-- What may become of a line, and of the machine that takes it. -/
structure Frame (tuning : Tuning) (before : Machine) (line : Line) (after : Machine)
    (left : Line) : Prop where
  survivor : left.isEmpty = false → tuning.Trims line left
  /-- Only what tells the machine nothing new is dropped. -/
  dropped : left.isEmpty = true →
    line.isEmpty = true ∨ line.isCommentOnly = true ∧ tuning.removeComments = true ∨
      line.command ∈ Command.moves.map some ∧ tuning.Redundant before line
  /-- Any other command, and words without a command, are kept whole. -/
  whole : line.command ∉ Command.moves.map some →
    line.command.isSome = true ∨ line.hasWords = true →
    left.isEmpty = false ∧ left = tuning.strip line
  still : line.command ∉ Command.moves.map some → line.command ∉ Command.modal.map some →
    after = before

section Words

variable {tuning : Tuning} {machine : Machine} {line : Line} {word : Option Float}
  {tracked : Float}

theorem noticed_cases (tuning : Tuning) (word : Option Float) (tracked : Float) :
    tuning.noticed word tracked = none ∨ tuning.noticed word tracked = word := by
  cases word with
  | none => exact .inl rfl
  | some value =>
    rw [noticed_some]
    split_ifs
    · exact .inl rfl
    · exact .inr rfl

/-- A word of which nothing is left is near the value that is tracked. -/
theorem near_of_noticed_eq_none (gone : tuning.noticed word tracked = none) :
    ∀ value ∈ word, tuning.near value tracked = true := by
  rintro value rfl
  rw [noticed_some] at gone
  split_ifs at gone with near
  exact near

end Words

section Step

variable {tuning : Tuning} {machine : Machine} {line : Line}

/-- A line that is not reduced is left as it is, less its comment where comments are removed. -/
theorem trims_strip (tuning : Tuning) (line : Line) : tuning.Trims line (tuning.strip line) := by
  rw [strip]
  split_ifs with removes
  · exact ⟨rfl, rfl, rfl, fun axis => .inr (by cases axis <;> rfl), .inr rfl, .inr rfl,
      (if_pos removes).symm⟩
  · exact ⟨rfl, rfl, rfl, fun _ => .inr rfl, .inr rfl, .inr rfl, (if_neg removes).symm⟩

/-- So are the kept words of a move. -/
theorem trims_keptWords (tuning : Tuning) (machine : Machine) (line : Line) :
    tuning.Trims line (tuning.keptWords machine (tuning.strip line)) := by
  have comment := (tuning.trims_strip line).comment
  rw [keptWords_strip]
  refine ⟨rfl, rfl, rfl, ?_, ?_, ?_, comment⟩
  · intro axis
    change (tuning.keptWords machine line).coordinate axis = none ∨
      (tuning.keptWords machine line).coordinate axis = line.coordinate axis
    rw [coordinate_keptWords]
    exact noticed_cases ..
  · rw [e_keptWords]
    exact noticed_cases ..
  · simp only [keptWords]
    split_ifs
    · exact .inr rfl
    · exact .inl rfl

/-- Whatever is left of an accepted line is part of it. -/
theorem Accepts.trims (accepts : tuning.Accepts machine line)
    (present : (tuning.reduce machine line).line.isEmpty = false) :
    tuning.Trims line (tuning.reduce machine line).line := by
  rcases accepts.line_cases with ⟨-, same⟩ | ⟨-, same⟩ | same
  · rw [same]
    exact tuning.trims_strip line
  · rw [same]
    exact tuning.trims_keptWords machine line
  · rw [same] at present
    contradiction

/-- A move none of whose words is kept has redundant words only. -/
theorem redundant_of_bare (plain : line.hasParams = false)
    (bare : (tuning.keptWords machine line).hasWords = false) :
    tuning.Redundant machine line := by
  have coordinate := coordinate_of_not_hasWords bare
  have unfed := hasFeedrate_keptWords tuning machine line
  simp only [Line.hasWords, Bool.or_eq_false_iff, Option.isSome_eq_false_iff,
    Option.isNone_iff_eq_none] at bare
  obtain ⟨⟨⟨-, e⟩, rate⟩, -⟩ := bare
  refine ⟨?_, ?_, ?_, plain⟩
  · intro axis
    apply near_of_noticed_eq_none
    rw [← coordinate_keptWords]
    exact coordinate axis
  · apply near_of_noticed_eq_none
    rw [← e_keptWords]
    exact e
  · intro mentioned
    rw [rate, keepsFeedrate, mentioned] at unfed
    simpa using unfed.symm

/-- What is dropped says nothing new. -/
theorem Accepts.dropped (accepts : tuning.Accepts machine line)
    (empty : (tuning.reduce machine line).line.isEmpty = true) :
    line.isEmpty = true ∨ line.isCommentOnly = true ∧ tuning.removeComments = true ∨
      line.action = .move ∧ tuning.Redundant machine line := by
  by_cases move : line.action = .move
  · have same : (tuning.keptWords machine (tuning.strip line)).hasWords =
        (tuning.keptWords machine line).hasWords := by
      rw [keptWords_strip]
      rfl
    rw [accepts.reduce_move move, reduceMove_eq] at empty
    simp only at empty
    split_ifs at empty with words
    · exact absurd words (Bool.not_eq_true _ ▸ (Line.isEmpty_eq_true_iff.mp empty).2.1)
    · rw [same, Bool.not_eq_true] at words
      exact .inr (.inr ⟨move, redundant_of_bare (accepts.plain move) words⟩)
  · rw [accepts.reduce_other move] at empty
    have inert : line.isInert = true := by
      rw [← tuning.isInert_strip, Line.isInert, empty, Bool.or_true]
    cases removes : tuning.removeComments with
    | true =>
      rcases Bool.or_eq_true_iff.mp inert with comment | blank
      · exact .inr (.inl ⟨comment, rfl⟩)
      · exact .inl blank
    | false =>
      rw [strip, removes] at empty
      exact .inl empty

/-- A command that is no move, and words without a command, are kept whole. -/
theorem Accepts.whole (accepts : tuning.Accepts machine line) (other : line.action ≠ .move)
    (active : line.isInert = false) :
    (tuning.reduce machine line).line.isEmpty = false ∧
      (tuning.reduce machine line).line = tuning.strip line := by
  rw [accepts.reduce_other other]
  rw [← tuning.isInert_strip, Line.isInert, Bool.or_eq_false_iff] at active
  exact ⟨active.2, rfl⟩

/-- A command that is neither a move nor modal leaves the machine as it is. -/
theorem Accepts.still (accepts : tuning.Accepts machine line) (other : line.action ≠ .move)
    (steady : line.command ∉ Command.modal.map some) :
    (tuning.reduce machine line).machine = machine := by
  rw [accepts.reduce_other other]
  apply Machine.follow_of_unknown
  cases action : line.action with
  | move => exact absurd action other
  | unknown => rfl
  | home =>
    rw [Line.action_eq_iff_command rfl] at action
    exact absurd (action ▸ by decide) steady
  | extrusion relative | positioning relative =>
    cases relative <;>
      exact absurd ((Line.action_eq_iff_command rfl).mp action ▸ by decide) steady

theorem Accepts.frame (accepts : tuning.Accepts machine line) :
    tuning.Frame machine line (tuning.reduce machine line).machine
      (tuning.reduce machine line).line := by
  constructor
  case survivor => exact accepts.trims
  case dropped =>
    rw [Line.command_mem_moves_iff]
    exact accepts.dropped
  case whole =>
    rw [Line.command_mem_moves_iff]
    intro other speaks
    apply accepts.whole other
    rw [Bool.eq_false_iff, Ne, Line.isInert_iff]
    rintro ⟨silent, bare⟩
    simp [silent, bare] at speaks
  case still =>
    rw [Line.command_mem_moves_iff]
    exact accepts.still

end Step

/-- The lines that are left come from some of the lines, in order. -/
theorem exists_origins {tuning : Tuning} {machine after : Machine} {lines kept : List Line}
    (success : tuning.reduceAll machine lines = .ok (after, kept)) :
    ∃ origins, origins.Sublist lines ∧
      List.Forall₂ tuning.Trims origins (kept.filter fun line => !line.isEmpty) := by
  induction lines generalizing machine kept with
  | nil =>
    obtain ⟨-, rfl⟩ := Prod.mk.inj (Except.ok.inj success)
    exact ⟨[], .slnil, .nil⟩
  | cons line lines ih =>
    obtain ⟨accepts, rest, later, rfl⟩ := reduceAll_cons_eq_ok_iff.mp success
    obtain ⟨origins, within, trimmed⟩ := ih later
    rw [List.filter_cons]
    cases empty : (tuning.reduce machine line).line.isEmpty with
    | true => exact ⟨origins, within.cons _, trimmed⟩
    | false => exact ⟨line :: origins, within.cons_cons _, .cons (accepts.trims empty) trimmed⟩

/-- Nothing is invented, altered, reordered or lost but redundant moves. The lines that are left come
from some of the lines, in order, each of them trimmed; and every line, in the machine that the
lines before it left, is trimmed, dropped or kept whole as its frame says. -/
theorem nothing_lost (tuning : Tuning) (machine after : Machine) (lines kept : List Line)
    (success : tuning.reduceAll machine lines = .ok (after, kept)) :
    (∃ origins, origins.Sublist lines ∧
      List.Forall₂ tuning.Trims origins (kept.filter fun line => !line.isEmpty)) ∧
    kept.length = lines.length ∧
    ∀ (index : Nat) (line : Line), lines[index]? = some line → ∃ before next left,
      tuning.reduceAll machine (lines.take index) = .ok (before, kept.take index) ∧
      tuning.reduceAll machine (lines.take (index + 1)) = .ok (next, kept.take (index + 1)) ∧
      kept[index]? = some left ∧ tuning.Frame before line next left := by
  refine ⟨exists_origins success, length_reduceAll success, ?_⟩
  intro index line present
  obtain ⟨before, front, accepts, left, through⟩ := reduceAll_getElem? success present
  exact ⟨before, _, _, front, through, left, accepts.frame⟩

/-- A comment that is removed, a move that tells nothing new but for an increment too small to keep,
words without a command, and a move that loses a word. -/
theorem nothing_lost_small_increment :
    let tuning : Tuning := { Tuning.permissive with removeComments := true }
    let tool : Line := { numbers := .ofList [('T', 0.0)] }
    let tiny : Line :=
      { command := some .linearMove, x := some 0.0002, e := some 0.0005, comment := some "; tiny" }
    let lines : List Line :=
      [.ofCommand .home, .ofComment "; start", .ofCommand .relativeExtrusion, tiny,
        { tool with comment := some "; tool" },
        { command := some .rapidMove, x := some 1.0, y := some 0.0, feedrate := 60.0 }]
    let kept : List Line :=
      [.ofCommand .home, .blank, .ofCommand .relativeExtrusion, .blank, tool,
        { command := some .rapidMove, x := some 1.0, feedrate := 60.0 }]
    let after : Machine :=
      { x := 1.0, extruded := 0.0005, feedrate := 60.0, relativeExtrusion := true, homed := true }
    tuning.reduceAll {} lines = .ok (after, kept) ∧ lines[3]? = some tiny ∧
      (∃ origins, origins.Sublist lines ∧
        List.Forall₂ tuning.Trims origins (kept.filter fun line => !line.isEmpty)) ∧
      ∃ before next left,
        tuning.reduceAll {} (lines.take 3) = .ok (before, kept.take 3) ∧
        tuning.reduceAll {} (lines.take 4) = .ok (next, kept.take 4) ∧
        kept[3]? = some left ∧ tuning.Frame before tiny next left := by
  intro tuning tool tiny lines kept after
  have success : tuning.reduceAll {} lines = .ok (after, kept) := by decide +kernel
  obtain ⟨origins, -, each⟩ := nothing_lost tuning {} after lines kept success
  exact ⟨success, rfl, origins, each 3 tiny rfl⟩

end Tuning

end Toolpath
