import Mathlib
import Toolpath.Proofs.Machine.Execution
import Toolpath.Reduce

/-! # What reducing a line does

Whether a line is accepted depends on its command, its parameters and the modes of the machine. An
accepted line that is no linear move is kept whole, less its comment where comments are removed,
and carried out. An accepted move keeps the words that are not redundant. These facts say all that
a step can do; properties of a pass are derived from them.
-/

namespace Toolpath

namespace Command

/-- The command of an action, for the actions that one command stands for. -/
def Action.command? : Action → Option Command
  | .home => some .home
  | .extrusion true => some .relativeExtrusion
  | .extrusion false => some .absoluteExtrusion
  | .positioning true => some .relativePositioning
  | .positioning false => some .absolutePositioning
  | .move | .unknown => none

theorem eq_of_action {command other : Command} (only : command.action.command? = some other) :
    command = other := by
  simp only [action] at only
  split_ifs at only with home _ relative absolute distances positions
  · exact home.trans (Option.some.inj only)
  · contradiction
  · exact relative.trans (Option.some.inj only)
  · exact absolute.trans (Option.some.inj only)
  · exact distances.trans (Option.some.inj only)
  · exact positions.trans (Option.some.inj only)
  · contradiction

end Command

namespace Line

/-- A line is inert when it has neither a command nor words, with or without a comment. -/
theorem isInert_iff {line : Line} :
    line.isInert = true ↔ line.command = none ∧ line.hasWords = false := by
  simp only [isInert, isCommentOnly, isEmpty, hasComment, Bool.or_eq_true, Bool.and_eq_true,
    Bool.not_eq_true', Option.isNone_iff_eq_none]
  constructor
  · rintro (⟨bare, -⟩ | ⟨bare, -⟩) <;> exact bare
  · intro bare
    cases line.comment with
    | none => exact .inr ⟨bare, rfl⟩
    | some remark => exact .inl ⟨bare, rfl⟩

theorem action_eq_move_iff {line : Line} :
    line.action = .move ↔
      line.command = some .rapidMove ∨ line.command = some .linearMove := by
  cases held : line.command with
  | none => simp [action, held]
  | some command =>
    simp only [action, held, Option.elim_some, Option.some.injEq, Command.action]
    constructor
    · intro same
      split_ifs at same with home moves
      · exact moves
    · rintro (rfl | rfl) <;> rfl

/-- An action that one command stands for is what a line with that command does, and no other
line. -/
theorem action_eq_iff_command {line : Line} {action : Command.Action} {command : Command}
    (only : action.command? = some command) :
    line.action = action ↔ line.command = some command := by
  constructor
  · rintro rfl
    cases held : line.command with
    | none =>
      rw [Line.action, held] at only
      contradiction
    | some other =>
      rw [Line.action, held, Option.elim_some] at only
      rw [Command.eq_of_action only]
  · intro held
    rw [Line.action, held, Option.elim_some]
    cases action with
    | home => obtain rfl := Option.some.inj only; rfl
    | extrusion relative | positioning relative =>
      cases relative <;> obtain rfl := Option.some.inj only <;> rfl
    | move | unknown => contradiction

end Line

namespace Tuning

/-- When a line does not end a pass. -/
structure Accepts (tuning : Tuning) (machine : Machine) (line : Line) : Prop where
  homed : line.action = .move → machine.homed
  absolute : line.action = .move → machine.relativeCoordinates = false
  plain : line.action = .move → line.hasParams = false
  known : line.action = .unknown → tuning.allowUnknown ∨ line.isInert

/-- Why a line is refused, if it is: a move for what it asks for, an unknown line unless such lines
are allowed or it is inert. -/
def refusal? (tuning : Tuning) (machine : Machine) (line : Line) : Option Fault :=
  match line.action with
  | .move => (refusesMove? machine line).map .unsupported
  | .unknown =>
    if tuning.allowUnknown ∨ line.isInert then none
    else some (tuning.unknownFault (tuning.strip line))
  | .home | .extrusion _ | .positioning _ => none

/-- A move with its redundant words taken away, even if none is left. -/
def keptWords (tuning : Tuning) (machine : Machine) (line : Line) : Line :=
  { line with
    x := (tuning.keepAxis line.x machine.x).1
    y := (tuning.keepAxis line.y machine.y).1
    z := (tuning.keepAxis line.z machine.z).1
    e := (tuning.keepExtrusion machine line.e).1
    feedrate := if tuning.keepsFeedrate machine line then line.feedrate else 0.0 }

/-- The machine after a move whose redundant words were taken away. -/
def afterMove (tuning : Tuning) (machine : Machine) (line : Line) : Machine :=
  (tuning.reduceMove machine line).1

theorem reduceMove_eq (tuning : Tuning) (machine : Machine) (line : Line) :
    tuning.reduceMove machine line = (tuning.afterMove machine line,
      if (tuning.keptWords machine line).hasWords then tuning.keptWords machine line
      else .blank) := rfl

section Strip

variable (tuning : Tuning) (machine : Machine) (line : Line)

@[simp] theorem action_strip : (tuning.strip line).action = line.action := by
  rw [strip]
  split_ifs <;> rfl

@[simp] theorem hasParams_strip : (tuning.strip line).hasParams = line.hasParams := by
  rw [strip]
  split_ifs <;> rfl

@[simp] theorem hasWords_strip : (tuning.strip line).hasWords = line.hasWords := by
  rw [strip]
  split_ifs <;> rfl

@[simp] theorem isInert_strip : (tuning.strip line).isInert = line.isInert := by
  rw [Bool.eq_iff_iff, Line.isInert_iff, Line.isInert_iff, hasWords_strip, strip]
  split_ifs <;> rfl

@[simp] theorem follow_strip : machine.follow (tuning.strip line) = machine.follow line := by
  rw [strip]
  split_ifs <;> rfl

@[simp] theorem afterMove_strip :
    tuning.afterMove machine (tuning.strip line) = tuning.afterMove machine line := by
  rw [strip]
  split_ifs <;> rfl

end Strip

section Step

variable {tuning : Tuning} {machine : Machine} {line : Line}

theorem action_of_isInert (inert : line.isInert) : line.action = .unknown := by
  rw [Line.action, (Line.isInert_iff.mp inert).1]
  rfl

private theorem isInert_eq_false_of_action (known : line.action ≠ .unknown) :
    (tuning.strip line).isInert = false := by
  rw [isInert_strip, Bool.eq_false_iff]
  intro inert
  exact known (action_of_isInert inert)

theorem refusesMove?_eq_none_iff :
    refusesMove? machine line = none ↔
      machine.homed ∧ machine.relativeCoordinates = false ∧ line.hasParams = false := by
  rw [refusesMove?]
  cases machine.homed <;> cases machine.relativeCoordinates <;> cases line.hasParams <;> simp

/-- A move is refused, or reduced word by word. -/
theorem reduce_of_move (move : line.action = .move) :
    tuning.reduce machine line =
      match refusesMove? machine (tuning.strip line) with
      | some mode => { machine, line := tuning.strip line, fault := some (.unsupported mode) }
      | none =>
        ⟨(tuning.reduceMove machine (tuning.strip line)).1,
          (tuning.reduceMove machine (tuning.strip line)).2, none⟩ := by
  have active : (tuning.strip line).isInert = false :=
    isInert_eq_false_of_action (by simp [move])
  simp only [reduce, active, reduceActive, action_strip, move]
  rfl

/-- Any other line is kept and carried out, unless it is unknown and unknown lines are not
allowed. -/
theorem reduce_of_not_move (other : line.action ≠ .move)
    (known : line.action = .unknown → tuning.allowUnknown ∨ line.isInert) :
    tuning.reduce machine line = ⟨machine.follow line, tuning.strip line, none⟩ := by
  rw [reduce]
  split_ifs with inert
  · rw [isInert_strip] at inert
    rw [Machine.follow_of_unknown (action_of_isInert inert)]
  · rw [isInert_strip] at inert
    simp only [reduceActive, action_strip, Machine.follow]
    cases action : line.action with
    | move => exact absurd action other
    | unknown => simp [(known action).resolve_right inert]
    | home | extrusion _ | positioning _ => rfl

/-- A step tells why a line is refused. -/
theorem fault_reduce (tuning : Tuning) (machine : Machine) (line : Line) :
    (tuning.reduce machine line).fault = tuning.refusal? machine line := by
  by_cases move : line.action = .move
  · have same : refusesMove? machine (tuning.strip line) = refusesMove? machine line := by
      simp only [refusesMove?, hasParams_strip]
    rw [reduce_of_move move, refusal?, move, same]
    cases refusesMove? machine line <;> rfl
  · by_cases known : line.action = .unknown → tuning.allowUnknown ∨ line.isInert
    · rw [reduce_of_not_move move known, refusal?]
      cases action : line.action with
      | move => exact absurd action move
      | unknown => exact (if_pos (known action)).symm
      | home | extrusion _ | positioning _ => rfl
    · obtain ⟨unknown, refused⟩ := Classical.not_imp.mp known
      obtain ⟨strict, active⟩ := not_or.mp refused
      simp [reduce, reduceActive, refusal?, unknown, strict, active]

/-- A line is reduced without a fault exactly if it is accepted. -/
theorem fault_reduce_eq_none_iff :
    (tuning.reduce machine line).fault = none ↔ tuning.Accepts machine line := by
  rw [fault_reduce, refusal?]
  cases action : line.action with
  | move =>
    rw [Option.map_eq_none_iff, refusesMove?_eq_none_iff]
    constructor
    · rintro ⟨homed, absolute, plain⟩
      exact ⟨fun _ => homed, fun _ => absolute, fun _ => plain, by simp [action]⟩
    · intro accepts
      exact ⟨accepts.homed action, accepts.absolute action, accepts.plain action⟩
  | unknown =>
    simp only [ite_eq_left_iff, reduceCtorEq, imp_false, not_not]
    constructor
    · intro known
      exact ⟨by simp [action], by simp [action], by simp [action], fun _ => known⟩
    · intro accepts
      exact accepts.known action
  | home | extrusion _ | positioning _ =>
    have accepts : tuning.Accepts machine line :=
      ⟨by simp [action], by simp [action], by simp [action], by simp [action]⟩
    exact ⟨fun _ => accepts, fun _ => rfl⟩

/-- A refused line changes nothing and loses at most its comment. -/
theorem reduce_of_refusal (refused : ¬ tuning.Accepts machine line) :
    (tuning.reduce machine line).machine = machine ∧
      (tuning.reduce machine line).line = tuning.strip line := by
  rw [← fault_reduce_eq_none_iff] at refused
  rw [reduce] at refused ⊢
  split_ifs at refused ⊢ with inert
  · exact absurd rfl refused
  · rw [reduceActive] at refused ⊢
    cases action : (tuning.strip line).action with
    | home | extrusion _ | positioning _ => exact absurd (by rw [action]) refused
    | move =>
      cases mode : refusesMove? machine (tuning.strip line) with
      | none => exact absurd (by simp only [action, mode]) refused
      | some mode => exact ⟨rfl, rfl⟩
    | unknown =>
      simp only
      split_ifs <;> exact ⟨rfl, rfl⟩

/-- An accepted move is reduced word by word. -/
theorem Accepts.reduce_move (accepts : tuning.Accepts machine line) (move : line.action = .move) :
    tuning.reduce machine line =
      ⟨tuning.afterMove machine line, (tuning.reduceMove machine (tuning.strip line)).2, none⟩ := by
  have allowed : refusesMove? machine (tuning.strip line) = none := by
    rw [refusesMove?_eq_none_iff, hasParams_strip]
    exact ⟨accepts.homed move, accepts.absolute move, accepts.plain move⟩
  rw [reduce_of_move move, allowed, ← afterMove_strip]
  rfl

/-- Any other accepted line is kept and carried out. -/
theorem Accepts.reduce_other (accepts : tuning.Accepts machine line) (other : line.action ≠ .move) :
    tuning.reduce machine line = ⟨machine.follow line, tuning.strip line, none⟩ :=
  reduce_of_not_move other accepts.known

/-- An inert line changes nothing and loses at most its comment. -/
theorem reduce_of_isInert (tuning : Tuning) (machine : Machine) (inert : line.isInert) :
    tuning.reduce machine line = ⟨machine, tuning.strip line, none⟩ := by
  rw [reduce, if_pos ((tuning.isInert_strip line).trans inert)]

/-- What an accepted line becomes. -/
theorem Accepts.line_cases (accepts : tuning.Accepts machine line) :
    line.action ≠ .move ∧ (tuning.reduce machine line).line = tuning.strip line ∨
      (tuning.keptWords machine (tuning.strip line)).hasWords = true ∧
        (tuning.reduce machine line).line = tuning.keptWords machine (tuning.strip line) ∨
      (tuning.reduce machine line).line = .blank := by
  by_cases move : line.action = .move
  · rw [accepts.reduce_move move, reduceMove_eq]
    apply Or.inr
    split_ifs with words
    · exact .inl ⟨words, rfl⟩
    · exact .inr rfl
  · exact .inl ⟨move, by rw [accepts.reduce_other move]⟩

/-- A line that survives has its command and its parameters. -/
theorem Accepts.survivor (accepts : tuning.Accepts machine line)
    (present : (tuning.reduce machine line).line.isEmpty = false) :
    (tuning.reduce machine line).line.action = line.action ∧
      (tuning.reduce machine line).line.hasParams = line.hasParams := by
  rcases accepts.line_cases with ⟨-, same⟩ | ⟨-, same⟩ | same
  · rw [same]
    exact ⟨tuning.action_strip line, tuning.hasParams_strip line⟩
  · rw [same]
    exact ⟨tuning.action_strip line, tuning.hasParams_strip line⟩
  · rw [same] at present
    contradiction

/-- Whether a line is accepted depends on its action, on whether it has parameters or is inert, and
on the modes. -/
theorem Accepts.transfer {other : Tuning} {second : Machine} {again : Line}
    (accepts : tuning.Accepts machine line) (allowed : tuning.allowUnknown → other.allowUnknown)
    (modes : Machine.SameModes machine second) (action : again.action = line.action)
    (params : again.hasParams = line.hasParams) (inert : line.isInert → again.isInert) :
    other.Accepts second again := by
  constructor
  · intro move
    rw [← modes.homed]
    exact accepts.homed (action ▸ move)
  · intro move
    rw [← modes.relativeCoordinates]
    exact accepts.absolute (action ▸ move)
  · intro move
    rw [params]
    exact accepts.plain (action ▸ move)
  · intro unknown
    exact (accepts.known (action ▸ unknown)).imp allowed inert

end Step

theorem sameModes_afterMove (tuning : Tuning) (machine : Machine) (line : Line) :
    Machine.SameModes (tuning.afterMove machine line) machine := by
  have fed : Machine.SameModes (tuning.keepExtrusion machine line.e).2 machine := by
    cases line.e with
    | none => exact .refl _
    | some value =>
      rw [keepExtrusion]
      split_ifs <;> exact ⟨rfl, rfl, rfl⟩
  exact ⟨fed.homed, fed.relativeCoordinates, fed.relativeExtrusion⟩

/-- Carrying out what is left of a move is carrying out its kept words, also if there is none. -/
theorem follow_reduceMove (tuning : Tuning) (machine other : Machine) {line : Line}
    (move : line.action = .move) :
    other.follow (tuning.reduceMove machine (tuning.strip line)).2 =
      other.move (tuning.keptWords machine line) := by
  have stripped : other.move (tuning.keptWords machine (tuning.strip line)) =
      other.move (tuning.keptWords machine line) := by
    rw [strip]
    split_ifs <;> rfl
  rw [reduceMove_eq, ← stripped]
  split_ifs with words
  · exact Machine.follow_of_move ((tuning.action_strip line).trans move)
  · rw [Machine.move_of_not_hasWords (by simpa using words)]
    exact Machine.follow_of_unknown rfl

/-- Reduces lines in order, each against the machine that the lines before it left. -/
def reduceAll (tuning : Tuning) : Machine → List Line → Except Fault (Machine × List Line)
  | machine, [] => .ok (machine, [])
  | machine, line :: lines =>
    let step := tuning.reduce machine line
    match step.fault with
    | some fault => .error fault
    | none => (tuning.reduceAll step.machine lines).map fun rest => (rest.1, step.line :: rest.2)

/-- Lines are reduced in order exactly if the first is accepted and the others are after it. -/
theorem reduceAll_cons_eq_ok_iff {tuning : Tuning} {machine after : Machine} {line : Line}
    {lines kept : List Line} :
    tuning.reduceAll machine (line :: lines) = .ok (after, kept) ↔
      tuning.Accepts machine line ∧
        ∃ rest, tuning.reduceAll (tuning.reduce machine line).machine lines = .ok (after, rest) ∧
        kept = (tuning.reduce machine line).line :: rest := by
  rw [reduceAll, ← fault_reduce_eq_none_iff]
  cases outcome : (tuning.reduce machine line).fault with
  | some fault => simp
  | none =>
    simp only [true_and]
    constructor
    · intro success
      obtain ⟨⟨last, rest⟩, later, same⟩ := exists_of_map_eq_ok success
      obtain ⟨rfl, rfl⟩ := Prod.mk.inj same
      exact ⟨rest, later, rfl⟩
    · rintro ⟨rest, later, rfl⟩
      rw [later]
      rfl

theorem length_reduceAll {tuning : Tuning} {machine after : Machine} {lines kept : List Line}
    (success : tuning.reduceAll machine lines = .ok (after, kept)) :
    kept.length = lines.length := by
  induction lines generalizing machine kept with
  | nil =>
    obtain ⟨-, rfl⟩ := Prod.mk.inj (Except.ok.inj success)
    rfl
  | cons line lines ih =>
    obtain ⟨-, rest, later, rfl⟩ := reduceAll_cons_eq_ok_iff.mp success
    rw [List.length_cons, List.length_cons, ih later]

/-- The first of the lines that are reduced in order are reduced in order. -/
theorem reduceAll_take {tuning : Tuning} {machine after : Machine} {lines kept : List Line}
    (success : tuning.reduceAll machine lines = .ok (after, kept)) (count : Nat) :
    ∃ between, tuning.reduceAll machine (lines.take count) = .ok (between, kept.take count) := by
  induction count generalizing machine lines kept with
  | zero => exact ⟨machine, by rw [List.take_zero, List.take_zero]; rfl⟩
  | succ count ih =>
    cases lines with
    | nil =>
      obtain ⟨rfl, rfl⟩ := Prod.mk.inj (Except.ok.inj success)
      exact ⟨machine, rfl⟩
    | cons line lines =>
      obtain ⟨accepts, rest, later, rfl⟩ := reduceAll_cons_eq_ok_iff.mp success
      obtain ⟨between, front⟩ := ih later
      exact ⟨between, reduceAll_cons_eq_ok_iff.mpr ⟨accepts, rest.take count, front, rfl⟩⟩

/-- Each of the lines that are reduced in order is accepted by the machine that the lines before it
left. -/
theorem reduceAll_getElem? {tuning : Tuning} {machine after : Machine} {lines kept : List Line}
    (success : tuning.reduceAll machine lines = .ok (after, kept)) {index : Nat} {line : Line}
    (present : lines[index]? = some line) :
    ∃ before, tuning.reduceAll machine (lines.take index) = .ok (before, kept.take index) ∧
      tuning.Accepts before line ∧ kept[index]? = some (tuning.reduce before line).line ∧
      tuning.reduceAll machine (lines.take (index + 1)) =
        .ok ((tuning.reduce before line).machine, kept.take (index + 1)) := by
  induction lines generalizing machine kept index with
  | nil => contradiction
  | cons first lines ih =>
    obtain ⟨accepts, rest, later, rfl⟩ := reduceAll_cons_eq_ok_iff.mp success
    cases index with
    | zero =>
      obtain rfl : first = line := Option.some.inj present
      refine ⟨machine, by rw [List.take_zero, List.take_zero]; rfl, accepts, rfl, ?_⟩
      exact reduceAll_cons_eq_ok_iff.mpr ⟨accepts, [], rfl, rfl⟩
    | succ index =>
      obtain ⟨before, front, accepted, left, through⟩ := ih later present
      exact ⟨before, reduceAll_cons_eq_ok_iff.mpr ⟨accepts, rest.take index, front, rfl⟩, accepted,
        left, reduceAll_cons_eq_ok_iff.mpr ⟨accepts, rest.take (index + 1), through, rfl⟩⟩

end Tuning

end Toolpath
