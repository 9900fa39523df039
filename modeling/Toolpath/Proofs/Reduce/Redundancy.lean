import Mathlib
import Toolpath.Proofs.Reduce.Acceptance

/-! # Redundant words

A word is noticed when it is not near the value that the machine has for it. Reducing a move keeps
exactly the words that are noticed, so every kept word is noticed by the same machine again. A line
all of whose words are noticed is kept as it is, and the machine carries it out.
-/

namespace Toolpath.Tuning

/-- A move none of whose words is redundant. -/
structure Notices (tuning : Tuning) (machine : Machine) (line : Line) : Prop where
  x : ∀ value ∈ line.x, tuning.near value machine.x = false
  y : ∀ value ∈ line.y, tuning.near value machine.y = false
  z : ∀ value ∈ line.z, tuning.near value machine.z = false
  e : ∀ value ∈ line.e,
    tuning.near value (if machine.relativeExtrusion then 0.0 else machine.e) = false
  feedrate : line.hasFeedrate = true → tuning.near line.feedrate machine.feedrate = false

/-- What is left of a word: nothing if it is near the value that is tracked. -/
def noticed (tuning : Tuning) (word : Option Float) (tracked : Float) : Option Float :=
  word.filter fun value => !tuning.near value tracked

section Words

variable {tuning : Tuning} {machine : Machine} {line : Line} {word : Option Float}
  {tracked : Float}

theorem noticed_some (tuning : Tuning) (value tracked : Float) :
    tuning.noticed (some value) tracked =
      if tuning.near value tracked then none else some value := by
  cases near : tuning.near value tracked <;> simp [noticed, Option.filter_some, near]

theorem far_of_mem_noticed {value : Float} (left : value ∈ tuning.noticed word tracked) :
    tuning.near value tracked = false := by
  simpa using (Option.mem_filter_iff.mp left).2

theorem noticed_of_far (far : ∀ value ∈ word, tuning.near value tracked = false) :
    tuning.noticed word tracked = word := by
  cases word with
  | none => rfl
  | some value => rw [noticed_some, far value rfl, if_neg Bool.false_ne_true]

theorem far_of_isSome_noticed (left : word.isSome → (tuning.noticed word tracked).isSome) :
    ∀ value ∈ word, tuning.near value tracked = false := by
  rintro value rfl
  obtain ⟨other, kept⟩ := Option.isSome_iff_exists.mp (left rfl)
  obtain rfl := Option.some.inj (Option.mem_filter_iff.mp kept).1
  exact far_of_mem_noticed kept

theorem keepAxis_eq (tuning : Tuning) (word : Option Float) (tracked : Float) :
    tuning.keepAxis word tracked =
      (tuning.noticed word tracked, (tuning.noticed word tracked).getD tracked) := by
  cases word with
  | none => rfl
  | some value =>
    rw [keepAxis, noticed_some]
    split_ifs <;> rfl

/-- An increment counts whether it is kept or not, a position only if it is kept. -/
theorem keepExtrusion_eq (tuning : Tuning) (machine : Machine) (word : Option Float) :
    let left := tuning.noticed word (if machine.relativeExtrusion then 0.0 else machine.e)
    tuning.keepExtrusion machine word = (left, { machine with
      e := if machine.relativeExtrusion then machine.e else left.getD machine.e
      extruded :=
        if machine.relativeExtrusion then word.elim machine.extruded (machine.extruded + ·)
        else left.getD machine.extruded }) := by
  cases word with
  | none =>
    simp only [keepExtrusion, noticed, Option.filter_none, Option.getD_none, Option.elim_none,
      ite_self]
  | some value =>
    by_cases relative : machine.relativeExtrusion = true
    · simp only [keepExtrusion, noticed_some, if_pos relative, Option.elim_some]
    · simp only [keepExtrusion, noticed_some, if_neg relative]
      split_ifs <;> rfl

theorem e_keptWords (tuning : Tuning) (machine : Machine) (line : Line) :
    (tuning.keptWords machine line).e =
      tuning.noticed line.e (if machine.relativeExtrusion then 0.0 else machine.e) := by
  simp only [keptWords, keepExtrusion_eq]

/-- Zero stands for no feed rate. -/
theorem zero_bne_zero : ((0.0 : Float) != 0.0) = false := by decide +kernel

/-- What is left of a move mentions a feed rate exactly if the feed rate is kept. -/
theorem hasFeedrate_keptWords (tuning : Tuning) (machine : Machine) (line : Line) :
    (tuning.keptWords machine line).hasFeedrate = tuning.keepsFeedrate machine line := by
  cases keeps : tuning.keepsFeedrate machine line with
  | false => simp only [Line.hasFeedrate, keptWords, keeps, Bool.false_eq_true, if_false,
      zero_bne_zero]
  | true =>
    simp only [Line.hasFeedrate, keptWords, keeps, if_true]
    exact (Bool.and_eq_true_iff.mp keeps).1

/-- No word that is left of a move is redundant for the machine that the move was reduced
against. -/
theorem notices_keptWords (tuning : Tuning) (machine : Machine) (line : Line) :
    tuning.Notices machine (tuning.keptWords machine line) := by
  refine ⟨?_, ?_, ?_, ?_, ?_⟩
  case refine_5 =>
    intro mentioned
    rw [hasFeedrate_keptWords] at mentioned
    simp only [keptWords, mentioned, if_true]
    simpa using (Bool.and_eq_true_iff.mp mentioned).2
  all_goals
    intro value left
    simp only [keptWords, keepAxis_eq, keepExtrusion_eq] at left
    exact far_of_mem_noticed left

/-- A pass carries out a move none of whose words is redundant. -/
theorem Notices.afterMove_eq (notices : tuning.Notices machine line) :
    tuning.afterMove machine line = machine.move line := by
  have rate : tuning.keepsFeedrate machine line = line.hasFeedrate := by
    cases mentioned : line.hasFeedrate <;> simp [keepsFeedrate, mentioned, notices.feedrate]
  simp only [afterMove, reduceMove, keepAxis_eq, keepExtrusion_eq, noticed_of_far notices.x,
    noticed_of_far notices.y, noticed_of_far notices.z, noticed_of_far notices.e, rate,
    Machine.move]

/-- A pass keeps a move none of whose words is redundant. -/
theorem Notices.keptWords_eq (notices : tuning.Notices machine line)
    (unset : line.hasFeedrate = false → line.feedrate = 0.0) :
    tuning.keptWords machine line = line := by
  have rate : (if tuning.keepsFeedrate machine line then line.feedrate else 0.0) =
      line.feedrate := by
    cases mentioned : line.hasFeedrate with
    | false => simp [keepsFeedrate, mentioned, unset mentioned]
    | true => simp [keepsFeedrate, mentioned, notices.feedrate mentioned]
  simp only [keptWords, keepAxis_eq, keepExtrusion_eq, noticed_of_far notices.x,
    noticed_of_far notices.y, noticed_of_far notices.z, noticed_of_far notices.e, rate]

end Words

/-- Which words are kept does not depend on the comment. -/
theorem keptWords_strip (tuning : Tuning) (machine : Machine) (line : Line) :
    tuning.keptWords machine (tuning.strip line) =
      { tuning.keptWords machine line with comment := (tuning.strip line).comment } := by
  rw [strip]
  split_ifs <;> rfl

theorem strip_of_bare {tuning : Tuning} {line : Line}
    (bare : tuning.removeComments = true → line.comment = none) :
    tuning.strip line = line := by
  rw [strip]
  split_ifs with removes
  · rw [Line.withoutComment, ← bare removes]
  · rfl

section Step

variable {tuning : Tuning} {machine : Machine} {line : Line}
  (accepts : tuning.Accepts machine line)
include accepts

/-- Where comments are removed, what is left has none. -/
theorem Accepts.bare_line (removes : tuning.removeComments = true) :
    (tuning.reduce machine line).line.comment = none := by
  have stripped : (tuning.strip line).comment = none := by rw [strip, if_pos removes]; rfl
  rcases accepts.line_cases with ⟨-, same⟩ | ⟨-, same⟩ | same <;> rw [same]
  · exact stripped
  · exact stripped
  · rfl

/-- What is left of a move is its kept words, unless nothing is left. -/
theorem Accepts.line_of_move (move : line.action = .move)
    (present : (tuning.reduce machine line).line.isEmpty = false) :
    (tuning.reduce machine line).line = tuning.keptWords machine (tuning.strip line) ∧
      (tuning.keptWords machine (tuning.strip line)).hasWords = true := by
  rcases accepts.line_cases with ⟨other, -⟩ | ⟨words, same⟩ | same
  · exact absurd move other
  · exact ⟨same, words⟩
  · rw [same] at present
    contradiction

/-- An accepted line without a redundant word is kept as it is and carried out. -/
theorem Accepts.reduce_of_notices (bare : tuning.strip line = line)
    (notices : line.action = .move → tuning.Notices machine line)
    (words : line.action = .move → line.hasWords = true)
    (unset : line.action = .move → line.hasFeedrate = false → line.feedrate = 0.0) :
    tuning.reduce machine line = ⟨machine.follow line, line, none⟩ := by
  by_cases move : line.action = .move
  · rw [accepts.reduce_move move, bare, reduceMove_eq, (notices move).keptWords_eq (unset move),
      if_pos (words move), (notices move).afterMove_eq, Machine.follow_of_move move]
  · rw [accepts.reduce_other move, bare]

/-- A move that lost no word had no redundant one. -/
theorem Accepts.notices (move : line.action = .move)
    (x : line.x.isSome → (tuning.reduce machine line).line.x.isSome)
    (y : line.y.isSome → (tuning.reduce machine line).line.y.isSome)
    (z : line.z.isSome → (tuning.reduce machine line).line.z.isSome)
    (e : line.e.isSome → (tuning.reduce machine line).line.e.isSome)
    (feedrate : line.hasFeedrate → (tuning.reduce machine line).line.hasFeedrate)
    (present : (tuning.reduce machine line).line.isEmpty = false) :
    tuning.Notices machine line := by
  rw [(accepts.line_of_move move present).1, keptWords_strip] at x y z e feedrate
  simp only [keptWords, keepAxis_eq, keepExtrusion_eq] at x y z e
  refine ⟨far_of_isSome_noticed x, far_of_isSome_noticed y, far_of_isSome_noticed z,
    far_of_isSome_noticed e, ?_⟩
  intro mentioned
  have keeps : tuning.keepsFeedrate machine line = true := by
    rw [← hasFeedrate_keptWords]
    exact feedrate mentioned
  simpa using (Bool.and_eq_true_iff.mp keeps).2

end Step

end Toolpath.Tuning
