import Mathlib
import Toolpath.Proofs.Pass.Survivors

/-! # Where a pass ends early

A pass ends early exactly at the first line that fails, against the machine that the lines before it
left. What is done with a line is that it is read and that the line is reduced. As long as numbers
can be written nothing else can fail.
-/

namespace Toolpath

namespace Tuning

/-- Reads the text of a line and reduces the line: the machine after it, and what is left of it. -/
def digest (tuning : Tuning) (machine : Machine) (raw : String) : Except Fault (Machine × Line) :=
  match Line.read raw with
  | .error fault => .error (.unreadable fault)
  | .ok line =>
    let step := tuning.reduce machine line
    match step.fault with
    | some fault => .error fault
    | none => .ok (step.machine, step.line)

section Digest

variable {tuning : Tuning} {machine : Machine} {raw : String}

theorem digest_of_read_error {fault : ReadFault} (outcome : Line.read raw = .error fault) :
    tuning.digest machine raw = .error (.unreadable fault) := by
  rw [digest, outcome]

theorem digest_of_read_ok {line : Line} (outcome : Line.read raw = .ok line) :
    tuning.digest machine raw =
      match tuning.refusal? machine line with
      | some fault => .error fault
      | none => .ok ((tuning.reduce machine line).machine, (tuning.reduce machine line).line) := by
  rw [digest, outcome, ← fault_reduce]

/-- A line is digested exactly if it can be read and is accepted. -/
theorem digest_eq_ok_iff {after : Machine} {left : Line} :
    tuning.digest machine raw = .ok (after, left) ↔
      ∃ line, Line.read raw = .ok line ∧ tuning.Accepts machine line ∧
        after = (tuning.reduce machine line).machine ∧ left = (tuning.reduce machine line).line := by
  cases outcome : Line.read raw with
  | error fault => simp [digest_of_read_error outcome]
  | ok line =>
    simp only [digest_of_read_ok outcome, Except.ok.injEq, exists_eq_left',
      ← fault_reduce_eq_none_iff, fault_reduce]
    cases tuning.refusal? machine line with
    | some fault => simp
    | none => simp [eq_comm]

theorem turn_of_digest_error {fault : Fault} (failed : tuning.digest machine raw = .error fault)
    (number : Nat) : (tuning.turn machine number raw).verdict = .failed fault := by
  rw [turn]
  cases outcome : Line.read raw with
  | error reason =>
    rw [digest_of_read_error outcome] at failed
    exact congrArg Verdict.failed (Except.error.inj failed)
  | ok line =>
    rw [digest_of_read_ok outcome, ← fault_reduce] at failed
    cases refused : (tuning.reduce machine line).fault with
    | none => simp [refused] at failed
    | some reason =>
      rw [refused] at failed
      simp only [refused, Except.error.inj failed]

/-- As long as numbers can be written, a line fails exactly if it cannot be digested. -/
theorem turn_eq_failed_iff (fits : tuning.precision.Fits) {number : Nat} {fault : Fault} :
    (tuning.turn machine number raw).verdict = .failed fault ↔
      tuning.digest machine raw = .error fault := by
  refine ⟨fun failed => ?_, fun failed => turn_of_digest_error failed number⟩
  cases outcome : tuning.digest machine raw with
  | error reason =>
    rw [turn_of_digest_error outcome] at failed
    rw [Verdict.failed.inj failed]
  | ok digested =>
    obtain ⟨line, read, accepts, -, -⟩ := digest_eq_ok_iff.mp outcome
    rw [turn, read] at failed
    simp only [fault_reduce_eq_none_iff.mpr accepts, Line.render?_of_fits fits] at failed
    split_ifs at failed

end Digest

end Tuning

namespace Run

variable {tuning : Tuning} {run : Run} {raw : String}

/-- A running pass ends at a line exactly if that line fails. -/
theorem fault_feed_eq_some_iff (running : run.fault = none) {fault : PassFault} :
    (run.feed tuning raw).fault = some fault ↔
      ∃ reason, (tuning.turn run.machine (run.count + 1) raw).verdict = .failed reason ∧
        fault = .line (run.count + 1) reason := by
  have notEnded : ¬ run.fault.isSome = true := by simp [running]
  rw [feed, if_neg notEnded]
  cases verdict : (tuning.turn run.machine (run.count + 1) raw).verdict with
  | kept _ | dropped => simp [verdict, running]
  | failed reason => simp [verdict, eq_comm]

/-- A pass ends early exactly at the first line that fails, against the machine that the lines
before it left. -/
theorem fault_feedAll_eq_some_iff_verdict (running : run.fault = none) {raws : List String}
    {fault : PassFault} :
    (run.feedAll tuning raws).fault = some fault ↔
      ∃ front raw back reason, raws = front ++ raw :: back ∧
        (run.feedAll tuning front).fault = none ∧
        (tuning.turn (run.feedAll tuning front).machine (run.count + front.length + 1) raw).verdict =
          .failed reason ∧
        fault = .line (run.count + front.length + 1) reason := by
  constructor
  · intro ended
    obtain ⟨front, raw, back, _, cut, -, success, -, stopped⟩ := feedAll_stops running ended
    rw [fault_feed_eq_some_iff success, count_feedAll success] at stopped
    obtain ⟨reason, failed, named⟩ := stopped
    exact ⟨front, raw, back, reason, cut, success, failed, named⟩
  · rintro ⟨front, raw, back, reason, rfl, success, failed, rfl⟩
    rw [← count_feedAll success] at failed ⊢
    have stopped := (fault_feed_eq_some_iff success).mpr ⟨reason, failed, rfl⟩
    rw [feedAll_append, feedAll_cons, feedAll_of_fault (by rw [stopped]; rfl), stopped]

/-- A line that cannot be digested ends a pass. -/
theorem feed_of_digest_error (running : run.fault = none) {fault : Fault}
    (failed : tuning.digest run.machine raw = .error fault) :
    (run.feed tuning raw).fault = some (.line (run.count + 1) fault) :=
  (fault_feed_eq_some_iff running).mpr ⟨fault, Tuning.turn_of_digest_error failed _, rfl⟩

/-- A line that is digested leaves a pass running, and what is left of it is kept if there is
anything left. -/
theorem feed_of_digest_ok (fits : tuning.precision.Fits) (running : run.fault = none)
    {after : Machine} {line : Line} (digested : tuning.digest run.machine raw = .ok (after, line)) :
    (run.feed tuning raw).fault = none ∧ (run.feed tuning raw).machine = after ∧
      (run.feed tuning raw).kept.toList =
        run.kept.toList ++ survivingTexts tuning.precision [line] := by
  obtain ⟨read, outcome, accepts, rfl, rfl⟩ := Tuning.digest_eq_ok_iff.mp digested
  have success := feed_of_accepts fits running outcome accepts
  obtain ⟨other, again, -, machine, kept⟩ := feed_cases running success
  obtain rfl := Except.ok.inj (outcome.symm.trans again)
  exact ⟨success, machine, kept⟩

/-- A pass ends early exactly at the first line that cannot be digested, against the machine that
the lines before it left. -/
theorem fault_feedAll_eq_some_iff (fits : tuning.precision.Fits) (running : run.fault = none)
    {raws : List String} {fault : PassFault} :
    (run.feedAll tuning raws).fault = some fault ↔
      ∃ front raw back reason, raws = front ++ raw :: back ∧
        (run.feedAll tuning front).fault = none ∧
        tuning.digest (run.feedAll tuning front).machine raw = .error reason ∧
        fault = .line (run.count + front.length + 1) reason := by
  simp only [fault_feedAll_eq_some_iff_verdict running, Tuning.turn_eq_failed_iff fits]

end Run

/-- The first line that cannot be digested is the end of a pass, and is counted from one. -/
theorem Tuning.fault_runLines_eq_some_iff {tuning : Tuning} (fits : tuning.precision.Fits)
    {machine : Machine} {raws : List String} {fault : PassFault} :
    (tuning.runLines machine raws).fault = some fault ↔
      ∃ front raw back reason, raws = front ++ raw :: back ∧
        (tuning.runLines machine front).fault = none ∧
        tuning.digest (tuning.runLines machine front).machine raw = .error reason ∧
        fault = .line (front.length + 1) reason := by
  rw [runLines, Run.fault_feedAll_eq_some_iff fits rfl]
  simp only [Nat.zero_add]
  rfl

end Toolpath
