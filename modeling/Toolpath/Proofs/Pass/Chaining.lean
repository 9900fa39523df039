import Mathlib
import Toolpath.Proofs.Pass.Survivors

/-! # Passes one after the other

A program may be cut into several texts, each taken from the machine that the one before it left.
The machine is all that a pass hands on: what is done with a line does not depend on its number or
on what was kept before it. So the passes over the parts make the same decisions as the pass over
the whole, only that lines are counted from the start of each part, and that a part of which nothing
survives has a lone line feed for an output.
-/

namespace Toolpath

/-- The same failure when there are more lines before. -/
def PassFault.after (before : Nat) : PassFault → PassFault
  | line number fault => .line (before + number) fault
  | read number fault => .read (before + number) fault
  | write fault => .write fault

/-- The number of a line shows in the notes only. -/
theorem Tuning.turn_number (tuning : Tuning) (machine : Machine) (raw : String)
    (first second : Nat) :
    (tuning.turn machine first raw).machine = (tuning.turn machine second raw).machine ∧
      (tuning.turn machine first raw).verdict = (tuning.turn machine second raw).verdict := by
  unfold turn
  cases Line.read raw with
  | error fault => exact ⟨rfl, rfl⟩
  | ok line =>
    simp only
    cases (tuning.reduce machine line).fault with
    | some fault => exact ⟨rfl, rfl⟩
    | none =>
      simp only
      split_ifs
      · exact ⟨rfl, rfl⟩
      · cases (tuning.reduce machine line).line.render? tuning.precision <;> exact ⟨rfl, rfl⟩

namespace Run

/-- A run that has gone on from another one as a fresh run does from the same machine: its lines are
counted from where the other one stood, and its texts come after those of the other one. -/
structure Continues (before fresh run : Run) : Prop where
  machine : run.machine = fresh.machine
  count : run.count = before.count + fresh.count
  kept : run.kept = before.kept ++ fresh.kept
  fault : run.fault = fresh.fault.map (PassFault.after before.count)

section Continues

variable {before fresh run : Run}

theorem continues_start (running : before.fault = none) :
    Continues before { machine := before.machine } before :=
  ⟨rfl, rfl, Array.append_empty.symm, running⟩

/-- One more line takes both runs the same way. -/
theorem Continues.feed (continues : Continues before fresh run) (tuning : Tuning) (raw : String) :
    Continues before (fresh.feed tuning raw) (run.feed tuning raw) := by
  obtain ⟨machine, count, kept, fault⟩ := continues
  cases ended : fresh.fault with
  | some reason =>
    have stopped : run.fault.isSome = true := by rw [fault, ended]; rfl
    rw [Run.feed, Run.feed, if_pos stopped, if_pos (by rw [ended]; rfl)]
    exact ⟨machine, count, kept, fault⟩
  | none =>
    have running : run.fault = none := by rw [fault, ended]; rfl
    obtain ⟨sameMachine, sameVerdict⟩ :=
      tuning.turn_number fresh.machine raw (run.count + 1) (fresh.count + 1)
    have next : run.count + 1 = before.count + (fresh.count + 1) := by rw [count, Nat.add_assoc]
    rw [Run.feed, Run.feed, if_neg (by simp [ended]), if_neg (by simp [running]), machine]
    simp only [sameMachine, sameVerdict]
    cases (tuning.turn fresh.machine (fresh.count + 1) raw).verdict with
    | kept text => exact ⟨rfl, next, by rw [kept, Array.append_push], fault⟩
    | dropped => exact ⟨rfl, next, kept, fault⟩
    | failed reason => exact ⟨rfl, next, kept, by rw [next]; rfl⟩

/-- Lines in order take both runs the same way. -/
theorem Continues.feedAll (continues : Continues before fresh run) (tuning : Tuning)
    (raws : List String) :
    Continues before (fresh.feedAll tuning raws) (run.feedAll tuning raws) := by
  induction raws generalizing fresh run with
  | nil => exact continues
  | cons raw raws ih => exact ih (continues.feed tuning raw)

end Continues

/-- An output without the lone line feed that stands for no lines. -/
def body (output : String) : String := if output = "\n" then "" else output

section Body

variable {run : Run} (lines : ∀ text ∈ run.kept.toList, '\n' ∉ text.toList ∧ text ≠ "")
include lines

/-- Only a pass that keeps no line puts out a lone line feed. -/
theorem output_eq_feed_iff : run.output = "\n" ↔ run.kept = #[] := by
  have empty : ({ machine := run.machine } : Run).output = "\n" := if_pos rfl
  rw [← empty, output_inj lines (List.forall_mem_nil _)]
  exact Array.toList_eq_nil_iff

theorem body_output : body run.output = terminated run.kept.toList := by
  rw [body]
  split_ifs with feed
  · rw [(output_eq_feed_iff lines).mp feed]
    rfl
  · rw [output_eq_feed_iff lines] at feed
    exact if_neg (by simpa using feed)

end Body

end Run

namespace Tuning

/-- A program that is cut into two texts after the end of a line can be taken in two passes, the
second from the machine that the first one leaves. A failure of the first pass is the failure of the
whole; a failure of the second is too, its line counted from the start of the whole; and if neither
fails, the whole ends in the same machine and puts out the lines of both, a lone line feed standing
for no lines. -/
theorem passes_chain (tuning : Tuning) (machine : Machine) (front back : String)
    (closed : front = "" ∨ ∃ body, front = body ++ "\n") :
    let first := tuning.run machine front
    let second := tuning.run first.machine back
    let whole := tuning.run machine (front ++ back)
    (∀ fault, first.fault = some fault → whole.fault = some fault) ∧
      (first.fault = none → ∀ fault, second.fault = some fault →
        ∃ number reason, fault = .line number reason ∧
          whole.fault = some (.line ((Lines.ofString front).length + number) reason)) ∧
      (first.fault = none → second.fault = none →
        whole.fault = none ∧ whole.machine = second.machine ∧
          Run.body whole.output = Run.body first.output ++ Run.body second.output ∧
          (whole.output = "\n" ↔ first.kept = #[] ∧ second.kept = #[])) := by
  intro first second whole
  have cut : whole = first.feedAll tuning (Lines.ofString back) := by
    change Run.feedAll tuning { machine } (Lines.ofString (front ++ back)) = _
    rw [Lines.ofString_append closed, Run.feedAll_append]
    rfl
  have goesOn : first.fault = none → Run.Continues first second whole := by
    intro running
    rw [cut]
    exact (Run.continues_start running).feedAll tuning (Lines.ofString back)
  refine ⟨?_, ?_, ?_⟩
  · intro fault ended
    rw [cut, Run.feedAll_of_fault (by rw [ended]; rfl), ended]
  · intro running fault ended
    obtain ⟨_, _, _, reason, -, rfl, -, -⟩ := Run.feedAll_stops rfl ended
    have count : first.count = 0 + (Lines.ofString front).length := Run.count_feedAll running
    refine ⟨_, reason, rfl, ?_⟩
    rw [(goesOn running).fault, ended, count, Nat.zero_add]
    rfl
  · intro running success
    obtain ⟨last, -, kept, fault⟩ := goesOn running
    have wholeSuccess : whole.fault = none := by rw [fault, success]; rfl
    refine ⟨wholeSuccess, last, ?_, ?_⟩
    · rw [Run.body_output (of_mem_kept wholeSuccess), Run.body_output (of_mem_kept running),
        Run.body_output (of_mem_kept success), kept, Array.toList_append, Run.terminated_append]
    · rw [Run.output_eq_feed_iff (of_mem_kept wholeSuccess), kept, Array.append_eq_empty_iff]

/-- The second text counts on the homing and on the mode that the first one sets. -/
theorem passes_chain_modes_carried :
    let front := "G28\r\nM83\n\n"
    let back := "G1 X1 E.0002\nG1 X1.0001\n"
    let first := Tuning.standard.run {} front
    let second := Tuning.standard.run first.machine back
    let whole := Tuning.standard.run {} (front ++ back)
    (front = "" ∨ ∃ body, front = body ++ "\n") ∧ first.fault = none ∧ second.fault = none ∧
      whole.fault = none ∧ whole.machine = second.machine ∧
      Run.body whole.output = Run.body first.output ++ Run.body second.output ∧
      (whole.output = "\n" ↔ first.kept = #[] ∧ second.kept = #[]) := by
  intro front back first second whole
  have closed : front = "" ∨ ∃ body, front = body ++ "\n" := .inr ⟨"G28\r\nM83\n", rfl⟩
  have running : first.fault = none := by decide +kernel
  have success : second.fault = none := by decide +kernel
  exact ⟨closed, running, success,
    (passes_chain .standard {} front back closed).2.2 running success⟩

-- A line that fails in the second text is counted from the start of the first.
example :
    let front := "G28\nG91\n"
    let back := "; c\nG1 X1\n"
    let first := Tuning.standard.run {} front
    first.fault = none ∧
      (Tuning.standard.run first.machine back).fault =
        some (.line 2 (.unsupported .relativeCoordinates)) ∧
      (Tuning.standard.run {} (front ++ back)).fault =
        some (.line 4 (.unsupported .relativeCoordinates)) := by
  decide +kernel

end Tuning

end Toolpath
