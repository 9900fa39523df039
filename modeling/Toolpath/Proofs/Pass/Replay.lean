import Mathlib
import Toolpath.Proofs.Pass.Motion
import Toolpath.Proofs.Reduce.Redundancy

/-! # Taking the output of a pass again

A line that survives has the command and the parameters of the line it comes from, and a line that
does not survive changes no mode. So the lines of an output are accepted again, by the same or by
another tuning, one by one and in the same modes as the lines that they come from.
-/

namespace Toolpath.Tuning

section Line

variable {tuning : Tuning} {machine : Machine} {line : Line} (accepts : tuning.Accepts machine line)
include accepts

/-- Reducing a line changes the modes as carrying it out does. -/
theorem Accepts.sameModes :
    Machine.SameModes (tuning.reduce machine line).machine (machine.follow line) := by
  by_cases move : line.action = .move
  · rw [accepts.reduce_move move, Machine.follow_of_move move]
    exact (sameModes_afterMove tuning machine line).trans (Machine.sameModes_move machine line).symm
  · rw [accepts.reduce_other move]
    exact .refl _

/-- A line that does not survive changes no mode. -/
theorem Accepts.sameModes_of_isEmpty (empty : (tuning.reduce machine line).line.isEmpty) :
    Machine.SameModes (machine.follow line) machine := by
  by_cases move : line.action = .move
  · rw [Machine.follow_of_move move]
    exact Machine.sameModes_move machine line
  · rw [accepts.reduce_other move] at empty
    rw [← tuning.follow_strip, Machine.follow_of_isEmpty empty]
    exact .refl _

/-- A line that survives is accepted again, in the same modes, after it was written and read. -/
theorem Accepts.again {other : Tuning} (allowed : tuning.allowUnknown → other.allowUnknown)
    (present : (tuning.reduce machine line).line.isEmpty = false) {second : Machine}
    (modes : Machine.SameModes machine second) (precision : Precision) :
    other.Accepts second ((tuning.reduce machine line).line.trimReturn.settled precision) := by
  obtain ⟨action, params⟩ := accepts.survivor present
  refine accepts.transfer allowed modes action ?_ ?_
  · rw [← params]
    simp only [Line.hasParams, Line.settled, Params.map_isEmpty]
    rfl
  · intro inert
    rw [reduce_of_isInert tuning machine inert]
    rw [← tuning.isInert_strip, Line.isInert_iff] at inert
    exact Line.isInert_iff.mpr ⟨inert.1, Line.hasWords_settled inert.2 precision⟩

end Line

/-- The lines of an output are accepted again in order. -/
theorem reduceAll_reread {tuning other : Tuning}
    (allowed : tuning.allowUnknown → other.allowUnknown) {machine after : Machine}
    {lines kept : List Line} (success : tuning.reduceAll machine lines = .ok (after, kept))
    (precision : Precision) {second : Machine} (modes : Machine.SameModes machine second) :
    ∃ last again, other.reduceAll second (Line.reread precision kept) = .ok (last, again) := by
  induction lines generalizing machine kept second with
  | nil =>
    obtain ⟨-, rfl⟩ := Prod.mk.inj (Except.ok.inj success)
    exact ⟨second, [], rfl⟩
  | cons line lines ih =>
    obtain ⟨accepts, rest, later, rfl⟩ := reduceAll_cons_eq_ok_iff.mp success
    rw [Line.reread, List.filter_cons]
    cases empty : (tuning.reduce machine line).line.isEmpty with
    | true =>
      apply ih later
      exact accepts.sameModes.trans ((accepts.sameModes_of_isEmpty empty).trans modes)
    | false =>
      have acceptsAgain := accepts.again allowed empty modes precision
      have action : line.action =
          ((tuning.reduce machine line).line.trimReturn.settled precision).action :=
        (accepts.survivor empty).1.symm
      have modesAfter :=
        (accepts.sameModes.trans (modes.follow action)).trans acceptsAgain.sameModes.symm
      obtain ⟨last, again, success⟩ := ih later modesAfter
      exact ⟨last, _, reduceAll_cons_eq_ok_iff.mpr ⟨acceptsAgain, again, success, rfl⟩⟩

/-- A lone line feed is a line that does not survive. -/
theorem run_of_feed (tuning : Tuning) (fits : tuning.precision.Fits) (machine : Machine) :
    (tuning.run machine "\n").fault = none ∧ (tuning.run machine "\n").kept.toList = [] := by
  have reads : Line.Reads (Lines.ofString "\n") [.blank] := .cons rfl .nil
  have accepts : tuning.Accepts machine .blank := ⟨nofun, nofun, nofun, fun _ => .inr rfl⟩
  have reduced : tuning.reduceAll machine [.blank] = .ok (machine, [.blank]) := by
    refine reduceAll_cons_eq_ok_iff.mpr ⟨accepts, [], ?_⟩
    rw [accepts.reduce_other nofun, strip_of_bare fun _ => rfl]
    exact ⟨rfl, rfl⟩
  obtain ⟨fault, -, texts⟩ := runLines_of_reduceAll fits reads reduced
  exact ⟨fault, texts⟩

section Output

variable {tuning other : Tuning} {machine : Machine} {text : String}
  (success : (tuning.run machine text).fault = none)
include success

/-- A pass over an output does not end early if it allows unknown lines where the pass that made the
output does. -/
theorem fault_run_output (fits : other.precision.Fits)
    (allowed : tuning.allowUnknown → other.allowUnknown) :
    (other.run machine (tuning.run machine text).output).fault = none := by
  obtain ⟨lines, kept, reads, reduced, texts⟩ := runLines_cases success
  rw [← run] at texts
  have presentable := presentable_of_reduceAll reduced
    (reads.presentable fun raw => Lines.feed_not_mem_of_mem_ofString)
  by_cases nothing : (tuning.run machine text).kept.toList = []
  · rw [show (tuning.run machine text).output = "\n" from if_pos (by simpa using nothing)]
    exact (run_of_feed other fits machine).1
  · rw [Run.output, if_neg (by simpa using nothing), texts]
    obtain ⟨last, again, reducedAgain⟩ :=
      reduceAll_reread allowed reduced tuning.precision (.refl machine)
    have readsAgain := Line.reads_terminated presentable tuning.precision
    exact (runLines_of_reduceAll fits readsAgain reducedAgain).1

/-- A pass over an output that does not end early ends in the modes of the pass that made the
output. -/
theorem sameModes_run_output
    (again : (other.run machine (tuning.run machine text).output).fault = none) :
    Machine.SameModes (other.run machine (tuning.run machine text).output).machine
      (tuning.run machine text).machine := by
  obtain ⟨lines, kept, reads, reduced, texts⟩ := runLines_cases success
  obtain ⟨outputLines, _, readsOutput, reducedOutput, -⟩ := runLines_cases again
  rw [← run] at reduced texts reducedOutput
  have presentable := presentable_of_reduceAll reduced
    (reads.presentable fun raw => Lines.feed_not_mem_of_mem_ofString)
  -- Both passes go with the machine that carries out the output.
  have carriedOut : machine.followAll outputLines =
      machine.followAll (kept.map (Line.settled tuning.precision)) := by
    have printed := Line.followText_terminated presentable tuning.precision machine
    rw [← texts, ← Run.followText_output, Machine.followText, readsOutput.followTexts] at printed
    exact Except.ok.inj printed
  have first := ((Tracks.refl machine).run reduced).printedModes
  have second := ((Tracks.refl machine).run reducedOutput).commandedModes
  rw [carriedOut] at second
  exact second.symm.trans first

end Output

/-- The output of a pass is accepted by any other tuning that allows unknown lines where the first
one does, whatever its threshold, its places and its treatment of comments: the second pass does not
end early, and it ends in the same modes. -/
theorem output_accepted (tuning other : Tuning) (fits : other.precision.Fits)
    (allowed : tuning.allowUnknown = true → other.allowUnknown = true) (machine : Machine)
    (text : String) (success : (tuning.run machine text).fault = none) :
    let first := tuning.run machine text
    let second := other.run machine first.output
    second.fault = none ∧ Machine.SameModes second.machine first.machine := by
  intro first second
  have again : second.fault = none := fault_run_output success fits allowed
  exact ⟨again, sameModes_run_output success again⟩

/-- A coarser tuning without comments, and a program with an unknown command, a feed rate that is
written as zero, and modes that are switched. -/
theorem output_accepted_coarser :
    let other : Tuning :=
      { threshold := 1.0, precision := ⟨1, 0, 2⟩, removeComments := true, allowUnknown := true }
    let text := "T0 ; tool\nG28\nM83\nG1 X1.23456 E.001 F0.4\nG1 X1.3\nG91\n"
    let first := Tuning.permissive.run {} text
    let second := other.run {} first.output
    other.precision.Fits ∧ (Tuning.permissive.allowUnknown = true → other.allowUnknown = true) ∧
      first.fault = none ∧ second.fault = none ∧
      Machine.SameModes second.machine first.machine := by
  intro other text first second
  have fits : other.precision.Fits := ⟨by decide, by decide, by decide⟩
  have success : first.fault = none := by decide +kernel
  exact ⟨fits, fun _ => rfl, success,
    output_accepted .permissive other fits (fun _ => rfl) {} text success⟩

end Toolpath.Tuning
