import Mathlib
import Toolpath.Proofs.Pass.Chaining
import Toolpath.Proofs.Pass.Endings
import Toolpath.Proofs.Pass.Writing

/-! # Composing a program from its lines

A composer that is given the lines of a text one by one does what a pass over the text does. The
pass writes what is left of a line at once; the composer keeps it and writes all lines at the end.
That gives the same texts, for the written form of a line depends on the places alone, and these
stay as they are. Only a text of which nothing is left ends in two ways: as a lone line feed, or as
nothing.
-/

namespace Toolpath

namespace Composer

/-- Reads the text of a line and adds the line. -/
def addText (composer : Composer) (raw : String) : Except Fault Composer :=
  match Line.read raw with
  | .error fault => .error (.unreadable fault)
  | .ok line =>
    let reply := composer.add line
    match reply.fault with
    | some fault => .error fault
    | none => .ok reply.composer

/-- Adds lines in order until one fails. The first line has the given number, which names the line
that fails. -/
def addTexts (composer : Composer) (number : Nat) : List String → Except (Nat × Fault) Composer
  | [] => .ok composer
  | raw :: raws =>
    match composer.addText raw with
    | .error fault => .error (number, fault)
    | .ok next => next.addTexts (number + 1) raws

/-- What is left of a line goes to the lines if there is anything left. -/
def keep (composer : Composer) (machine : Machine) (line : Line) : Composer :=
  { composer with
    machine
    lines := if line.isEmpty then composer.lines else composer.lines.push line }

/-- What is left of an accepted line is kept. -/
theorem add_of_accepts {composer : Composer} {line : Line}
    (accepts : composer.tuning.Accepts composer.machine line) :
    (composer.add line).fault = none ∧ (composer.add line).composer =
      composer.keep (composer.tuning.reduce composer.machine line).machine
        (composer.tuning.reduce composer.machine line).line := by
  rw [add, Tuning.fault_reduce_eq_none_iff.mpr accepts]
  exact ⟨rfl, rfl⟩

/-- A refused line leaves the composer as it was. -/
theorem add_of_refusal {composer : Composer} {line : Line}
    (refused : ¬ composer.tuning.Accepts composer.machine line) :
    (composer.add line).fault.isSome = true ∧ (composer.add line).composer = composer := by
  have machine := (Tuning.reduce_of_refusal refused).1
  rw [← Tuning.fault_reduce_eq_none_iff] at refused
  obtain ⟨fault, outcome⟩ := Option.ne_none_iff_exists'.mp refused
  rw [add, outcome]
  exact ⟨rfl, by simp only [machine]⟩

/-- Adding the text of a line is digesting it and keeping what is left. -/
theorem addText_eq (composer : Composer) (raw : String) :
    composer.addText raw =
      (composer.tuning.digest composer.machine raw).map fun left => composer.keep left.1 left.2 := by
  rw [addText, Tuning.digest]
  cases Line.read raw with
  | error fault => rfl
  | ok line =>
    simp only [add]
    cases (composer.tuning.reduce composer.machine line).fault <;> rfl

/-- As long as numbers can be written, the lines of a composer can. -/
theorem texts?_of_fits (composer : Composer) (fits : composer.tuning.precision.Fits) :
    composer.texts? = some (composer.lines.toList.map (Line.render composer.tuning.precision)) := by
  have written : Line.render? composer.tuning.precision =
      pure ∘ Line.render composer.tuning.precision :=
    funext (Line.render?_of_fits fits)
  rw [texts?, written]
  exact List.mapM_pure

/-- As long as numbers can be written, the program is written at once, and then the output is
completed. -/
theorem deliver?_of_fits (composer : Composer) (fits : composer.tuning.precision.Fits)
    (sink : Sink) :
    composer.deliver? sink =
      match sink.write (Run.terminated
          (composer.lines.toList.map (Line.render composer.tuning.precision))).toUTF8 with
      | (after, none) => some (after, sink.flushFault)
      | (after, some fault) => some (after, some fault) := by
  rw [deliver?, write, writeLines_eq _ fun line _ => Line.render?_of_fits fits line]
  cases sink.write _ with
  | mk after fault =>
    cases fault with
    | none => cases sink.flushFault <;> rfl
    | some fault => rfl

/-- A composer that stands where a pass under the same tuning stands. -/
structure Mirrors (tuning : Tuning) (composer : Composer) (run : Run) : Prop where
  sameTuning : composer.tuning = tuning
  machine : composer.machine = run.machine
  running : run.fault = none
  lines : run.kept.toList = composer.lines.toList.map (Line.render tuning.precision)

section Mirrors

variable {tuning : Tuning} {composer : Composer} {run : Run}

/-- A line that cannot be added ends the pass with the same fault. -/
theorem Mirrors.feed_of_error (mirrors : Mirrors tuning composer run) {raw : String}
    {fault : Fault} (failed : composer.addText raw = .error fault) :
    (run.feed tuning raw).fault = some (.line (run.count + 1) fault) := by
  obtain ⟨rfl, machine, running, -⟩ := mirrors
  rw [addText_eq, machine] at failed
  cases outcome : composer.tuning.digest run.machine raw with
  | error reason =>
    rw [outcome] at failed
    obtain rfl : reason = fault := Except.error.inj failed
    exact Run.feed_of_digest_error running outcome
  | ok left =>
    rw [outcome] at failed
    contradiction

/-- A line that is added keeps the composer and the pass together. -/
theorem Mirrors.feed_of_ok (fits : tuning.precision.Fits) (mirrors : Mirrors tuning composer run)
    {raw : String} {next : Composer} (added : composer.addText raw = .ok next) :
    Mirrors tuning next (run.feed tuning raw) := by
  obtain ⟨rfl, machine, running, lines⟩ := mirrors
  rw [addText_eq, machine] at added
  cases outcome : composer.tuning.digest run.machine raw with
  | error fault =>
    rw [outcome] at added
    contradiction
  | ok left =>
    rw [outcome] at added
    obtain rfl : composer.keep left.1 left.2 = next := Except.ok.inj added
    obtain ⟨running, last, kept⟩ := Run.feed_of_digest_ok fits running outcome
    refine ⟨rfl, last.symm, running, ?_⟩
    rw [kept, lines, keep, survivingTexts_cons]
    cases left.2.isEmpty <;> simp [survivingTexts]

/-- Adding lines and taking them in a pass fail at the same line, or not at all. -/
theorem Mirrors.addTexts (fits : tuning.precision.Fits) (mirrors : Mirrors tuning composer run)
    (raws : List String) :
    match composer.addTexts (run.count + 1) raws with
    | .error (number, fault) => (run.feedAll tuning raws).fault = some (.line number fault)
    | .ok last => Mirrors tuning last (run.feedAll tuning raws) := by
  induction raws generalizing composer run with
  | nil => exact mirrors
  | cons raw raws ih =>
    rw [Composer.addTexts, Run.feedAll_cons]
    cases outcome : composer.addText raw with
    | error fault =>
      have stopped := mirrors.feed_of_error outcome
      rw [Run.feedAll_of_fault (by rw [stopped]; rfl)]
      exact stopped
    | ok next =>
      -- The number handed on is the one that the pass gives the next line.
      have count := (Run.feed_of_running mirrors.running tuning raw).1
      rw [← count]
      exact ih (mirrors.feed_of_ok fits outcome)

/-- The program of a composer is what the pass has kept, as a text and in a sink. -/
theorem Mirrors.program (fits : tuning.precision.Fits) (mirrors : Mirrors tuning composer run) :
    composer.program? = some (Run.terminated run.kept.toList) ∧
      ∀ before, composer.deliver? { written := before } =
        some ({ written := before ++ (Run.terminated run.kept.toList).toUTF8 }, none) := by
  obtain ⟨rfl, -, -, lines⟩ := mirrors
  rw [program?, composer.texts?_of_fits fits, ← lines]
  refine ⟨rfl, ?_⟩
  intro before
  rw [composer.deliver?_of_fits fits, ← lines]
  rfl

end Mirrors

/-- Adding the lines of a text one by one to a fresh composer does what a pass over the text does.
Both fail at the same line for the same reason, or neither fails; then the composer ends in the
machine that the pass ends in, and its program, as a text and in a sink that takes everything, is
the output of the pass, a lone line feed standing for no lines. -/
theorem composing_agrees (geometry : Geometry) (tuning : Tuning) (fits : tuning.precision.Fits)
    (raws : List String)
    (plain : ∀ raw ∈ raws, '\n' ∉ raw.toList ∧ raw.toList.getLast? ≠ some '\r') :
    let composing := ({ geometry, tuning } : Composer).addTexts 1 raws
    let run := tuning.run {} (Run.terminated raws)
    ((∃ composer, composing = .ok composer) ↔ run.fault = none) ∧
      (∀ number fault,
        composing = .error (number, fault) ↔ run.fault = some (.line number fault)) ∧
      ∀ composer, composing = .ok composer →
        composer.machine = run.machine ∧ composer.program? = some (Run.body run.output) ∧
          ∀ before, composer.deliver? { written := before } =
            some ({ written := before ++ (Run.body run.output).toUTF8 }, none) := by
  intro composing run
  have fed : run = Run.feedAll tuning { machine := {} } raws := by
    change tuning.runLines {} (Lines.ofString (Run.terminated raws)) = _
    rw [Run.ofString_terminated_of_plain plain]
    rfl
  have start : Mirrors tuning { geometry, tuning } { machine := {} } := ⟨rfl, rfl, rfl, rfl⟩
  have together := start.addTexts fits raws
  rw [← fed] at together
  change match composing with
    | .error (number, fault) => run.fault = some (.line number fault)
    | .ok last => Mirrors tuning last run at together
  cases outcome : composing with
  | error failure =>
    rw [outcome] at together
    have ended : run.fault = some (.line failure.1 failure.2) := together
    refine ⟨by simp [ended], ?_, nofun⟩
    intro number fault
    rw [ended, Except.error.injEq, Option.some_inj, PassFault.line.injEq, Prod.ext_iff]
  | ok composer =>
    rw [outcome] at together
    have success := together.running
    refine ⟨by simp [success], by simp [success], ?_⟩
    rintro _ ⟨⟩
    rw [Run.body_output (Tuning.of_mem_kept success)]
    exact ⟨together.machine, together.program fits⟩

/-- A repeated rate and an empty line are left out, and increments of filament are kept. -/
theorem composing_agrees_left_out :
    let raws := ["G28", "M83", "G1 X1.00049 E.5 F900", "", "G1 X1.00049 E.5 F900 ; again"]
    let composing := ({ tuning := .standard } : Composer).addTexts 1 raws
    let run := Tuning.standard.run {} (Run.terminated raws)
    Tuning.standard.precision.Fits ∧
      (∀ raw ∈ raws, '\n' ∉ raw.toList ∧ raw.toList.getLast? ≠ some '\r') ∧
      run.fault = none ∧
      ∃ composer, composing = .ok composer ∧ composer.machine = run.machine ∧
        composer.program? = some (Run.body run.output) ∧
        ∀ before, composer.deliver? { written := before } =
          some ({ written := before ++ (Run.body run.output).toUTF8 }, none) := by
  intro raws composing run
  have fits : Tuning.standard.precision.Fits := ⟨by decide, by decide, by decide⟩
  have plain : ∀ raw ∈ raws, '\n' ∉ raw.toList ∧ raw.toList.getLast? ≠ some '\r' := by
    decide +kernel
  have success : run.fault = none := by decide +kernel
  obtain ⟨both, -, same⟩ := composing_agrees {} .standard fits raws plain
  obtain ⟨composer, composed⟩ := both.mpr success
  exact ⟨fits, plain, success, composer, composed, same composer composed⟩

-- A move in relative coordinates fails in both, and of blank lines nothing is left in either.
example :
    let bad := ["G28", "G91", "G0 X1"]
    let fault := Fault.unsupported .relativeCoordinates
    (({} : Composer).addTexts 1 bad = .error (3, fault)) ∧
      (Tuning.permissive.run {} (Run.terminated bad)).fault = some (.line 3 fault) ∧
      (({} : Composer).addTexts 1 ["", " \t"]).map program? = .ok (some "") ∧
      (Tuning.permissive.run {} (Run.terminated ["", " \t"])).output = "\n" := by
  decide +kernel

end Composer

end Toolpath
