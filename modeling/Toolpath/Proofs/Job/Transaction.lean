import Mathlib
import Toolpath.Job
import Toolpath.Proofs.Job.Files
import Toolpath.Proofs.Machine.Document
import Toolpath.Proofs.Pass.Agreement
import Toolpath.Proofs.Pass.Places
import Toolpath.Proofs.Shell.Staging

/-! # A job changes its files as a whole or not at all

A job that writes a file can stop at five points before the result is in place: at the saved
machine, at the input, at the file that is set aside, in the pass, and when the result is moved. At
each of them the tree is what it was. After that only saving the machine can fail, and then the
output is complete already. The file that is set aside and the text of the saved machine are left to
libraries, of which no more is used than that they are lawful.
-/

namespace Toolpath

namespace Tuning

private theorem map_write_ne_line (fault : Option IoFault) (number : Nat) (reason : Fault) :
    fault.map PassFault.write ≠ some (.line number reason) := by
  cases fault <;> simp

private theorem fault_feed_ne_placesExceeded {tuning : Tuning} (fits : tuning.precision.Fits)
    {delivery : Delivery} {number : Nat}
    (proper : delivery.fault ≠ some (.line number .placesExceeded))
    (line : Except IoFault String) :
    (delivery.feed tuning line).fault ≠ some (.line number .placesExceeded) := by
  rw [Delivery.feed]
  split_ifs with ended
  · exact proper
  · cases line with
    | error fault => simp
    | ok raw =>
      have verdict := turn_ne_placesExceeded fits delivery.machine (delivery.count + 1) raw
      simp only
      cases outcome : (tuning.turn delivery.machine (delivery.count + 1) raw).verdict with
      | kept text => exact map_write_ne_line _ _ _
      | dropped => exact proper
      | failed fault =>
        rw [outcome] at verdict
        intro same
        obtain ⟨-, rfl⟩ := PassFault.line.inj (Option.some.inj same)
        exact verdict rfl

/-- A pass whose numbers can be written is never ended at once. -/
theorem fault_deliver_ne_placesExceeded {tuning : Tuning} (fits : tuning.precision.Fits)
    (machine : Machine) (source : Source) (sink : Sink) (number : Nat) :
    (tuning.deliver machine source sink).fault ≠ some (.line number .placesExceeded) := by
  have lines : ∀ delivery : Delivery, delivery.fault ≠ some (.line number .placesExceeded) →
      (source.foldl (Delivery.feed tuning) delivery).fault ≠
        some (.line number .placesExceeded) := by
    induction source with
    | nil => exact fun _ proper => proper
    | cons line source ih =>
      intro delivery proper
      exact ih _ (fault_feed_ne_placesExceeded fits proper line)
  have last := lines { machine, sink } (by simp)
  rw [deliver, Delivery.finish]
  split_ifs with ended
  · exact last
  · exact map_write_ne_line _ _ _
  · exact map_write_ne_line _ _ _

/-- A delivery that succeeds has been given text, and has written the output of the pass over it. -/
theorem deliver_cases {tuning : Tuning} {machine : Machine} {bytes : ByteArray}
    (success : (tuning.deliver machine (Source.ofBytes bytes) {}).fault = none) :
    ∃ text, bytes = text.toUTF8 ∧ (tuning.run machine text).fault = none ∧
      (tuning.deliver machine (Source.ofBytes bytes) {}).machine =
        (tuning.run machine text).machine ∧
      (tuning.deliver machine (Source.ofBytes bytes) {}).sink.written =
        (tuning.run machine text).output.toUTF8 := by
  cases decoded : String.fromUTF8? bytes with
  | none =>
    obtain ⟨front, bad, rest, lines, undecoded⟩ := Lines.exists_first_bad decoded
    have fault := (deliver_bad tuning machine lines undecoded .empty).2.1
    rw [success] at fault
    cases outcome : (tuning.runLines machine front).fault <;> simp [outcome] at fault
  | some text =>
    obtain rfl := eq_toUTF8_of_fromUTF8? decoded
    obtain ⟨sameMachine, sameFault, written⟩ := deliver_text tuning machine text .empty
    have finished : (tuning.run machine text).fault = none := sameFault.symm.trans success
    rw [finished] at written
    exact ⟨text, rfl, finished, sameMachine, written.trans ByteArray.empty_append⟩

end Tuning

/-- The text of a saved machine: an object with a member to a line, one for each field in order. -/
def Machine.savedText (machine : Machine) (json : JsonLibrary) : String :=
  let member (name : String) (value : Scalar) : String :=
    "  \"" ++ name ++ "\": " ++ json.text value
  "\x7b\n" ++ ",\n".intercalate [
    member "x" (.number machine.x),
    member "y" (.number machine.y),
    member "z" (.number machine.z),
    member "e" (.number machine.e),
    member "e_absolute" (.number machine.extruded),
    member "feedrate" (.number machine.feedrate),
    member "relative_extrusion" (.flag machine.relativeExtrusion),
    member "relative_coordinates" (.flag machine.relativeCoordinates),
    member "is_homed" (.flag machine.homed)] ++ "\n\x7d" ++ "\n"

/-- A library that keeps to the notation writes the text of a saved machine. -/
private theorem Machine.pretty_fields_newline {json : JsonLibrary} (keeps : json.Lawful)
    (machine : Machine) : json.pretty machine.fields ++ "\n" = machine.savedText json := by
  rw [keeps.pretty_eq _ machine.plainNames_fields (by simp [fields, Key.all])]
  rfl

namespace Job

variable {json : JsonLibrary} {staging : Staging} {job : Job} {tree : FileTree} {stdin : ByteArray}

/-- The bytes of the input as it is before a job starts. -/
def Provides (job : Job) (tree : FileTree) (stdin bytes : ByteArray) : Prop :=
  match job.input with
  | none => bytes = stdin
  | some path => tree.read path = .ok bytes

/-- A pass that a job can make: from the saved machine, over the input as it is before the job
starts. -/
def Passes (job : Job) (json : JsonLibrary) (tree : FileTree) (stdin : ByteArray) (run : Run) : Prop :=
  ∃ machine text, loadMachine json tree job.stateIn = .ok machine ∧
    job.Provides tree stdin text.toUTF8 ∧ run = job.settings.resolve.run machine text ∧
    run.fault = none

/-- Why a job stops before its result is in place. -/
inductive Stops (job : Job) (json : JsonLibrary) (staging : Staging) (tree : FileTree)
    (stdin : ByteArray) : Failure → Prop
  /-- The saved machine cannot be read. -/
  | state {failure : Failure} (failed : loadMachine json tree job.stateIn = .error failure) :
    Stops job json staging tree stdin failure
  /-- The input cannot be opened. -/
  | input {failure : Failure} {machine : Machine}
    (loaded : loadMachine json tree job.stateIn = .ok machine)
    (failed : openInput tree stdin job.input = .error failure) : Stops job json staging tree stdin failure
  /-- No file can be set aside. -/
  | staging {failure : Failure} {machine : Machine} {source : Source}
    (loaded : loadMachine json tree job.stateIn = .ok machine)
    (opened : openInput tree stdin job.input = .ok source)
    (failed : stageOutput staging tree job.output = .error failure) : Stops job json staging tree stdin failure
  /-- A line of the input cannot be read, or fails. -/
  | pass {start : Start} {fault : PassFault} (ready : job.prepare json staging tree stdin = .ok start)
    (failed : (job.settings.resolve.deliver start.machine start.source {}).fault = some fault) :
    Stops job json staging tree stdin (.ofPass fault)
  /-- The result cannot be moved into place. -/
  | move {failure : Failure} {start : Start} (ready : job.prepare json staging tree stdin = .ok start)
    (passed : (job.settings.resolve.deliver start.machine start.source {}).fault = none)
    (failed : keepOutput staging (fill start.tree start.staged
      (job.settings.resolve.deliver start.machine start.source {}).sink.written) start.staged =
        .error failure) : Stops job json staging tree stdin failure

/-- The input of a job that could open it: its bytes, or a source that fails at once. -/
theorem openInput_eq_ok {source : Source} (opened : openInput tree stdin job.input = .ok source) :
    (∃ bytes, job.Provides tree stdin bytes ∧ source = .ofBytes bytes) ∨
      source = .failing .isADirectory := by
  simp only [Provides]
  cases input : job.input with
  | none =>
    rw [input] at opened
    exact .inl ⟨stdin, rfl, (Except.ok.inj opened).symm⟩
  | some path =>
    rw [input, openInput] at opened
    cases found : tree.find path with
    | error fault =>
      rw [found] at opened
      contradiction
    | ok node =>
      rw [found] at opened
      cases node with
      | directory => exact .inr (Except.ok.inj opened).symm
      | file content =>
        refine .inl ⟨content, ?_, (Except.ok.inj opened).symm⟩
        simp [FileTree.read, found, bind, Except.bind]

/-- A pass that succeeds was made over the input as text. -/
private theorem passes_of_deliver {machine : Machine} {source : Source}
    (loaded : loadMachine json tree job.stateIn = .ok machine)
    (opened : openInput tree stdin job.input = .ok source)
    (success : (job.settings.resolve.deliver machine source {}).fault = none) :
    ∃ run, job.Passes json tree stdin run ∧
      (job.settings.resolve.deliver machine source {}).machine = run.machine ∧
      (job.settings.resolve.deliver machine source {}).sink.written = run.output.toUTF8 := by
  rcases openInput_eq_ok opened with ⟨bytes, provides, rfl⟩ | rfl
  · obtain ⟨text, rfl, finished, sameMachine, written⟩ := Tuning.deliver_cases success
    exact ⟨_, ⟨machine, text, loaded, provides, rfl, finished⟩, sameMachine, written⟩
  · contradiction

/-- A job that is not ready stops there. -/
private theorem stops_of_prepare {failure : Failure}
    (failed : job.prepare json staging tree stdin = .error failure) : job.Stops json staging tree stdin failure := by
  rw [prepare] at failed
  cases loaded : loadMachine json tree job.stateIn with
  | error reason =>
    rw [loaded] at failed
    obtain rfl := Except.error.inj failed
    exact .state loaded
  | ok machine =>
    cases opened : openInput tree stdin job.input with
    | error reason =>
      rw [loaded, opened] at failed
      obtain rfl := Except.error.inj failed
      exact .input loaded opened
    | ok source =>
      cases staged : stageOutput staging tree job.output with
      | error reason =>
        rw [loaded, opened, staged] at failed
        obtain rfl := Except.error.inj failed
        exact .staging loaded opened staged
      | ok made =>
        rw [loaded, opened, staged] at failed
        contradiction

section Output

variable (lawful : staging.Lawful) {path : String} (output : job.output = some path)
include lawful output

/-- A job that is ready has set an empty file aside where nothing stood. -/
private theorem prepare_eq_ok {start : Start} (ready : job.prepare json staging tree stdin = .ok start) :
    loadMachine json tree job.stateIn = .ok start.machine ∧
      openInput tree stdin job.input = .ok start.source ∧
      ∃ place, place ≠ [] ∧ tree.get? place = none ∧ start.staged = some ⟨place, path⟩ ∧
        start.tree = tree.put place (.file .empty) := by
  rw [prepare, output] at ready
  cases loaded : loadMachine json tree job.stateIn with
  | error failure =>
    rw [loaded] at ready
    contradiction
  | ok machine =>
    cases opened : openInput tree stdin job.input with
    | error failure =>
      rw [loaded, opened] at ready
      contradiction
    | ok source =>
      rw [loaded, opened, stageOutput] at ready
      cases staged : staging.create tree (FileTree.directoryOf path) with
      | error fault =>
        rw [staged] at ready
        contradiction
      | ok made =>
        obtain ⟨place, after⟩ := made
        rw [staged] at ready
        obtain ⟨inside, free, rfl⟩ := lawful.create_cases staged
        obtain rfl := Except.ok.inj ready
        exact ⟨rfl, rfl, place, inside, free, rfl, rfl⟩

/-- Taking away the file that was set aside, whatever was written to it, leaves the tree as it was. -/
private theorem discard_fill {start : Start} (ready : job.prepare json staging tree stdin = .ok start)
    (content : ByteArray) :
    discard staging (fill start.tree start.staged content) start.staged = tree := by
  obtain ⟨-, -, place, inside, free, staged, same⟩ := prepare_eq_ok lawful output ready
  rw [staged, same]
  change staging.drop ((tree.put place (.file .empty)).put place (.file content)) place = tree
  rw [lawful.drop_eq, FileTree.put_put, FileTree.erase_put inside free]

/-- A result that could be moved stands where the output path lands, and nothing else changed. -/
private theorem keepOutput_fill {start : Start} (ready : job.prepare json staging tree stdin = .ok start)
    {content : ByteArray} {after : FileTree}
    (moved : keepOutput staging (fill start.tree start.staged content) start.staged = .ok after) :
    ∃ place, tree.Lands path place ∧ after = tree.put place (.file content) := by
  obtain ⟨-, -, place, inside, free, staged, same⟩ := prepare_eq_ok lawful output ready
  simp only [staged, same, fill, Option.elim_some, FileTree.put_put, keepOutput,
    lawful.persist_eq, FileTree.rename_staged inside free] at moved
  cases replaced : tree.replace path content with
  | error fault =>
    rw [replaced] at moved
    contradiction
  | ok last =>
    rw [replaced] at moved
    obtain rfl := Except.ok.inj moved
    exact FileTree.replace_eq_ok_iff.mp replaced

/-- A job that stops before its result is in place fails, and leaves the tree as it was. -/
theorem Stops.execute (fits : job.settings.resolve.precision.Fits) {failure : Failure}
    (stops : job.Stops json staging tree stdin failure) :
    (job.execute json staging tree stdin).ending = .failed failure ∧
      (job.execute json staging tree stdin).tree = tree := by
  cases stops with
  | state failed => simp [Job.execute, prepare, failed, bind, Except.bind]
  | input loaded failed => simp [Job.execute, prepare, loaded, failed, bind, Except.bind]
  | staging loaded opened failed =>
    simp [Job.execute, prepare, loaded, opened, failed, bind, Except.bind]
  | @pass start fault ready failed =>
    have proper := Tuning.fault_deliver_ne_placesExceeded fits start.machine start.source {}
    have discarded := discard_fill lawful output ready
    rw [failed] at proper
    rw [Job.execute, ready]
    simp only [failed]
    cases fault with
    | line number reason =>
      cases reason with
      | placesExceeded => exact absurd rfl (proper number)
      | unreadable _ | unsupported _ | unknownCommand _ => exact ⟨rfl, discarded _⟩
    | read _ _ | write _ => exact ⟨rfl, discarded _⟩
  | move ready passed failed =>
    rw [Job.execute, ready]
    simp only [passed, conclude, failed, discard_fill lawful output ready, and_self]

/-- A job stops, or it puts its result where the output path lands and then saves the machine. -/
private theorem execute_cases :
    (∃ failure, job.Stops json staging tree stdin failure) ∨
      ∃ run place, job.Passes json tree stdin run ∧ tree.Lands path place ∧
        match keepMachine json (tree.put place (.file run.output.toUTF8)) run.machine job.stateOut with
        | .ok last => (job.execute json staging tree stdin).ending = .done ∧ (job.execute json staging tree stdin).tree = last
        | .error failure => (job.execute json staging tree stdin).ending = .failed failure ∧
            (job.execute json staging tree stdin).tree = tree.put place (.file run.output.toUTF8) := by
  cases ready : job.prepare json staging tree stdin with
  | error failure => exact .inl ⟨failure, stops_of_prepare ready⟩
  | ok start =>
    cases passed : (job.settings.resolve.deliver start.machine start.source {}).fault with
    | some fault => exact .inl ⟨_, .pass ready passed⟩
    | none =>
      cases moved : keepOutput staging (fill start.tree start.staged
          (job.settings.resolve.deliver start.machine start.source {}).sink.written)
          start.staged with
      | error failure => exact .inl ⟨_, .move ready passed moved⟩
      | ok after =>
        obtain ⟨loaded, opened, -⟩ := prepare_eq_ok lawful output ready
        obtain ⟨run, passes, sameMachine, written⟩ := passes_of_deliver loaded opened passed
        obtain ⟨place, lands, placed⟩ := keepOutput_fill lawful output ready moved
        rw [written] at placed
        refine .inr ⟨run, place, passes, lands, ?_⟩
        rw [execute, ready, ← placed, ← sameMachine]
        simp only [passed, conclude, moved]
        cases keepMachine json after _ job.stateOut with
        | error failure => exact ⟨rfl, rfl⟩
        | ok last => exact ⟨rfl, rfl⟩

end Output

/-- A result in place: the output file holds the whole output of the pass, and nothing changed but
the files that the given paths land at. -/
structure Holds (tree : FileTree) (path : String) (run : Run) (changed : List String)
    (after : FileTree) : Prop where
  output : after.read path = .ok run.output.toUTF8
  others : ∀ place, (∀ path ∈ changed, ¬ tree.Lands path place) → after.get? place = tree.get? place

/-- A result that is put where the output path lands is in place. -/
private theorem holds_put {path : String} {place : Place} (lands : tree.Lands path place)
    (run : Run) :
    Holds tree path run [path] (tree.put place (.file run.output.toUTF8)) := by
  constructor
  · apply (lands.put run.output.toUTF8 lands).read
    rw [FileTree.get?_put lands.inside, if_pos rfl]
  · intro other apart
    rw [FileTree.get?_put lands.inside, if_neg]
    rintro rfl
    exact apart path (List.mem_singleton_self path) lands

/-- Saving the machine in another file leaves the result in place. -/
private theorem holds_put_put {path state : String} {place there : Place}
    (lands : tree.Lands path place) (stateLands : tree.Lands state there) (apart : place ≠ there)
    (run : Run) (content : ByteArray) :
    let after := (tree.put place (.file run.output.toUTF8)).put there (.file content)
    Holds tree path run [path, state] after ∧ after.read state = .ok content := by
  intro after
  have second := lands.put run.output.toUTF8 stateLands
  have found (other : Place) : after.get? other =
      if other = there then some (.file content)
      else if other = place then some (.file run.output.toUTF8) else tree.get? other := by
    rw [FileTree.get?_put stateLands.inside, FileTree.get?_put lands.inside]
  refine ⟨⟨?_, ?_⟩, ?_⟩
  · apply (second.put content (lands.put run.output.toUTF8 lands)).read
    rw [found, if_neg apart, if_pos rfl]
  · intro other unchanged
    have elsewhere : other ≠ there := by
      rintro rfl
      exact unchanged state (by simp) stateLands
    have notOutput : other ≠ place := by
      rintro rfl
      exact unchanged path (by simp) lands
    rw [found, if_neg elsewhere, if_neg notOutput]
  · apply (second.put content second).read
    rw [found, if_pos rfl]

/-- A job that writes a file, with numbers that can be written and a machine that is saved in
another file. Where it stops before the result is in place, it fails and the tree is what it was.
Where it succeeds, the output file holds the output of the pass over the input as it was at the
start, the saved machine is the one after the pass, field by field, and nothing else has changed. It
fails in no other way than that the machine cannot be saved, and then the output file is complete
and nothing else has changed. -/
theorem execute_transactional (json : JsonLibrary) (keeps : json.Lawful) (staging : Staging)
    (lawful : staging.Lawful) {path : String} (output : job.output = some path)
    (fits : job.settings.resolve.precision.Fits)
    (apart : ∀ state ∈ job.stateOut, ∀ place, tree.Lands path place → ¬ tree.Lands state place) :
    let outcome := job.execute json staging tree stdin
    (∀ failure, job.Stops json staging tree stdin failure →
      outcome.ending = .failed failure ∧ outcome.tree = tree) ∧
    (outcome.ending = .done → ∃ run, job.Passes json tree stdin run ∧
      Holds tree path run (path :: job.stateOut.toList) outcome.tree ∧
      ∀ state ∈ job.stateOut,
        outcome.tree.read state = .ok (run.machine.savedText json).toUTF8) ∧
    (∀ failure, outcome.ending = .failed failure → job.Stops json staging tree stdin failure ∨
      ∃ run state fault, job.Passes json tree stdin run ∧ job.stateOut = some state ∧
        outcome.tree.write state (run.machine.savedText json).toUTF8 = .error fault ∧
        failure = ⟨"Failed to write state file " ++ state, [.io fault]⟩ ∧
        Holds tree path run [path] outcome.tree) ∧
    outcome.ending ≠ .aborted := by
  intro outcome
  refine ⟨fun failure stops => stops.execute lawful output fits, ?_⟩
  obtain ⟨failure, stops⟩ | ⟨run, place, passes, lands, ended⟩ :=
    @execute_cases json staging job tree stdin lawful path output
  · obtain ⟨ending, -⟩ := stops.execute lawful output fits
    rw [show outcome.ending = _ from ending]
    refine ⟨nofun, ?_, nofun⟩
    rintro _ ⟨rfl⟩
    exact .inl stops
  · cases stateOut : job.stateOut with
    | none =>
      rw [stateOut] at ended
      obtain ⟨ending, last⟩ := ended
      rw [show outcome.ending = _ from ending, show outcome.tree = _ from last]
      exact ⟨fun _ => ⟨run, passes, holds_put lands run, nofun⟩, nofun, nofun⟩
    | some state =>
      rw [stateOut, keepMachine, run.machine.pretty_fields_newline keeps] at ended
      cases saved : (tree.put place (.file run.output.toUTF8)).write state
          (run.machine.savedText json).toUTF8 with
      | error fault =>
        rw [saved] at ended
        obtain ⟨ending, last⟩ := ended
        rw [show outcome.ending = _ from ending, show outcome.tree = _ from last]
        refine ⟨nofun, ?_, nofun⟩
        rintro _ ⟨rfl⟩
        exact .inr ⟨run, state, fault, passes, rfl, saved, rfl, holds_put lands run⟩
      | ok after =>
        rw [saved] at ended
        obtain ⟨ending, last⟩ := ended
        obtain ⟨there, stateLands, placed⟩ := FileTree.write_eq_ok_iff.mp saved
        have original : tree.Lands state there :=
          (FileTree.sameDirectories_put lands.inside lands.free _).symm.lands stateLands
        have elsewhere : place ≠ there := by
          rintro rfl
          exact apart state stateOut place lands original
        obtain ⟨holds, read⟩ := holds_put_put lands original elsewhere run
          (run.machine.savedText json).toUTF8
        rw [← placed] at holds read
        rw [show outcome.ending = _ from ending, show outcome.tree = _ from last]
        refine ⟨fun _ => ⟨run, passes, holds, ?_⟩, nofun, nofun⟩
        rintro _ ⟨rfl⟩
        exact read

/-- A program is reduced in its own file and the machine saved beside it; a program whose first line
is refused leaves the file that it was to replace. -/
theorem execute_transactional_in_place :
    let tree : FileTree :=
      { entries := [(["w"], .directory), (["w", "a.gcode"], .file "G28\nG1 X1\nG1 X1\n".toUTF8),
          (["w", "b.gcode"], .file "G1 X1\n".toUTF8)]
        workingDirectory := ["w"] }
    let job : Job :=
      { input := some "a.gcode", output := some "a.gcode", stateOut := some "s.json" }
    let broken : Job := { input := some "b.gcode", output := some "a.gcode" }
    let outcome := job.execute .precise .numbered tree .empty
    let refused := broken.execute .precise .numbered tree .empty
    (outcome.ending = .done ∧
      ∃ run, job.Passes .precise tree .empty run ∧
        Holds tree "a.gcode" run ["a.gcode", "s.json"] outcome.tree ∧
        outcome.tree.read "s.json" = .ok (run.machine.savedText .precise).toUTF8) ∧
      refused.ending = .failed (.ofPass (.line 1 (.unsupported .notHomed))) ∧
      refused.tree = tree := by
  intro tree job broken outcome refused
  have fits : (Settings.resolve {}).precision.Fits := ⟨by decide, by decide, by decide⟩
  have program : tree.target "a.gcode" = .ok (.entry ["w"] "a.gcode" false) := by decide +kernel
  have state : tree.target "s.json" = .ok (.entry ["w"] "s.json" false) := by decide +kernel
  have apart : ∀ path ∈ job.stateOut, ∀ place, tree.Lands "a.gcode" place →
      ¬ tree.Lands path place := by
    rintro _ ⟨rfl⟩ place lands stateLands
    have same := (lands.eq_of_target program).symm.trans (stateLands.eq_of_target state)
    exact absurd same (by decide)
  have done : outcome.ending = .done := by decide +kernel
  have failed : refused.ending = .failed (.ofPass (.line 1 (.unsupported .notHomed))) := by
    decide +kernel
  refine ⟨⟨done, ?_⟩, failed, ?_⟩
  · obtain ⟨run, passes, holds, saved⟩ := (@execute_transactional job tree .empty .precise
      JsonLibrary.lawful_precise .numbered Staging.lawful_numbered "a.gcode" rfl fits apart).2.1 done
    exact ⟨run, passes, holds, saved "s.json" rfl⟩
  · obtain ⟨stopped, -, stops, -⟩ := @execute_transactional broken tree .empty .precise
      JsonLibrary.lawful_precise .numbered Staging.lawful_numbered "a.gcode" rfl fits nofun
    obtain early | ⟨_, state, _, _, saves, _⟩ := stops _ failed
    · exact (stopped _ early).2
    · exact absurd saves nofun

end Job

end Toolpath
