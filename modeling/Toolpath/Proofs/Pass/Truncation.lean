import Mathlib
import Toolpath.Pass.Stream
import Toolpath.Proofs.Pass.Composing

/-! # What a sink that fails receives

A pass into a sink that may fail gives it as much as fits of what a sink that never fails receives,
and the pass ends as it would end anyway or, if something did not fit, with the failure of the sink.
This holds after every line, for both passes stand at the same line until something does not fit.
The same holds for a composer that writes its program.
-/

namespace Toolpath

namespace Delivery

variable (tuning : Tuning) {sink : Sink} {whole cut : Delivery}

/-- A delivery beside one into a sink that never fails, whose bytes it writes to a sink of its own.
As long as they fit both stand at the same line; after that it has ended with the failure of its
sink. -/
inductive Beside (sink : Sink) (whole : Delivery) : Delivery → Prop
  | together {written : ByteArray} {after : Sink} (holds : whole.sink = { written })
    (fitted : sink.write written = (after, none)) : Beside sink whole { whole with sink := after }
  | ended {cut : Delivery} {written : ByteArray} {fault : IoFault}
    (holds : whole.sink = { written }) (failed : sink.write written = (cut.sink, some fault))
    (reported : cut.fault = some (.write fault)) : Beside sink whole cut

theorem beside_start (machine : Machine) (sink : Sink) :
    Beside sink { machine, sink := {} } { machine, sink } :=
  .together rfl sink.write_empty

/-- Deliveries that stand at the same line and write the same line stay beside each other. -/
theorem beside_writeLine {written : ByteArray} {after : Sink}
    (fitted : sink.write written = (after, none)) (next : Delivery) (text : String) :
    Beside sink
      { next with sink := { written := written ++ (text ++ "\n").toUTF8 }, fault := none }
      { next with
        sink := (after.writeLine text).1
        fault := (after.writeLine text).2.map .write } := by
  have through : sink.write (written ++ (text ++ "\n").toUTF8) = after.writeLine text := by
    rw [Sink.write_append, fitted]
    rfl
  cases outcome : after.writeLine text with
  | mk last fault =>
    rw [outcome] at through
    cases fault with
    | none => exact .together rfl through
    | some fault => exact .ended rfl through rfl

/-- A line adds bytes to what a sink without a limit holds. -/
theorem exists_sink_feed {written : ByteArray} (holds : whole.sink = { written })
    (line : Except IoFault String) :
    ∃ more, (whole.feed tuning line).sink = { written := written ++ more } := by
  have unchanged : whole.sink = { written := written ++ .empty } := by
    rw [ByteArray.append_empty, holds]
  rw [feed]
  split_ifs
  · exact ⟨.empty, unchanged⟩
  · cases line with
    | error fault => exact ⟨.empty, unchanged⟩
    | ok raw =>
      simp only
      cases (tuning.turn whole.machine (whole.count + 1) raw).verdict with
      | kept text =>
        refine ⟨(text ++ "\n").toUTF8, ?_⟩
        simp only [holds, Sink.writeLine_unlimited]
      | dropped | failed fault => exact ⟨.empty, unchanged⟩

/-- Taking one more line keeps the deliveries beside each other. -/
theorem Beside.feed (beside : Beside sink whole cut) (line : Except IoFault String) :
    Beside sink (whole.feed tuning line) (cut.feed tuning line) := by
  cases beside with
  | ended holds failed reported =>
    obtain ⟨more, grows⟩ := exists_sink_feed tuning holds line
    have stays : cut.feed tuning line = cut := if_pos (by rw [reported]; rfl)
    rw [stays]
    exact .ended grows (by rw [Sink.write_append, failed]) reported
  | @together written after holds fitted =>
    rw [Delivery.feed, Delivery.feed]
    split_ifs with ended
    · exact .together holds fitted
    · cases line with
      | error fault => exact .together holds fitted
      | ok raw =>
        let turn := tuning.turn whole.machine (whole.count + 1) raw
        simp only
        cases turn.verdict with
        | kept text =>
          simp only [holds, Sink.writeLine_unlimited]
          exact beside_writeLine fitted { whole with
            machine := turn.machine, count := whole.count + 1, wroteAny := true
            notes := whole.notes ++ turn.notes } text
        | dropped | failed fault => exact .together holds fitted

theorem Beside.feedAll (beside : Beside sink whole cut) (source : Source) :
    Beside sink (source.foldl (Delivery.feed tuning) whole)
      (source.foldl (Delivery.feed tuning) cut) := by
  induction source generalizing whole cut with
  | nil => exact beside
  | cons line source ih => exact ih (beside.feed tuning line)

/-- A pass at its end, with the line feed that stands for no lines. -/
def close (delivery : Delivery) : Delivery :=
  if delivery.fault.isSome || delivery.wroteAny then delivery
  else
    { delivery with
      sink := (delivery.sink.writeLine "").1
      fault := (delivery.sink.writeLine "").2.map .write }

/-- Ending a pass is writing what is left to write and completing the output. -/
theorem finish_eq (delivery : Delivery) :
    delivery.finish = { delivery.close with
      fault := delivery.close.fault.or (delivery.close.sink.flushFault.map .write) } := by
  obtain ⟨machine, sink, count, wroteAny, notes, fault⟩ := delivery
  cases fault with
  | some reason => rfl
  | none =>
    cases wroteAny with
    | true => rfl
    | false =>
      simp only [finish, close, Option.isSome_none, Bool.false_eq_true, if_false, Bool.or_self]
      cases (sink.writeLine "").2 <;> rfl

/-- What is left to write adds bytes to what a sink without a limit holds. -/
theorem exists_sink_close {written : ByteArray} (holds : whole.sink = { written }) :
    ∃ more, whole.close.sink = { written := written ++ more } := by
  rw [close]
  split_ifs
  · exact ⟨.empty, by rw [ByteArray.append_empty, holds]⟩
  · exact ⟨_, by rw [holds, Sink.writeLine_unlimited]⟩

/-- Writing what is left to write keeps the deliveries beside each other. -/
theorem Beside.close (beside : Beside sink whole cut) : Beside sink whole.close cut.close := by
  cases beside with
  | ended holds failed reported =>
    obtain ⟨more, grows⟩ := exists_sink_close holds
    have stays : cut.close = cut := if_pos (by rw [reported]; rfl)
    rw [stays]
    exact .ended grows (by rw [Sink.write_append, failed]) reported
  | @together written after holds fitted =>
    rw [Delivery.close, Delivery.close]
    split_ifs
    · exact .together holds fitted
    · rw [holds, Sink.writeLine_unlimited]
      exact beside_writeLine fitted whole ""

end Delivery

/-- A delivery into any sink is told by one into a sink that never fails. What that one has written
is written to the sink. If all of it fits, the delivery ends like the other one, except that the
output may not be completed; otherwise it ends with the failure of the sink. -/
theorem Tuning.deliver_eq (tuning : Tuning) (machine : Machine) (source : Source) (sink : Sink) :
    let whole := tuning.deliver machine source {}
    let cut := tuning.deliver machine source sink
    match sink.write whole.sink.written with
    | (after, none) =>
      cut = { whole with sink := after, fault := whole.fault.or (sink.flushFault.map .write) }
    | (after, some fault) => cut.sink = after ∧ cut.fault = some (.write fault) := by
  have beside := ((Delivery.beside_start machine sink).feedAll tuning source).close
  simp only [deliver, Delivery.finish_eq]
  generalize (source.foldl (Delivery.feed tuning) { machine, sink := {} }).close = whole at *
  generalize (source.foldl (Delivery.feed tuning) { machine, sink }).close = cut at *
  cases beside with
  | @together written after holds fitted =>
    have flush : after.flushFault = sink.flushFault := by
      rw [← sink.flushFault_write written, fitted]
    simp [holds, fitted, flush]
  | ended holds failed reported => simp [holds, failed, reported]

namespace Sink

/-- A sink that fails receives the front of what one that never fails receives, and nothing else.
With room for some bytes it takes the first ones up to that number; if these are all, the pass ends
as it would end anyway, and otherwise with the failure of the sink, which belongs to no line. If
only the output cannot be completed, it takes everything, and that is the failure of a pass that
would have succeeded. The same holds for a composer that writes its program. -/
theorem failure_truncates :
    (∀ (tuning : Tuning) (machine : Machine) (source : Source),
      let whole := tuning.deliver machine source {}
      (∀ room fault,
        let cut := tuning.deliver machine source { limit := some (room, fault) }
        cut.sink.written = whole.sink.written.extract 0 room ∧
          if whole.sink.written.size ≤ room then cut = { whole with sink := cut.sink }
          else cut.fault = some (.write fault) ∧ cut.fault.bind PassFault.lineNumber? = none) ∧
      ∀ fault,
        let cut := tuning.deliver machine source { flushFault := some fault }
        cut.sink.written = whole.sink.written ∧
          cut = { whole with
            sink := cut.sink, fault := some (whole.fault.getD (.write fault)) }) ∧
    ∀ composer : Composer, composer.tuning.precision.Fits →
      ∃ program, composer.program? = some program ∧
        (∀ room fault, ∃ after,
          composer.deliver? { limit := some (room, fault) } =
              some (after, if program.toUTF8.size ≤ room then none else some fault) ∧
            after.written = program.toUTF8.extract 0 room) ∧
        ∀ fault, ∃ after,
          composer.deliver? { flushFault := some fault } = some (after, some fault) ∧
            after.written = program.toUTF8 := by
  refine ⟨?_, ?_⟩
  · intro tuning machine source whole
    refine ⟨?_, ?_⟩
    · intro room fault cut
      have told := tuning.deliver_eq machine source { limit := some (room, fault) }
      change match Sink.write _ whole.sink.written with
        | (after, none) => cut = { whole with sink := after, fault := whole.fault.or none }
        | (after, some fault) => cut.sink = after ∧ cut.fault = some (.write fault) at told
      rw [write_of_limit rfl, Option.or_none] at told
      split_ifs at told ⊢ with fits
      · rw [told]
        exact ⟨ByteArray.empty_append, rfl⟩
      · obtain ⟨filled, reported⟩ := told
        rw [filled, reported]
        exact ⟨ByteArray.empty_append, rfl, rfl⟩
    · intro fault cut
      have told := tuning.deliver_eq machine source { flushFault := some fault }
      change cut = { whole with
        sink := { written := .empty ++ whole.sink.written, flushFault := some fault }
        fault := whole.fault.or (some (.write fault)) } at told
      rw [told]
      refine ⟨ByteArray.empty_append, ?_⟩
      cases whole.fault <;> rfl
  · intro composer fits
    rw [Composer.program?, composer.texts?_of_fits fits]
    refine ⟨_, rfl, ?_, ?_⟩
    · intro room fault
      rw [composer.deliver?_of_fits fits, write_of_limit rfl]
      split_ifs <;> exact ⟨_, rfl, ByteArray.empty_append⟩
    · intro fault
      rw [composer.deliver?_of_fits fits]
      exact ⟨_, rfl, ByteArray.empty_append⟩

/-- A program whose third line cannot be read: with room for what comes before it that line is
reported, with less room the failure of the sink is, here within the second line. -/
theorem failure_truncates_before_fault :
    let source := Source.ofBytes "G28\nG1 X1\nG1 Xa\n".toUTF8
    let bad := PassFault.line 3 (.unreadable (.invalidNumber 'X' "Xa"))
    let full := IoFault.device "full"
    let composer : Composer := { tuning := .standard, lines := #[.ofCommand .home] }
    (Tuning.standard.deliver {} source {}).sink.written = "G28\nG1 X1\n".toUTF8 ∧
      (Tuning.standard.deliver {} source { limit := some (10, full) }).fault = some bad ∧
      (Tuning.standard.deliver {} source { limit := some (5, full) }).sink.written =
        "G28\nG".toUTF8 ∧
      (Tuning.standard.deliver {} source { limit := some (5, full) }).fault = some (.write full) ∧
      (Tuning.standard.deliver {} source { flushFault := some full }).fault = some bad ∧
      composer.tuning.precision.Fits ∧
      ∃ after, composer.deliver? { limit := some (3, full) } = some (after, some full) ∧
        after.written = "G28".toUTF8 := by
  intro source bad full composer
  have fits : composer.tuning.precision.Fits := ⟨by decide, by decide, by decide⟩
  have written : (Tuning.standard.deliver {} source {}).sink.written = "G28\nG1 X1\n".toUTF8 := by
    decide +kernel
  have reported : (Tuning.standard.deliver {} source {}).fault = some bad := by decide +kernel
  have size : ("G28\nG1 X1\n".toUTF8).size = 10 := by decide +kernel
  obtain ⟨limited, unfinished⟩ := failure_truncates.1 .standard {} source
  obtain ⟨program, spelt, composed, -⟩ := failure_truncates.2 composer fits
  obtain rfl : program = "G28\n" := Option.some.inj (spelt.symm.trans (by decide +kernel))
  obtain ⟨after, outcome, taken⟩ := composed 3 full
  -- From here on only what has been said about the deliveries counts, not how they come about.
  generalize Tuning.standard.deliver {} source = deliver at *
  have roomy := (limited 10 full).2
  obtain ⟨front, tight⟩ := limited 5 full
  simp only [written, size, Nat.le_refl, if_true, Nat.reduceLeDiff, if_false] at front roomy tight
  refine ⟨written, ?_, ?_, tight.1, ?_, fits, after, outcome, taken.trans (by decide +kernel)⟩
  · rw [roomy, reported]
  · rw [front]
    decide +kernel
  · rw [(unfinished full).2, reported]
    rfl

end Sink

end Toolpath
