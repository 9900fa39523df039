import Mathlib
import Toolpath.Pass.Stream
import Toolpath.Proofs.Pass.Survivors
import Toolpath.Proofs.Text.Encoding

/-! # A pass over bytes does what a pass over text does

With a sink that never fails, delivering lines one by one and collecting them make the same
decisions. On bytes that are text both passes end alike and give the same bytes. On other bytes the
delivery does what the pass over the lines before the first undecodable one does, and ends at that
line unless it has ended before. A pass that ends early has kept what the lines before that line
leave, and nothing else.
-/

namespace Toolpath

namespace Delivery

/-- A delivery into a sink without limits that stands where a pass stands. -/
structure Mirrors (before : ByteArray) (delivery : Delivery) (run : Run) : Prop where
  machine : delivery.machine = run.machine
  count : delivery.count = run.count
  fault : delivery.fault = run.fault
  wroteAny : delivery.wroteAny = !run.kept.isEmpty
  sink : delivery.sink = { written := before ++ (Run.terminated run.kept.toList).toUTF8 }

variable (tuning : Tuning) {before : ByteArray} {delivery : Delivery} {run : Run}

theorem mirrors_start (before : ByteArray) (machine : Machine) :
    Mirrors before { machine, sink := { written := before } } { machine } :=
  ⟨rfl, rfl, rfl, rfl, by simp [Run.terminated]⟩

/-- Taking one more line keeps a delivery and a pass together. -/
theorem Mirrors.feed (mirrors : Mirrors before delivery run) (raw : String) :
    Mirrors before (delivery.feed tuning (.ok raw)) (run.feed tuning raw) := by
  obtain ⟨machine, count, fault, wroteAny, sink⟩ := mirrors
  rw [Delivery.feed, Run.feed, fault]
  by_cases ended : run.fault.isSome = true
  · rw [if_pos ended, if_pos ended]
    exact ⟨machine, count, fault, wroteAny, sink⟩
  · rw [if_neg ended, if_neg ended, machine, count]
    simp only
    cases verdict : (tuning.turn run.machine (run.count + 1) raw).verdict with
    | kept text =>
      simp only [sink, Sink.writeLine, Sink.write]
      refine ⟨rfl, rfl, ?_, ?_, ?_⟩
      · exact (show run.fault = none by simpa using ended).symm
      · simp
      · simp [Run.terminated_append, ByteArray.append_assoc]
    | dropped => exact ⟨rfl, rfl, rfl, wroteAny, sink⟩
    | failed fault => exact ⟨rfl, rfl, rfl, wroteAny, sink⟩

theorem Mirrors.feedAll (mirrors : Mirrors before delivery run) (texts : List String) :
    Mirrors before ((texts.map Except.ok).foldl (Delivery.feed tuning) delivery)
      (run.feedAll tuning texts) := by
  induction texts generalizing delivery run with
  | nil => exact mirrors
  | cons text texts ih => exact ih (mirrors.feed tuning text)

/-- A delivery that has ended early takes no more lines. -/
theorem foldl_of_fault (ended : delivery.fault.isSome = true) (source : Source) :
    source.foldl (Delivery.feed tuning) delivery = delivery := by
  induction source with
  | nil => rfl
  | cons line source ih => rw [List.foldl_cons, Delivery.feed, if_pos ended, ih]

/-- A line that is not text ends a delivery that has not ended before. -/
theorem Mirrors.foldl_bad (mirrors : Mirrors before delivery run) (fault : IoFault)
    (rest : Source) :
    let last := (Except.error fault :: rest).foldl (Delivery.feed tuning) delivery
    last.machine = run.machine ∧ last.fault = run.fault.or (some (.read (run.count + 1) fault)) ∧
      last.sink.written = before ++ (Run.terminated run.kept.toList).toUTF8 := by
  intro last
  have written := congrArg Sink.written mirrors.sink
  cases outcome : run.fault with
  | some reason =>
    have ended : delivery.fault = some reason := mirrors.fault.trans outcome
    have same : last = delivery := foldl_of_fault tuning (by rw [ended]; rfl) _
    rw [same]
    exact ⟨mirrors.machine, ended, written⟩
  | none =>
    have running : ¬ delivery.fault.isSome = true := by simp [mirrors.fault, outcome]
    have fed : delivery.feed tuning (.error fault) = { delivery with
        count := delivery.count + 1
        fault := some (.read (delivery.count + 1) fault) } := if_neg running
    have same : last = delivery.feed tuning (.error fault) :=
      foldl_of_fault tuning (by rw [fed]; rfl) rest
    rw [same, fed]
    refine ⟨mirrors.machine, ?_, written⟩
    rw [mirrors.count]
    rfl

/-- Ending a delivery adds what a pass without lines has for an output. -/
theorem Mirrors.finish (mirrors : Mirrors before delivery run) :
    delivery.finish.machine = run.machine ∧ delivery.finish.fault = run.fault ∧
      delivery.finish.sink.written = before ++
        (if run.fault.isNone then run.output else Run.terminated run.kept.toList).toUTF8 := by
  obtain ⟨machine, -, fault, wroteAny, sink⟩ := mirrors
  rw [Delivery.finish, fault]
  cases outcome : run.fault with
  | some reason => exact ⟨machine, fault.trans outcome, congrArg Sink.written sink⟩
  | none =>
    cases empty : run.kept.isEmpty with
    | true =>
      have nothing : run.kept.toList = [] := by simpa using empty
      simp [wroteAny, empty, sink, machine, Sink.writeLine, Sink.write, Run.output, nothing,
        Run.terminated]
    | false => simp [wroteAny, empty, sink, machine, Run.output]

end Delivery

namespace Tuning

variable {tuning : Tuning} {machine : Machine} {raws : List String}

/-- The texts that lines leave behind: all of them are read and reduced in order, and those that are
not empty are written. -/
def Leaves (tuning : Tuning) (machine : Machine) (raws texts : List String) : Prop :=
  ∃ lines kept after, Line.Reads raws lines ∧ tuning.reduceAll machine lines = .ok (after, kept) ∧
    texts = survivingTexts tuning.precision kept

/-- A fault at one of the lines, and the texts that the lines before it leave behind. -/
def StopsAt (tuning : Tuning) (machine : Machine) (raws : List String) (fault : PassFault)
    (texts : List String) : Prop :=
  ∃ front raw back reason, raws = front ++ raw :: back ∧
    fault = .line (front.length + 1) reason ∧ tuning.Leaves machine front texts

theorem leaves_of_runLines (success : (tuning.runLines machine raws).fault = none) :
    tuning.Leaves machine raws (tuning.runLines machine raws).kept.toList := by
  obtain ⟨lines, kept, reads, reduced, texts⟩ := runLines_cases success
  exact ⟨lines, kept, _, reads, reduced, texts⟩

theorem stopsAt_of_runLines {fault : PassFault}
    (ended : (tuning.runLines machine raws).fault = some fault) :
    tuning.StopsAt machine raws fault (tuning.runLines machine raws).kept.toList := by
  obtain ⟨front, raw, back, reason, shape, same, success, kept, -⟩ := Run.feedAll_stops rfl ended
  refine ⟨front, raw, back, reason, shape, ?_, ?_⟩
  · rw [same, Nat.zero_add]
  · rw [runLines, kept]
    exact leaves_of_runLines success

/-- The lines that text is decoded as are the text. -/
private theorem map_decode_toUTF8 (texts : List String) :
    (texts.map String.toUTF8).map Source.decode = texts.map Except.ok := by
  rw [List.map_map]
  apply List.map_congr_left
  intro text _
  rw [Function.comp_apply, Source.decode, fromUTF8?_toUTF8]

/-- A delivery of the bytes of a text does what the pass over the text does. -/
theorem deliver_text (tuning : Tuning) (machine : Machine) (text : String)
    (before : ByteArray) :
    let delivery := tuning.deliver machine (Source.ofBytes text.toUTF8) { written := before }
    let run := tuning.run machine text
    delivery.machine = run.machine ∧ delivery.fault = run.fault ∧
      delivery.sink.written = before ++
        (if run.fault.isNone then run.output else Run.terminated run.kept.toList).toUTF8 := by
  have source : Source.ofBytes text.toUTF8 = (Lines.ofString text).map Except.ok := by
    rw [Source.ofBytes, Lines.ofBytes_toUTF8, map_decode_toUTF8]
  rw [deliver, source]
  exact ((Delivery.mirrors_start before machine).feedAll tuning (Lines.ofString text)).finish

/-- A delivery of bytes that are not text does what the pass over the lines before the first bad one
does, and ends at that line unless it has ended before. -/
theorem deliver_bad (tuning : Tuning) (machine : Machine) {bytes bad : ByteArray}
    {texts : List String} {rest : List ByteArray}
    (lines : Lines.ofBytes bytes = texts.map String.toUTF8 ++ bad :: rest)
    (undecoded : String.fromUTF8? bad = none) (before : ByteArray) :
    let delivery := tuning.deliver machine (Source.ofBytes bytes) { written := before }
    let run := tuning.runLines machine texts
    delivery.machine = run.machine ∧
      delivery.fault = run.fault.or (some (.read (texts.length + 1) .invalidText)) ∧
      delivery.sink.written = before ++ (Run.terminated run.kept.toList).toUTF8 := by
  intro delivery run
  have source : Source.ofBytes bytes =
      texts.map Except.ok ++ .error .invalidText :: rest.map Source.decode := by
    rw [Source.ofBytes, lines, List.map_append, map_decode_toUTF8, List.map_cons, Source.decode,
      undecoded]
  have mirrors := (Delivery.mirrors_start before machine).feedAll tuning texts
  obtain ⟨last, fault, written⟩ := mirrors.foldl_bad tuning .invalidText (rest.map Source.decode)
  rw [← List.foldl_append, ← source] at last fault written
  -- The delivery has ended in either case, so finishing it adds nothing.
  have ended : delivery = (Source.ofBytes bytes).foldl (Delivery.feed tuning)
      { machine, sink := { written := before } } := by
    apply if_pos
    rw [fault]
    cases (Run.feedAll tuning { machine } texts).fault <;> rfl
  rw [ended]
  refine ⟨last, fault.trans ?_, written⟩
  change run.fault.or _ = run.fault.or _
  cases outcome : run.fault with
  | some reason => rfl
  | none =>
    have count : run.count = 0 + texts.length := Run.count_feedAll outcome
    change some (PassFault.read (run.count + 1) IoFault.invalidText) = _
    rw [count, Nat.zero_add]
    rfl

/-- Delivering bytes into a sink that never fails agrees with the pass over a whole text. Bytes that
are text give the same machine, the same fault if any, and the output; after a fault, what the lines
before it leave has been written. Bytes that are not text give what the lines before the first bad
one give, and the bad line is the fault unless one of them was. -/
theorem deliver_agrees (tuning : Tuning) (machine : Machine) (bytes before : ByteArray) :
    let delivery := tuning.deliver machine (Source.ofBytes bytes) { written := before }
    match String.fromUTF8? bytes with
    | some text =>
      let run := tuning.run machine text
      delivery.machine = run.machine ∧ delivery.fault = run.fault ∧
        (run.fault = none → delivery.sink.written = before ++ run.output.toUTF8) ∧
        ∀ fault ∈ run.fault, ∃ texts, tuning.StopsAt machine (Lines.ofString text) fault texts ∧
          delivery.sink.written = before ++ (Run.terminated texts).toUTF8
    | none =>
      ∃ (front : List String) (bad : ByteArray) (rest : List ByteArray),
        Lines.ofBytes bytes = front.map String.toUTF8 ++ bad :: rest ∧
        String.fromUTF8? bad = none ∧
        delivery.machine = (tuning.runLines machine front).machine ∧
        ∃ texts, delivery.sink.written = before ++ (Run.terminated texts).toUTF8 ∧
          match (tuning.runLines machine front).fault with
          | some fault => delivery.fault = some fault ∧ tuning.StopsAt machine front fault texts
          | none => delivery.fault = some (.read (front.length + 1) .invalidText) ∧
            tuning.Leaves machine front texts := by
  intro delivery
  cases decoded : String.fromUTF8? bytes with
  | some text =>
    obtain rfl := eq_toUTF8_of_fromUTF8? decoded
    obtain ⟨sameMachine, sameFault, written⟩ := deliver_text tuning machine text before
    refine ⟨sameMachine, sameFault, ?_, ?_⟩
    · intro success
      rw [success] at written
      exact written
    · intro fault ended
      rw [ended] at written
      exact ⟨_, stopsAt_of_runLines ended, written⟩
  | none =>
    obtain ⟨front, bad, rest, lines, undecoded⟩ := Lines.exists_first_bad decoded
    obtain ⟨sameMachine, sameFault, written⟩ := deliver_bad tuning machine lines undecoded before
    refine ⟨front, bad, rest, lines, undecoded, sameMachine, _, written, ?_⟩
    cases outcome : (tuning.runLines machine front).fault with
    | some fault =>
      rw [outcome] at sameFault
      exact ⟨sameFault, stopsAt_of_runLines outcome⟩
    | none =>
      rw [outcome] at sameFault
      exact ⟨sameFault, leaves_of_runLines outcome⟩

end Tuning

end Toolpath
