import Toolpath.Pass
import Toolpath.Sink

/-! # A pass from bytes into a sink

The lines come from a source that may fail to deliver one, and each surviving line is written as
soon as it is known. What was written before a failure stays written.
-/

namespace Toolpath

/-- The lines of a source in order, each one delivered or failing. -/
abbrev Source := List (Except IoFault String)

namespace Source

/-- The line that bytes spell, if they are text. -/
def decode (line : ByteArray) : Except IoFault String :=
  match String.fromUTF8? line with
  | some text => .ok text
  | none => .error .invalidText

def ofBytes (bytes : ByteArray) : Source := (Lines.ofBytes bytes).map decode

/-- A source that fails when its first line is asked for. -/
def failing (fault : IoFault) : Source := [.error fault]

end Source

/-- What a pass into a sink has done so far. -/
structure Delivery where
  machine : Machine
  sink : Sink
  /-- Lines asked for so far. -/
  count : Nat := 0
  /-- Whether a surviving line has been written. -/
  wroteAny : Bool := false
  notes : Array Note := #[]
  /-- Why the pass has ended early, if it has. -/
  fault : Option PassFault := none
  deriving DecidableEq

namespace Delivery

/-- Takes one more line, unless the pass has ended early. -/
def feed (tuning : Tuning) (delivery : Delivery) (line : Except IoFault String) : Delivery :=
  if delivery.fault.isSome then delivery
  else
    let number := delivery.count + 1
    match line with
    | .error fault => { delivery with count := number, fault := some (.read number fault) }
    | .ok raw =>
      let turn := tuning.turn delivery.machine number raw
      let next := { delivery with
        machine := turn.machine, count := number, notes := delivery.notes ++ turn.notes }
      match turn.verdict with
      | .kept text =>
        let (sink, fault) := next.sink.writeLine text
        { next with sink, wroteAny := true, fault := fault.map .write }
      | .dropped => next
      | .failed fault => { next with fault := some (.line number fault) }

/-- Ends a pass: a lone line feed if no line survived, and then the output is completed. -/
def finish (delivery : Delivery) : Delivery :=
  if delivery.fault.isSome then delivery
  else
    let (sink, fault) :=
      if delivery.wroteAny then (delivery.sink, none) else delivery.sink.writeLine ""
    { delivery with sink, fault := (fault.or sink.flushFault).map .write }

end Delivery

/-- The pass over a source into a sink. -/
def Tuning.deliver (tuning : Tuning) (machine : Machine) (source : Source) (sink : Sink) : Delivery :=
  (source.foldl (Delivery.feed tuning) { machine, sink }).finish

end Toolpath
