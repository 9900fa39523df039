import Toolpath.ByteString
import Toolpath.Fault

/-! # A receiver of bytes

A sink may have room for a limited number of bytes. It takes as many as fit and then fails, and
completing the output may fail too.
-/

namespace Toolpath

/-- A receiver of bytes. -/
structure Sink where
  /-- Bytes taken so far. -/
  written : ByteArray := .empty
  /-- How many more bytes fit, and the failure after them; without a limit all bytes fit. -/
  limit : Option (Nat × IoFault) := none
  /-- The failure of completing the output, if it fails. -/
  flushFault : Option IoFault := none
  deriving DecidableEq

namespace Sink

/-- Writes bytes: all of them, or as many as fit together with the failure. -/
def write (sink : Sink) (bytes : ByteArray) : Sink × Option IoFault :=
  match sink.limit with
  | none => ({ sink with written := sink.written ++ bytes }, none)
  | some (room, fault) =>
    if bytes.size ≤ room then
      ({ sink with written := sink.written ++ bytes, limit := some (room - bytes.size, fault) }, none)
    else
      ({ sink with written := sink.written ++ bytes.extract 0 room, limit := some (0, fault) },
        some fault)

def writeLine (sink : Sink) (text : String) : Sink × Option IoFault :=
  sink.write (text ++ "\n").toUTF8

end Sink

end Toolpath
