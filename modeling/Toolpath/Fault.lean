import Toolpath.Line.Reader

/-! # Faults

Why a line, or a whole pass, cannot go on. Each cause is a constructor; its wording is given once,
by `message`.
-/

namespace Toolpath

/-- A machine mode or a kind of move that is refused rather than guessed at. -/
inductive Unsupported where
  | notHomed
  | relativeCoordinates
  | extendedMoveParameters
  | absoluteExtrusionPrintMove
  deriving DecidableEq, Repr

def Unsupported.message : Unsupported → String
  | .notHomed => "linear move issued before the machine was homed"
  | .relativeCoordinates => "linear moves in relative coordinate mode are not supported"
  | .extendedMoveParameters => "extra parameters on a linear move are not supported"
  | .absoluteExtrusionPrintMove => "print moves require relative extrusion"

/-- Why one line fails. -/
inductive Fault where
  /-- The text of the line cannot be read. -/
  | unreadable (fault : ReadFault)
  /-- The line asks for something that is not supported. -/
  | unsupported (mode : Unsupported)
  /-- The command is not understood; the canonical text of the line is kept. -/
  | unknownCommand (line : String)
  /-- A number of the line would have to be written with too many places. -/
  | placesExceeded
  deriving DecidableEq, Repr

def Fault.message : Fault → String
  | .unreadable fault => fault.message
  | .unsupported mode => mode.message
  | .unknownCommand line => "unknown command: " ++ line
  | .placesExceeded => "a number cannot be written with that many decimal places"

/-- What reading or writing files can fail with. -/
inductive IoFault where
  | notFound
  | notADirectory
  | isADirectory
  | nameTooLong
  | busy
  /-- The name holds a zero character. -/
  | invalidName
  /-- The content is not text. -/
  | invalidText
  /-- A failure that the receiver of the output reports in its own words. -/
  | device (text : String)
  deriving DecidableEq, Repr

def IoFault.message : IoFault → String
  | .notFound => "No such file or directory (os error 2)"
  | .notADirectory => "Not a directory (os error 20)"
  | .isADirectory => "Is a directory (os error 21)"
  | .nameTooLong => "File name too long (os error 36)"
  | .busy => "Device or resource busy (os error 16)"
  | .invalidName => "file name contained an unexpected NUL byte"
  | .invalidText => "stream did not contain valid UTF-8"
  | .device text => text

/-- Why a pass over a whole program fails; lines are counted from one. -/
inductive PassFault where
  /-- A line fails. -/
  | line (number : Nat) (fault : Fault)
  /-- A line cannot be obtained from the input. -/
  | read (number : Nat) (fault : IoFault)
  /-- The output cannot be delivered. -/
  | write (fault : IoFault)
  deriving DecidableEq, Repr

namespace PassFault

def lineNumber? : PassFault → Option Nat
  | line number _ | read number _ => some number
  | write _ => none

def message : PassFault → String
  | line number fault => "line " ++ number.repr ++ ": " ++ fault.message
  | read number fault => "line " ++ number.repr ++ ": failed to read: " ++ fault.message
  | write fault => "I/O error: " ++ fault.message

end PassFault

end Toolpath
