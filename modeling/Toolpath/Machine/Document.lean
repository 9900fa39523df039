import Toolpath.Json

/-! # The machine as a document

A JSON document holds the state of the machine between two programs. Writing lists every field.
Reading takes an object, where fields may be missing and unknown ones are passed over, or an array
of the values in the order of the fields, where the last ones may be missing.
-/

namespace Toolpath

namespace Machine

/-- The fields as they are written. -/
def fields (machine : Machine) : List (String × Scalar) :=
  Key.all.map fun key => (key.name, machine.get key)

/-- Puts values into fields one after the other. A field that comes twice is refused, and so is a
value that is not of the kind of its field. -/
def put? (machine : Machine) (seen : List Key) : List (Key × Option Scalar) → Option Machine
  | [] => some machine
  | (key, value) :: rest =>
    if key ∈ seen then none
    else do
      let after ← machine.set? key (← value)
      after.put? (key :: seen) rest

/-- The members of an object that name fields. -/
def known (members : List (String × Option Scalar)) : List (Key × Option Scalar) :=
  members.filterMap fun member => (Key.ofName? member.1).map (·, member.2)

/-- The machine that a document describes. -/
def ofDocument? : Json.Document → Option Machine
  | .object members => put? {} [] (known members)
  | .array items => if items.length ≤ Key.all.length then put? {} [] (Key.all.zip items) else none
  | .other => none

end Machine

def JsonLibrary.readMachine? (library : JsonLibrary) (text : String) : Option Machine :=
  (library.parse? text).bind Machine.ofDocument?

end Toolpath
