import Toolpath.Shell.Pattern.Meaning
import Toolpath.Shell.Pattern.Reader
import Toolpath.Shell.Pattern.Room
import Toolpath.Shell.Pattern.Starts

/-! # From texts to patterns

A text describes a pattern if it is well written, has a meaning, takes no more room than allowed and
asks for no words of any script. Of several faults the first one in this order is reported; the room
for reading backward is looked at last.
-/

namespace Toolpath.Pattern

/-- Makes sure that a pattern takes no more room than allowed in a direction. One that is looked up
takes none. -/
def checkRoom (direction : Direction) (pattern : Pattern) : Except Fault Unit :=
  if maxRoom < pattern.room direction && !pattern.isLookedUp then .error (.tooLarge maxRoom)
  else .ok ()

def parse (text : String) : Except Fault Pattern := do
  let draft ← Draft.read text
  let (pattern, _) ← draft.meaning {}
  checkRoom .forward pattern
  if pattern.asksForScripts then throw .anyScript
  checkRoom .backward pattern
  return pattern

end Toolpath.Pattern
