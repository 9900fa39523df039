/-! # What a terminal would show

A text that goes to a terminal may hold control characters and control sequences, which move the
cursor or change colours. Where no terminal listens they are left out, character by character: a
reader remembers inside which kind of sequence it stands. White space of a line is kept even inside
a sequence, and suspends it: what follows is shown, until the next control character takes the
sequence up again.
-/

namespace Toolpath.Visible

/-- In which kind of sequence a reader stands. -/
inductive Mode where
  /-- Outside every sequence. -/
  | plain
  /-- Right after the escape character. -/
  | escape
  /-- In a short sequence that has begun with a mark. -/
  | marked
  /-- In a sequence with parameters, which a letter ends. -/
  | control
  /-- In a command of the operating system, which the bell ends. -/
  | system
  /-- At the start of a device command. -/
  | deviceStart
  /-- In the parameters of a device command. -/
  | deviceParameters
  /-- In the marks of a device command. -/
  | deviceMarks
  /-- In data that only a string terminator ends. -/
  | data
  deriving DecidableEq, Repr

structure Stand where
  mode : Mode := .plain
  /-- Whether the sequence is suspended. -/
  suspended : Bool := false
  deriving DecidableEq, Repr

/-- White space that is kept everywhere but inside a string of data. -/
def isLayout (c : Char) : Bool := c = '\t' || c = '\n' || c = '\x0c' || c = '\r'

/-- Whether a character is shown outside every sequence. -/
def isPlain (c : Char) : Bool := isLayout c || (0x20 ≤ c.toNat && c ≠ '\x7f')

def within (first last : Nat) (c : Char) : Bool := first ≤ c.toNat && c.toNat ≤ last

/-- Whether a character is written with a byte that ends a string of data. -/
def hasTerminator (c : Char) : Bool := (String.utf8EncodeChar c).contains 0x9c

/-- Where the escape character leads with the character after it. -/
def afterEscape (c : Char) : Mode :=
  match c with
  | '[' => .control
  | ']' => .system
  | 'P' => .deviceStart
  | 'X' | '^' | '_' => .data
  | _ => if within 0x20 0x2f c then .marked else if within 0x30 0x7e c then .plain else .escape

/-- Where a character leads in the head of a device command: a letter begins the data. -/
def inDevice (mode : Mode) (c : Char) : Mode :=
  if within 0x40 0x7e c then .data
  else if within 0x20 0x2f c then .deviceMarks
  else if within 0x30 0x3b c then if mode = .deviceMarks then .data else .deviceParameters
  else if within 0x3c 0x3f c then if mode = .deviceStart then .deviceParameters else .data
  else mode

/-- Where a character leads that is not shown and does not begin or break off a sequence. -/
def proceed (mode : Mode) (c : Char) : Mode :=
  match mode with
  | .plain => .plain
  | .escape => afterEscape c
  | .marked => if within 0x30 0x7e c then .plain else .marked
  | .control => if within 0x40 0x7e c then .plain else .control
  | .system => if c = '\x07' then .plain else .system
  | .deviceStart | .deviceParameters | .deviceMarks => inDevice mode c
  | .data => if hasTerminator c then .plain else .data

/-- Whether a character is kept where the reader stands. -/
def keeps (stand : Stand) (c : Char) : Bool :=
  if stand.suspended then isPlain c
  else
    match stand.mode with
    | .plain => isPlain c
    | .escape | .marked | .control => isLayout c
    | .system | .deviceStart | .deviceParameters | .deviceMarks | .data => false

/-- Where a character leads. One beyond the basic characters that is shown ends a suspended
sequence for good. -/
def step (stand : Stand) (c : Char) : Stand :=
  if c = '\x1b' then { mode := .escape }
  else if c = '\x18' || c = '\x1a' then {}
  else if keeps stand c then
    if stand.mode = .plain || 0x80 ≤ c.toNat then {} else { stand with suspended := true }
  else { mode := if stand.suspended then stand.mode else proceed stand.mode c }

/-- The reader and what it has shown, the last character first, after one more character. -/
def read (state : Stand × List Char) (c : Char) : Stand × List Char :=
  (step state.1 c, if keeps state.1 c then c :: state.2 else state.2)

/-- The characters of a text that a terminal would show. -/
def visible (text : List Char) : List Char := (text.foldl read ({}, [])).2.reverse

def ofString (text : String) : String := String.ofList (visible text.toList)

end Toolpath.Visible
