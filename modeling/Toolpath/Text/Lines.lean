/-! # Lines of a text

A line ends after a line feed or at the end of the text. Its content is what stands before the line
feed, less one carriage return right before it; a line without a line feed keeps everything. The
same rule serves characters and bytes.
-/

namespace Toolpath.Lines

variable {α : Type} [DecidableEq α]

/-- Puts one more element in front of a text that is already cut. -/
def attach (feed c : α) (pieces : List (List α)) : List (List α) :=
  if c = feed then [c] :: pieces
  else match pieces with
    | [] => [[c]]
    | first :: rest => (c :: first) :: rest

/-- The text cut after every line feed. -/
def segments (feed : α) (text : List α) : List (List α) := text.foldr (attach feed) []

@[simp] theorem segments_nil (feed : α) : segments feed [] = [] := rfl

@[simp] theorem segments_cons (feed c : α) (text : List α) :
    segments feed (c :: text) = attach feed c (segments feed text) := rfl

@[simp] theorem flatten_attach (feed c : α) (pieces : List (List α)) :
    (attach feed c pieces).flatten = c :: pieces.flatten := by
  unfold attach
  split
  · simp
  · cases pieces <;> simp

/-- Cutting loses nothing. -/
theorem flatten_segments (feed : α) (text : List α) : (segments feed text).flatten = text := by
  induction text with
  | nil => rfl
  | cons c text ih => simp [ih]

/-- A piece without the line feed that ends it and a carriage return right before that. -/
def chomp (feed ret : α) (segment : List α) : List α :=
  if segment.getLast? = some feed then
    let body := segment.dropLast
    if body.getLast? = some ret then body.dropLast else body
  else segment

/-- The contents of the lines of a text. -/
def split (feed ret : α) (text : List α) : List (List α) :=
  (segments feed text).map (chomp feed ret)

def ofString (text : String) : List String :=
  (split '\n' '\r' text.toList).map String.ofList

def ofBytes (bytes : ByteArray) : List ByteArray :=
  (split 10 13 bytes.data.toList).map fun line => ⟨line.toArray⟩

end Toolpath.Lines
