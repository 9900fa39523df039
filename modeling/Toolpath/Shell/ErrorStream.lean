import Toolpath.Command
import Toolpath.Text.Lines

/-! # The error stream

Notes, warnings and reports share one stream. A reader of the stream who looks for notes takes it
apart line by line: a line that begins with a note counts as that note, and every other line is
plain. A note whose end is lost runs on into what is written after it.
-/

namespace Toolpath

/-- The error stream, taken apart. -/
structure ErrorStream where
  /-- The lines that begin with a note, in order. -/
  log : Array String := #[]
  /-- Everything else. -/
  plain : String := ""
  /-- Whether the last line began with a note, if that line is not ended yet. -/
  unfinished : Option Bool := none
  deriving DecidableEq, Repr

namespace ErrorStream

/-- The stream with a piece of a line after it. -/
def addPiece (stream : ErrorStream) (isNote : Bool) (piece : List Char) : ErrorStream :=
  let ended := piece.getLast? = some '\n'
  let text := String.ofList (if ended then piece.dropLast else piece)
  let unfinished := if ended then none else some (stream.unfinished.getD isNote)
  match stream.unfinished with
  | some true =>
    let last := stream.log.back?.getD ""
    { stream with log := stream.log.pop.push (last ++ text), unfinished }
  | some false => { stream with plain := stream.plain ++ String.ofList piece, unfinished }
  | none =>
    if isNote then { stream with log := stream.log.push text, unfinished }
    else { stream with plain := stream.plain ++ String.ofList piece, unfinished }

/-- The stream with something more written to it; only its first line can be a note. -/
def write (stream : ErrorStream) (utterance : Utterance) : ErrorStream :=
  match Lines.segments '\n' utterance.text.toList with
  | [] => stream
  | first :: rest =>
    rest.foldl (fun stream piece => stream.addPiece false piece)
      (stream.addPiece utterance.isNote first)

/-- The stream after a list of utterances. -/
def ofList (utterances : List Utterance) : ErrorStream := utterances.foldl write {}

end ErrorStream

end Toolpath
