import Tidemark.Source.Decoder
import Tidemark.Text.Utf8

/-!
# Events from the lines of a file

Lines end at a line feed; a carriage return before it belongs to the line end. What follows the last line
feed is a line unless it is empty. Lines are counted from one, blank and undecodable ones included; a line
that is not UTF-8 is not counted.
-/

namespace Tidemark

/-- Drops a carriage return at the end of a line. -/
def dropReturn (line : List UInt8) : List UInt8 :=
  if line.getLast? = some 13 then line.dropLast else line

/-- The physical lines of a content. `current` is the line being read, in reverse. -/
def physicalLines (current : List UInt8) : List UInt8 → List (List UInt8)
  | [] => if current.isEmpty then [] else [current.reverse]
  | b :: rest =>
    if b = 10 then dropReturn current.reverse :: physicalLines [] rest
    else physicalLines (b :: current) rest

/-- The lines that are left of a file, with the decoder and the number of lines read. -/
structure LineSource where
  lines : List (List UInt8)
  decoder : Decoder
  lineNumber : Nat := 0

namespace LineSource

def ofContent (content : ByteArray) (field : String) : LineSource :=
  { lines := physicalLines [] content.toList, decoder := { field } }

/-- What the lines yield next: an event, the fault of a line, or nothing when no event is left. -/
def pullFrom (decoder : Decoder) (lineNumber : Nat) :
    List (List UInt8) → Except Fault (Option Event) × LineSource
  | [] => (.ok none, ⟨[], decoder, lineNumber⟩)
  | line :: rest =>
    match Text.decodeUtf8 line with
    | .error fault => (.error (.source (.notUtf8 fault)), ⟨rest, decoder, lineNumber⟩)
    | .ok text =>
      match decoder.decode text with
      | (.ok none, decoder) => pullFrom decoder (lineNumber + 1) rest
      | (.ok (some event), decoder) => (.ok (some event), ⟨rest, decoder, lineNumber + 1⟩)
      | (.error fault, decoder) =>
        (.error (.source (.line (lineNumber + 1) fault)), ⟨rest, decoder, lineNumber + 1⟩)

def pull (s : LineSource) : Except Fault (Option Event) × LineSource :=
  pullFrom s.decoder s.lineNumber s.lines

end LineSource

end Tidemark
