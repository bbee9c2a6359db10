import Tidemark.Event
import Tidemark.Fault
import Tidemark.Json.Reader
import Tidemark.Text.Blank

/-!
# Events from lines

A line is an event if it is a JSON object with its time in a given field: an integer, or a written date and
time. The line without the white space around it is the payload. Blank lines are no events; events are
numbered from zero in the order in which they are decoded.
-/

namespace Tidemark

structure Decoder where
  field : String
  nextSequence : Nat := 0
  deriving DecidableEq, Repr

namespace Decoder

/-- The time that a field holds. -/
def time? : Json.Value → Option Timestamp
  | .number (.integer z) => Timestamp.ofInt? z
  | .string s => Written.read? s
  | _ => none

/-- The time of a line that is not blank. -/
def timeOfLine (field line : String) : Except LineFault Timestamp :=
  match Json.read? line with
  | none => .error .invalidJson
  | some value =>
    match value.member? field with
    | none => .error (.missingField field)
    | some time =>
      match time? time with
      | none => .error (.unreadableTime time field)
      | some t => .ok t

/-- Decodes a line: an event, nothing for a blank line, or the fault of the line. -/
def decode (d : Decoder) (line : String) : Except LineFault (Option Event) × Decoder :=
  let cs := Text.trim line.toList
  if cs.isEmpty then (.ok none, d)
  else
    let line := String.ofList cs
    match timeOfLine d.field line with
    | .error fault => (.error fault, d)
    | .ok t =>
      (.ok (some (Event.ofPayload t line.toUTF8 d.nextSequence)),
        { d with nextSequence := d.nextSequence + 1 })

end Decoder

end Tidemark
