/-!
# Bytes as text

Decoding of UTF-8, with the place of the first fault when the bytes are not UTF-8. A fault is either
a sequence that is wrong whatever follows, of one to three bytes, or a sequence that the end of the
bytes cuts off.
-/

namespace Tidemark.Text

/-- Why bytes are not UTF-8, with the index of the first byte of the faulty sequence. -/
inductive Utf8Fault where
  | invalid (length index : Nat)
  | incomplete (index : Nat)
  deriving DecidableEq, Repr

namespace Utf8Fault

def message : Utf8Fault → String
  | invalid length index =>
    "invalid utf-8 sequence of " ++ toString length ++ " bytes from index " ++ toString index
  | incomplete index => "incomplete utf-8 byte sequence from index " ++ toString index

end Utf8Fault

/-- Whether a byte continues a sequence. -/
def isContinuation (b : UInt8) : Bool :=
  0x80 ≤ b && b ≤ 0xBF

/-- The range of the second byte that a first byte of a longer sequence allows, with the number of
further bytes after it. -/
def secondByte? (first : UInt8) : Option (UInt8 × UInt8 × Nat) :=
  if 0xC2 ≤ first && first ≤ 0xDF then some (0x80, 0xBF, 0)
  else if first = 0xE0 then some (0xA0, 0xBF, 1)
  else if first = 0xED then some (0x80, 0x9F, 1)
  else if 0xE1 ≤ first && first ≤ 0xEF then some (0x80, 0xBF, 1)
  else if first = 0xF0 then some (0x90, 0xBF, 2)
  else if 0xF1 ≤ first && first ≤ 0xF3 then some (0x80, 0xBF, 2)
  else if first = 0xF4 then some (0x80, 0x8F, 2)
  else none

/-- What the scanner expects: the start of a character, the second byte of a sequence, or further
continuation bytes after `seen` bytes of one. -/
inductive Utf8State where
  | start
  | second (low high : UInt8) (further : Nat)
  | continuing (seen further : Nat)

/-- The first fault in the bytes, if any. `index` is the place of the next byte, `origin` that of the
sequence being read. -/
def firstFault? (state : Utf8State) (origin index : Nat) : List UInt8 → Option Utf8Fault
  | [] =>
    match state with
    | .start => none
    | _ => some (.incomplete origin)
  | b :: rest =>
    match state with
    | .start =>
      if b < 0x80 then firstFault? .start (index + 1) (index + 1) rest
      else match secondByte? b with
        | none => some (.invalid 1 index)
        | some (low, high, further) => firstFault? (.second low high further) index (index + 1) rest
    | .second low high further =>
      if low ≤ b && b ≤ high then
        if further = 0 then firstFault? .start (index + 1) (index + 1) rest
        else firstFault? (.continuing 2 further) origin (index + 1) rest
      else some (.invalid 1 origin)
    | .continuing seen further =>
      if isContinuation b then
        if further ≤ 1 then firstFault? .start (index + 1) (index + 1) rest
        else firstFault? (.continuing (seen + 1) (further - 1)) origin (index + 1) rest
      else some (.invalid seen origin)

/-- Decodes UTF-8. -/
def decodeUtf8 (bytes : List UInt8) : Except Utf8Fault String :=
  match firstFault? .start 0 0 bytes with
  | some fault => .error fault
  | none =>
    match String.fromUTF8? ⟨bytes.toArray⟩ with
    | some text => .ok text
    | none => .error (.incomplete bytes.length)

end Tidemark.Text
