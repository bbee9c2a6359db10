import Tidemark.Text.Blank
import Tidemark.Time.Calendar
import Tidemark.Time.Timestamp

/-!
# Written dates and times

Two forms are read: the one with an offset, every field with its fixed width, and the plain one, which
takes white space before a number, short numbers and signed years. Timestamps are written in the form
with the offset zero, with three decimals unless they are all zero.

```
2015-01-01T01:00:00.250+01:00        2015-01-01 00:00:01.5
```

Either form has a fraction of any length; digits after the ninth are dropped. The sixtieth second may be
given in any minute and counts as the first of the next one.
-/

namespace Tidemark.Written

open Tidemark.Text

/-! ### Numbers -/

def digit? (c : Char) : Option Nat :=
  if c.isDigit then some (c.toNat - '0'.toNat) else none

/-- Reads between `least` and `most` digits. -/
def number? (least most : Nat) (cs : List Char) : Option (Nat × List Char) :=
  let digits := (cs.take most).takeWhile Char.isDigit
  if digits.length < least then none
  else some (digits.foldl (fun n c => 10 * n + (c.toNat - '0'.toNat)) 0, cs.drop digits.length)

/-- Reads one given character. -/
def char? (expected : Char) : List Char → Option (List Char)
  | c :: rest => if c = expected then some rest else none
  | [] => none

/-- Reads the digits of a fraction as nanoseconds. -/
def fraction? (cs : List Char) : Option (Nat × List Char) := do
  let (n, rest) ← number? 1 9 cs
  let taken := cs.length - rest.length
  return (n * 10 ^ (9 - taken), rest.dropWhile Char.isDigit)

/-- Reads a fraction with its point, if there is one. -/
def optionalFraction? : List Char → Option (Nat × List Char)
  | '.' :: rest => fraction? rest
  | cs => some (0, cs)

/-- The number of milliseconds of a date and time that exist, the year within the range of dates. -/
def millis? (t : DateTime) : Option Int :=
  if t.date.Valid ∧ t.time.Valid ∧ Date.firstYear ≤ t.date.year ∧ t.date.year ≤ Date.lastYear then
    some t.toMillis
  else none

/-! ### With an offset -/

/-- Reads an offset in seconds: `Z`, or a sign, two digits, a colon and two digits. The minus sign proper
is as good as the hyphen. Offsets stay within a day. -/
def offset? : List Char → Option (Int × List Char)
  | 'Z' :: rest => some (0, rest)
  | 'z' :: rest => some (0, rest)
  | sign :: cs => do
    let negative ← if sign = '+' then some false
      else if sign = '-' ∨ sign = '\u2212' then some true
      else none
    let (hours, cs) ← number? 2 2 cs
    let cs ← char? ':' cs
    let (minutes, cs) ← number? 2 2 cs
    if 60 ≤ minutes ∨ 24 ≤ hours then none
    else
      let seconds : Int := (hours * 3600 + minutes * 60 : Nat)
      some (if negative then -seconds else seconds, cs)
  | [] => none

/-- Whether the character may stand between the date and the time. -/
def isSeparator (c : Char) : Bool :=
  c = 'T' || c = 't' || c = ' '

/-- Reads the form with an offset: a number of milliseconds since the start of 1970. -/
def withOffset? (cs : List Char) : Option Int := do
  let (year, cs) ← number? 4 4 cs
  let cs ← char? '-' cs
  let (month, cs) ← number? 2 2 cs
  let cs ← char? '-' cs
  let (day, cs) ← number? 2 2 cs
  let cs ← match cs with
    | c :: rest => if isSeparator c then some rest else none
    | [] => none
  let (hour, cs) ← number? 2 2 cs
  let cs ← char? ':' cs
  let (minute, cs) ← number? 2 2 cs
  let cs ← char? ':' cs
  let (second, cs) ← number? 2 2 cs
  let (nanos, cs) ← optionalFraction? cs
  let (seconds, cs) ← offset? cs
  if cs.isEmpty then
    let civil ← millis? ⟨⟨year, month, day⟩, ⟨hour, minute, second, nanos⟩⟩
    return civil - seconds * 1000
  else none

/-! ### Without an offset -/

/-- Reads a number of at most two digits after white space. -/
def field? (cs : List Char) : Option (Nat × List Char) :=
  number? 1 2 (trimLeft cs)

/-- Reads a year after white space: four digits at most, or a sign and any number of digits. -/
def year? (cs : List Char) : Option (Int × List Char) :=
  match trimLeft cs with
  | '-' :: rest => (number? 1 rest.length rest).map fun (n, r) => (-(n : Int), r)
  | '+' :: rest => (number? 1 rest.length rest).map fun (n, r) => ((n : Int), r)
  | rest => (number? 1 4 rest).map fun (n, r) => ((n : Int), r)

/-- Reads the form without an offset, taken as a time at longitude zero. -/
def plain? (cs : List Char) : Option Int := do
  let (year, cs) ← year? cs
  let cs ← char? '-' cs
  let (month, cs) ← field? cs
  let cs ← char? '-' cs
  let (day, cs) ← field? cs
  let (hour, cs) ← field? (trimLeft cs)
  let cs ← char? ':' cs
  let (minute, cs) ← field? cs
  let cs ← char? ':' cs
  let (second, cs) ← field? cs
  let (nanos, cs) ← optionalFraction? cs
  if cs.isEmpty then millis? ⟨⟨year, month, day⟩, ⟨hour, minute, second, nanos⟩⟩ else none

/-- Reads a written date and time, in the form with an offset if it is that. -/
def read? (text : String) : Option Timestamp := do
  let millis ← withOffset? text.toList <|> plain? text.toList
  Timestamp.ofInt? millis

/-! ### Writing -/

/-- Decimal digits with leading zeros up to a width. -/
def padded (width n : Nat) : String :=
  let digits := (toString n).toList
  String.ofList (List.replicate (width - digits.length) '0' ++ digits)

/-- A year of four digits; one outside of them has a sign and at least four digits. -/
def writeYear (year : Int) : String :=
  if 0 ≤ year ∧ year ≤ 9999 then padded 4 year.toNat
  else (if year < 0 then "-" else "+") ++ padded 4 year.natAbs

/-- Writes a date and time with the offset zero. -/
def writeDateTime (t : DateTime) : String :=
  let fraction := if t.time.nanos = 0 then "" else "." ++ padded 3 (t.time.nanos / 1000000)
  writeYear t.date.year ++ "-" ++ padded 2 t.date.month ++ "-" ++ padded 2 t.date.day ++ "T"
    ++ padded 2 t.time.hour ++ ":" ++ padded 2 t.time.minute ++ ":" ++ padded 2 t.time.second
    ++ fraction ++ "+00:00"

/-- Writes a timestamp: its date and time, or the plain number where dates end. -/
def write (t : Timestamp) : String :=
  let dateTime := DateTime.ofMillis t.millis
  if Date.firstYear ≤ dateTime.date.year ∧ dateTime.date.year ≤ Date.lastYear then
    writeDateTime dateTime
  else toString t.millis

end Tidemark.Written
