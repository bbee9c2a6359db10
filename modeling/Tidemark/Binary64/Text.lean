import Tidemark.Binary64.Shortest

/-!
# Written binary64 numbers

Three written forms, each with the fewest digits that read back or with a fixed number of places,
and one reader:

* `plain`: always positional, no point on an integer (`1440`, `0.5`, `-0`, `NaN`, `inf`);
* `dotted`: always with a point or an exponent, positional from `10 ^ -5` to below `10 ^ 16`
  (`1000.0`, `1e-7`, `1.8e+19`);
* `rounded`: no places at all, a tie going to the even integer;
* `read?`: signs, digits around a point, an exponent, and the words for infinities and for what is
  not a number in any case.
-/

namespace Tidemark

namespace Decimal

/-- Writes a decimal without an exponent; an integer gets no point. -/
def positional (d : Decimal) : String :=
  let digits := toString d.digits
  if 0 ≤ d.power then digits ++ String.ofList (List.replicate d.power.toNat '0')
  else
    let places := (-d.power).toNat
    let cs := digits.toList
    let cs := List.replicate (places + 1 - cs.length) '0' ++ cs
    String.ofList (cs.take (cs.length - places)) ++ "." ++ String.ofList (cs.drop (cs.length - places))

/-- Writes a decimal with one digit before the point and a signed exponent; a single digit gets no
point. -/
def scientific (d : Decimal) : String :=
  let cs := (toString d.digits).toList
  let exponent : Int := d.power + (cs.length - 1 : Nat)
  let fraction := if cs.length ≤ 1 then "" else "." ++ String.ofList (cs.drop 1)
  let sign := if exponent < 0 then "-" else "+"
  String.ofList (cs.take 1) ++ fraction ++ "e" ++ sign ++ toString exponent.natAbs

/-- The exponent of the leading digit. -/
def leading (d : Decimal) : Int :=
  d.power + ((toString d.digits).length - 1 : Nat)

end Decimal

namespace Binary64

/-- Puts the sign before a magnitude. -/
def withSign (negative : Bool) (magnitude : String) : String :=
  if negative then "-" ++ magnitude else magnitude

/-- Shortest digits, never an exponent. -/
def plain : Binary64 → String
  | nan => "NaN"
  | infinite s => withSign s "inf"
  | finite s m p => withSign s (shortest m p).positional

/-- Shortest digits with a point or an exponent. A value that is not finite has no written form
here and is written as null. -/
def dotted : Binary64 → String
  | nan => "null"
  | infinite _ => "null"
  | finite s m p =>
    let d := shortest m p
    withSign s <|
      if d.digits = 0 then "0.0"
      else if d.leading < -5 ∨ 16 ≤ d.leading then d.scientific
      else if 0 ≤ d.power then d.positional ++ ".0"
      else d.positional

/-- No places: the nearest integer, a tie going to the even one. -/
def rounded : Binary64 → String
  | nan => "NaN"
  | infinite s => withSign s "inf"
  | finite s m p => withSign s (toString (divNearestEven (m * 2 ^ p) one))

/-! ### Reading -/

/-- The value of a run of decimal digits. -/
def digitsValue (cs : List Char) : Nat :=
  cs.foldl (fun n c => 10 * n + (c.toNat - '0'.toNat)) 0

/-- Reads the exponent part of a number: nothing, or `e`, an optional sign and digits. -/
def readExponent? : List Char → Option Int
  | [] => some 0
  | e :: rest =>
    if e ≠ 'e' ∧ e ≠ 'E' then none
    else
      let (negative, digits) := match rest with
        | '+' :: r => (false, r)
        | '-' :: r => (true, r)
        | r => (false, r)
      if digits.isEmpty ∨ ¬ digits.all Char.isDigit then none
      else some (signed negative (digitsValue digits))

/-- Reads an unsigned number: digits with an optional point, at least one digit in all, and an
optional exponent. -/
def readMagnitude? (negative : Bool) (cs : List Char) : Option Binary64 :=
  let whole := cs.takeWhile Char.isDigit
  let rest := cs.dropWhile Char.isDigit
  let (fraction, rest) := match rest with
    | '.' :: r => (r.takeWhile Char.isDigit, r.dropWhile Char.isDigit)
    | r => ([], r)
  if whole.isEmpty ∧ fraction.isEmpty then none
  else (readExponent? rest).map fun e =>
    ofDecimal negative (digitsValue (whole ++ fraction)) (e - fraction.length)

/-- Reads a number as it may be given on a command line. -/
def read? (text : String) : Option Binary64 :=
  let (negative, cs) := match text.toList with
    | '-' :: r => (true, r)
    | '+' :: r => (false, r)
    | r => (false, r)
  let word := String.ofList (cs.map Char.toLower)
  if word = "inf" ∨ word = "infinity" then some (infinite negative)
  else if word = "nan" then some nan
  else readMagnitude? negative cs

end Binary64

end Tidemark
