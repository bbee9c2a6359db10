import Tidemark.Json.Value

/-!
# Reading JSON

A text is one value with white space around it. Arrays and objects nest less than 128 deep, a string
holds no control character and no lone surrogate, and a number that no binary64 number is near enough
to is refused. Every reader takes the characters that are left and gives back what it leaves.

A number that is no 64-bit integer is read as `significand * 10 ^ exponent`: the leading digits that
fit 64 bits, scaled by at most a few multiplications or divisions by powers of ten. It is the number
nearest to what is written when both factors are exact.
-/

namespace Tidemark.Json

/-- Whether the character may stand between tokens. -/
def isSpace (c : Char) : Bool :=
  c = ' ' || c = '\n' || c = '\t' || c = '\r'

def skipSpace (cs : List Char) : List Char :=
  cs.dropWhile isSpace

/-! ### Numbers -/

/-- Bound of the significand. -/
def wordBound : Nat := 2 ^ 64

/-- `± significand * 10 ^ exponent`, scaled step by step from the left; none where the result would be
an infinity. Exponents below -308 are made up by divisions by `10 ^ 308`. -/
def scaled? (negative : Bool) (significand : Nat) (exponent : Int) : Option Binary64 :=
  let start := Binary64.ofNat significand
  let signed (x : Binary64) : Binary64 := if negative then -x else x
  if 0 ≤ exponent then
    if exponent ≤ 308 then
      let x := start * Binary64.ofDecimal false 1 exponent
      if x.isFinite then some (signed x) else none
    else if significand = 0 then some (signed start) else none
  else (shrink start (-exponent).toNat 8).map signed
where
  /-- Division by a power of ten; after a few steps of `10 ^ 308` every number has become a zero. -/
  shrink (x : Binary64) (places : Nat) : Nat → Option Binary64
    | 0 => some Binary64.zero
    | steps + 1 =>
      if places ≤ 308 then some (x / Binary64.ofDecimal false 1 places)
      else if x = Binary64.zero then some x
      else shrink (x / Binary64.ofDecimal false 1 308) (places - 308) steps

/-- Appends digits to a significand while it fits 64 bits; gives the significand, how many digits it
took, and the remaining characters. -/
def takeDigits : Nat → Nat → List Char → Nat × Nat × List Char
  | n, taken, [] => (n, taken, [])
  | n, taken, c :: cs =>
    if c.isDigit ∧ 10 * n + (c.toNat - '0'.toNat) < wordBound then
      takeDigits (10 * n + (c.toNat - '0'.toNat)) (taken + 1) cs
    else (n, taken, c :: cs)

/-- Drops digits and counts them. -/
def dropDigits : Nat → List Char → Nat × List Char
  | dropped, [] => (dropped, [])
  | dropped, c :: cs => if c.isDigit then dropDigits (dropped + 1) cs else (dropped, c :: cs)

/-- The largest exponent that is computed with. -/
def exponentBound : Nat := 2 ^ 31

/-- Reads the exponent part, if there is one, and completes the number. An exponent too large to
compute with makes an infinity, which is refused, or a zero. -/
def readScaled? (negative : Bool) (significand : Nat) (exponent : Int) :
    List Char → Option (Binary64 × List Char)
  | [] => (scaled? negative significand exponent).map (·, [])
  | c :: cs =>
    if c ≠ 'e' ∧ c ≠ 'E' then (scaled? negative significand exponent).map (·, c :: cs)
    else
      let (down, cs) := match cs with
        | '+' :: r => (false, r)
        | '-' :: r => (true, r)
        | r => (false, r)
      let digits := cs.takeWhile Char.isDigit
      let rest := cs.dropWhile Char.isDigit
      if digits.isEmpty then none
      else
        let size := Binary64.digitsValue digits
        if exponentBound ≤ size then
          if significand ≠ 0 ∧ !down then none
          else some (Binary64.finite negative 0 0, rest)
        else
          (scaled? negative significand (if down then exponent - size else exponent + size)).map
            (·, rest)

/-- Reads what may follow the digits of an integer part: a fraction, an exponent, or neither. `skipped`
counts the digits of the integer part that did not fit. -/
def readFraction? (negative : Bool) (significand skipped : Nat) :
    List Char → Option (Binary64 × List Char)
  | '.' :: cs =>
    match cs with
    | [] => none
    | d :: _ =>
      if !d.isDigit then none
      else
        let (significand, taken, rest) := takeDigits significand 0 cs
        let (_, rest) := dropDigits 0 rest
        readScaled? negative significand ((skipped : Int) - taken) rest
  | cs => readScaled? negative significand skipped cs

/-- Whether a fraction or an exponent follows. -/
def continuesNumber : List Char → Bool
  | c :: _ => c = '.' || c = 'e' || c = 'E'
  | [] => false

/-- Reads a number after its sign. A leading zero stands alone. -/
def readUnsigned? (negative : Bool) : List Char → Option (Number × List Char)
  | [] => none
  | c :: cs =>
    if !c.isDigit then none
    else
      let (significand, rest) :=
        if c = '0' then (0, cs)
        else let (n, _, r) := takeDigits 0 0 (c :: cs); (n, r)
      match rest with
      | d :: r =>
        if d.isDigit then
          if c = '0' then none
          else
            let (skipped, rest) := dropDigits 0 (d :: r)
            (readFraction? negative significand skipped rest).map fun (x, s) => (.float x, s)
        else if continuesNumber (d :: r) then
          (readFraction? negative significand 0 (d :: r)).map fun (x, s) => (.float x, s)
        else some (whole negative significand, d :: r)
      | [] => some (whole negative significand, [])
where
  /-- An integer without fraction and exponent. A negative zero and what is below `-2 ^ 63` are no
  64-bit integers. -/
  whole (negative : Bool) (n : Nat) : Number :=
    if !negative then .integer n
    else if n = 0 ∨ 2 ^ 63 < n then .float (-(Binary64.ofNat n))
    else .integer (-(n : Int))

def readNumber? : List Char → Option (Number × List Char)
  | '-' :: cs => readUnsigned? true cs
  | cs => readUnsigned? false cs

/-! ### Strings -/

def hexValue? (c : Char) : Option Nat :=
  if c.isDigit then some (c.toNat - '0'.toNat)
  else if 'a' ≤ c ∧ c ≤ 'f' then some (c.toNat - 'a'.toNat + 10)
  else if 'A' ≤ c ∧ c ≤ 'F' then some (c.toNat - 'A'.toNat + 10)
  else none

/-- The code unit of four hexadecimal digits. -/
def codeUnit? (a b c d : Char) : Option Nat := do
  let a ← hexValue? a
  let b ← hexValue? b
  let c ← hexValue? c
  let d ← hexValue? d
  return ((a * 16 + b) * 16 + c) * 16 + d

/-- The character of a short escape. -/
def shortEscape? (c : Char) : Option Char :=
  if c = '"' then some '"'
  else if c = '\\' then some '\\'
  else if c = '/' then some '/'
  else if c = 'b' then some '\x08'
  else if c = 'f' then some '\x0c'
  else if c = 'n' then some '\n'
  else if c = 'r' then some '\r'
  else if c = 't' then some '\t'
  else none

/-- Reads a string after its opening quote; gives its characters in reverse before those already read.
A high surrogate needs a low one right after it. -/
def readString? : List Char → List Char → Option (List Char × List Char)
  | read, '"' :: rest => some (read, rest)
  | read, '\\' :: 'u' :: a :: b :: c :: d :: '\\' :: 'u' :: e :: f :: g :: h :: rest =>
    match codeUnit? a b c d with
    | none => none
    | some high =>
      if 0xD800 ≤ high ∧ high < 0xDC00 then
        match codeUnit? e f g h with
        | none => none
        | some low =>
          if 0xDC00 ≤ low ∧ low < 0xE000 then
            readString?
              (Char.ofNat (0x10000 + (high - 0xD800) * 0x400 + (low - 0xDC00)) :: read) rest
          else none
      else if 0xDC00 ≤ high ∧ high < 0xE000 then none
      else readString? (Char.ofNat high :: read) ('\\' :: 'u' :: e :: f :: g :: h :: rest)
  | read, '\\' :: 'u' :: a :: b :: c :: d :: rest =>
    match codeUnit? a b c d with
    | none => none
    | some unit =>
      if 0xD800 ≤ unit ∧ unit < 0xE000 then none
      else readString? (Char.ofNat unit :: read) rest
  | read, '\\' :: c :: rest =>
    match shortEscape? c with
    | none => none
    | some e => readString? (e :: read) rest
  | read, c :: rest => if c.toNat < 0x20 ∨ c = '\\' then none else readString? (c :: read) rest
  | _, [] => none
termination_by _ cs => cs.length

/-- Reads a string after its opening quote. -/
def readText? (cs : List Char) : Option (String × List Char) :=
  (readString? [] cs).map fun (read, rest) => (String.ofList read.reverse, rest)

/-! ### Values -/

/-- Arrays and objects nest less deep than this. -/
def depthBound : Nat := 128

mutual

/-- Reads a value at whose first character the text stands. `depth` is how many more arrays and objects
may be entered, less one. -/
def readValue? (depth : Nat) : Nat → List Char → Option (Value × List Char)
  | 0, _ => none
  | fuel + 1, cs =>
    match cs with
    | 'n' :: 'u' :: 'l' :: 'l' :: rest => some (.null, rest)
    | 't' :: 'r' :: 'u' :: 'e' :: rest => some (.bool true, rest)
    | 'f' :: 'a' :: 'l' :: 's' :: 'e' :: rest => some (.bool false, rest)
    | '"' :: rest => (readText? rest).map fun (s, rest) => (.string s, rest)
    | '[' :: rest =>
      if depth ≤ 1 then none
      else match skipSpace rest with
        | ']' :: rest => some (.array [], rest)
        | rest => readElements? (depth - 1) [] fuel rest
    | '\x7b' :: rest =>
      if depth ≤ 1 then none
      else match skipSpace rest with
        | '\x7d' :: rest => some (.object [], rest)
        | rest => readMembers? (depth - 1) [] fuel rest
    | cs => (readNumber? cs).map fun (n, rest) => (.number n, rest)

/-- Reads the elements of an array that are left, the text standing at one. -/
def readElements? (depth : Nat) (read : List Value) :
    Nat → List Char → Option (Value × List Char)
  | 0, _ => none
  | fuel + 1, cs =>
    match readValue? depth fuel cs with
    | none => none
    | some (v, rest) =>
      match skipSpace rest with
      | ',' :: rest => readElements? depth (v :: read) fuel (skipSpace rest)
      | ']' :: rest => some (.array (v :: read).reverse, rest)
      | _ => none

/-- Reads the members of an object that are left, the text standing at a key. -/
def readMembers? (depth : Nat) (read : List (String × Value)) :
    Nat → List Char → Option (Value × List Char)
  | 0, _ => none
  | fuel + 1, cs =>
    match cs with
    | '"' :: rest =>
      match readText? rest with
      | none => none
      | some (key, rest) =>
        match skipSpace rest with
        | ':' :: rest =>
          match readValue? depth fuel (skipSpace rest) with
          | none => none
          | some (v, rest) =>
            match skipSpace rest with
            | ',' :: rest => readMembers? depth (insertMember key v read) fuel (skipSpace rest)
            | '\x7d' :: rest => some (.object (insertMember key v read), rest)
            | _ => none
        | _ => none
    | _ => none

end

/-- Reads a text that is one value with white space around it. -/
def read? (text : String) : Option Value :=
  let cs := text.toList
  match readValue? depthBound (2 * cs.length + 2) (skipSpace cs) with
  | some (v, rest) => if (skipSpace rest).isEmpty then some v else none
  | none => none

end Tidemark.Json
