/-!
# Binary64 numbers

A binary64 number is kept as what it denotes: not a number, an infinity, or a signed multiple
`significand * 2 ^ exponent` of the least positive number `2 ^ -1074`. Every operation is its exact
result rounded once, to the nearest number and to the even significand on a tie:

```
ofQuotient negative num den = the binary64 number nearest to ± num / den units of 2 ^ -1074
```

Addition, multiplication, division and the conversion of integers all go through `ofQuotient`, so a
fact about the rounding of quotients is a fact about each of them.
-/

-- a power of a number is taken the same way where powers of monoids are in scope
attribute [instance (high)] instPowNat instNatPowNat
attribute [default_instance high + 1] instPowNat

namespace Tidemark

/-- Quotient of two naturals rounded to the nearest natural, a tie going to the even one. -/
def divNearestEven (num den : Nat) : Nat :=
  let quotient := num / den
  let remainder := num % den
  if 2 * remainder < den then quotient
  else if den < 2 * remainder then quotient + 1
  else quotient + quotient % 2

/-- A binary64 number. A finite one has the magnitude `significand * 2 ^ exponent` in units of
`2 ^ -1074`; the two zeros are told apart by their sign. -/
inductive Binary64 where
  | nan
  | infinite (negative : Bool)
  | finite (negative : Bool) (significand exponent : Nat)
  deriving DecidableEq, Repr

namespace Binary64

/-- How many units of `2 ^ -1074` make one. -/
def one : Nat := 2 ^ 1074

/-- The largest exponent of a finite number, in units of `2 ^ -1074`. -/
def maxExponent : Nat := 2045

/-- Finite data in the one form that the format has for each magnitude: a significand of at most 53
bits, of exactly 53 unless the exponent is the least one. -/
def Canonical : Binary64 → Prop
  | nan => True
  | infinite _ => True
  | finite _ m p => m < 2 ^ 53 ∧ (2 ^ 52 ≤ m ∨ p = 0) ∧ p ≤ maxExponent

/-- The number nearest to `± num / den` units of `2 ^ -1074`, ties to the even significand. From the
midpoint above the largest finite number on it is an infinity. -/
def ofQuotient (negative : Bool) (num den : Nat) : Binary64 :=
  let exponent := Nat.log2 (num / den) - 52
  let significand := divNearestEven num (den * 2 ^ exponent)
  let (significand, exponent) :=
    if significand = 2 ^ 53 then (2 ^ 52, exponent + 1) else (significand, exponent)
  if maxExponent < exponent then infinite negative else finite negative significand exponent

/-- The number nearest to the fraction `± num / den`. -/
def ofRatio (negative : Bool) (num den : Nat) : Binary64 :=
  ofQuotient negative (num * one) den

/-- The number nearest to an integer. -/
def ofInt (z : Int) : Binary64 :=
  ofRatio (z < 0) z.natAbs 1

/-- The number nearest to a natural number. -/
def ofNat (n : Nat) : Binary64 :=
  ofRatio false n 1

/-- The number nearest to `± digits * 10 ^ power`. Powers so large or small that the result is
certainly an infinity or a zero are not computed. -/
def ofDecimal (negative : Bool) (digits : Nat) (power : Int) : Binary64 :=
  let scale := power + (Nat.log2 digits : Int) / 3
  if digits = 0 then finite negative 0 0
  else if 400 < power then infinite negative
  else if scale + 1 < -400 then finite negative 0 0
  else if 0 ≤ power then ofRatio negative (digits * 10 ^ power.toNat) 1
  else ofRatio negative digits (10 ^ (-power).toNat)

/-- Applies a sign to a magnitude. -/
def signed (negative : Bool) (magnitude : Nat) : Int :=
  if negative then -(magnitude : Int) else magnitude

/-- Whether the sign is set, also for a zero. -/
def isNegative : Binary64 → Bool
  | nan => false
  | infinite s => s
  | finite s _ _ => s

def isFinite : Binary64 → Bool
  | finite .. => true
  | _ => false

def neg : Binary64 → Binary64
  | nan => nan
  | infinite s => infinite !s
  | finite s m p => finite (!s) m p

/-- Sum. An exact zero is negative only when both terms are. -/
def add : Binary64 → Binary64 → Binary64
  | nan, _ => nan
  | _, nan => nan
  | infinite s, infinite t => if s = t then infinite s else nan
  | infinite s, finite .. => infinite s
  | finite .., infinite t => infinite t
  | finite s m p, finite t n q =>
    let sum := signed s (m * 2 ^ p) + signed t (n * 2 ^ q)
    if sum = 0 then finite (s && t) 0 0 else ofQuotient (sum < 0) sum.natAbs 1

def sub (x y : Binary64) : Binary64 := add x (neg y)

/-- Product. -/
def mul : Binary64 → Binary64 → Binary64
  | nan, _ => nan
  | _, nan => nan
  | infinite s, infinite t => infinite (s != t)
  | infinite s, finite t n _ => if n = 0 then nan else infinite (s != t)
  | finite s m _, infinite t => if m = 0 then nan else infinite (s != t)
  | finite s m p, finite t n q => ofQuotient (s != t) (m * 2 ^ p * (n * 2 ^ q)) one

/-- Quotient. -/
def div : Binary64 → Binary64 → Binary64
  | nan, _ => nan
  | _, nan => nan
  | infinite _, infinite _ => nan
  | infinite s, finite t _ _ => infinite (s != t)
  | finite s _ _, infinite t => finite (s != t) 0 0
  | finite s m p, finite t n q =>
    if n = 0 then if m = 0 then nan else infinite (s != t)
    else ofQuotient (s != t) (m * 2 ^ p * one) (n * 2 ^ q)

instance : Neg Binary64 := ⟨neg⟩
instance : Add Binary64 := ⟨add⟩
instance : Sub Binary64 := ⟨sub⟩
instance : Mul Binary64 := ⟨mul⟩
instance : Div Binary64 := ⟨div⟩

/-- `x < y` as numbers: false when either is not one, and the two zeros are equal. -/
def less : Binary64 → Binary64 → Bool
  | nan, _ => false
  | _, nan => false
  | infinite s, infinite t => s && !t
  | infinite s, finite .. => s
  | finite .., infinite t => !t
  | finite s m p, finite t n q => signed s (m * 2 ^ p) < signed t (n * 2 ^ q)

/-- `x ≤ y` as numbers. -/
def atMost : Binary64 → Binary64 → Bool
  | nan, _ => false
  | _, nan => false
  | infinite s, infinite t => s || !t
  | infinite s, finite .. => s
  | finite .., infinite t => !t
  | finite s m p, finite t n q => signed s (m * 2 ^ p) ≤ signed t (n * 2 ^ q)

/-- The positive zero. -/
def zero : Binary64 := finite false 0 0

/-- Natural power by repeated squaring, the products taken in the order of the bits of the
exponent from the lowest. -/
def power (base : Binary64) (exponent : Nat) : Binary64 :=
  go base (ofNat 1) exponent (Nat.log2 exponent + 1)
where
  /-- One bit of the exponent a step; the base is not squared after the last one. -/
  go (base product : Binary64) (exponent : Nat) : Nat → Binary64
    | 0 => product
    | bits + 1 =>
      let product := if exponent % 2 = 1 then product * base else product
      if exponent / 2 = 0 then product else go (base * base) product (exponent / 2) bits

/-- The integer part, cut toward zero and clamped to `lo` and `hi`; zero when not a number. -/
def truncate (lo hi : Int) : Binary64 → Int
  | nan => 0
  | infinite s => if s then lo else hi
  | finite s m p => max lo (min hi (signed s (m * 2 ^ p / one)))

/-- The nearest integer, half away from zero, clamped to `lo` and `hi`; zero when not a number. -/
def roundAway (lo hi : Int) : Binary64 → Int
  | nan => 0
  | infinite s => if s then lo else hi
  | finite s m p => max lo (min hi (signed s ((2 * (m * 2 ^ p) + one) / (2 * one))))

/-! ### The interchange form -/

/-- The 64-bit word of the number. What is not a number has one word. -/
def toBits : Binary64 → Nat
  | nan => 2047 * 2 ^ 52 + 2 ^ 51
  | infinite s => (if s then 2 ^ 63 else 0) + 2047 * 2 ^ 52
  | finite s m p => (if s then 2 ^ 63 else 0) + p * 2 ^ 52 + m

/-- The number that a 64-bit word stands for. -/
def ofBits (word : Nat) : Binary64 :=
  let negative := word / 2 ^ 63 % 2 = 1
  let field := word / 2 ^ 52 % 2 ^ 11
  let fraction := word % 2 ^ 52
  if field = 2047 then if fraction = 0 then infinite negative else nan
  else if field = 0 then finite negative fraction 0
  else finite negative (2 ^ 52 + fraction) (field - 1)

end Binary64

end Tidemark
