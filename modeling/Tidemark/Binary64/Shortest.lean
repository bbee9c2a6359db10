import Tidemark.Binary64.Basic

/-!
# The fewest digits that read back

A finite binary64 number is the rounding of every real in an interval around it: from halfway to its
lower neighbour to halfway to its upper one, the ends included when its significand is even. The
shortest decimal of the number is the one with the fewest digits in that interval, and among those
the one nearest to the number.

`shortest` walks over the decimal grids `10 ^ k`, coarsest first, and tests the two neighbours of the
number on each grid. All comparisons are of naturals, by cross-multiplication.
-/

namespace Tidemark

/-- The non-negative decimal `digits * 10 ^ power`. -/
structure Decimal where
  digits : Nat
  power : Int
  deriving DecidableEq, Repr

namespace Decimal

/-- Moves trailing zeros of the digits into the power, as many as the fuel allows. -/
def strip : Nat → Decimal → Decimal
  | 0, d => d
  | fuel + 1, d =>
    if d.digits ≠ 0 ∧ d.digits % 10 = 0 then strip fuel ⟨d.digits / 10, d.power + 1⟩ else d

end Decimal

namespace Binary64

/-- The reals that round to a positive finite number, in quarters of `2 ^ -1074`, with the number
itself; `closed` when the ends belong to it. -/
structure Interval where
  low : Nat
  value : Nat
  high : Nat
  closed : Bool

/-- The interval of `significand * 2 ^ exponent`. Below a power of two the gap is half as wide. -/
def Interval.of (significand exponent : Nat) : Interval :=
  let gap := 2 ^ exponent
  let value := 4 * significand * gap
  let below := if significand = 2 ^ 52 ∧ 0 < exponent then gap else 2 * gap
  ⟨value - below, value, value + 2 * gap, significand % 2 = 0⟩

/-- A decimal and a number of quarter units as naturals of one scale. -/
def scales (d : Decimal) (quarters : Nat) : Nat × Nat :=
  if 0 ≤ d.power then (d.digits * 10 ^ d.power.toNat * (4 * one), quarters)
  else (d.digits * (4 * one), quarters * 10 ^ (-d.power).toNat)

/-- Whether the decimal lies in the interval, so that it reads back as the number. -/
def Interval.holds (i : Interval) (d : Decimal) : Bool :=
  let (d₁, low) := scales d i.low
  let (d₂, high) := scales d i.high
  if i.closed then low ≤ d₁ && d₂ ≤ high else low < d₁ && d₂ < high

/-- The largest grid point at or below the number, on the grid `10 ^ power`. -/
def Interval.floorOn (i : Interval) (power : Int) : Decimal :=
  let (unit, value) := scales ⟨1, power⟩ i.value
  ⟨value / unit, power⟩

/-- Of the two neighbours of the number on the grid, those that read back; of two the nearer, the
upper one on a tie. -/
def Interval.pick? (i : Interval) (power : Int) : Option Decimal :=
  let lower := i.floorOn power
  let upper : Decimal := ⟨lower.digits + 1, power⟩
  match i.holds lower && lower.digits ≠ 0, i.holds upper with
  | true, false => some lower
  | false, true => some upper
  | false, false => none
  | true, true =>
    let (sum, twice) := scales ⟨lower.digits + upper.digits, power⟩ (2 * i.value)
    some (if twice < sum then lower else upper)

/-- The least `k` with the number below `10 ^ k`, from an estimate that is corrected upward. -/
def Interval.scale (i : Interval) : Int :=
  let bits : Int := (Nat.log2 i.value : Int) - 1076
  let estimate := bits * 30103 / 100000
  let below (k : Int) : Bool := let (p, v) := scales ⟨1, k⟩ i.value; v < p
  if below estimate then estimate
  else if below (estimate + 1) then estimate + 1
  else estimate + 2

/-- The shortest decimal of the magnitude `significand * 2 ^ exponent` in units of `2 ^ -1074`.
Seventeen digits always suffice for a canonical number. -/
def shortest (significand exponent : Nat) : Decimal :=
  if significand = 0 then ⟨0, 0⟩
  else
    let i := Interval.of significand exponent
    let k := i.scale
    let found := (List.range 18).findSome? fun n : Nat => i.pick? (k - n)
    (found.getD (i.floorOn (k - 18))).strip 20

end Binary64

end Tidemark
