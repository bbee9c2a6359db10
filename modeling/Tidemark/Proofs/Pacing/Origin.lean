import Tidemark.Config
import Tidemark.Pacing

/-!
# The first event is due

A pace starts from the instant and the timestamp of the first event. There the gap is a zero, whatever the
timestamp and whatever the speed, as long as it is finite: no time has passed, a finite number less itself is
zero, and the timestamps of 64 bits are finite numbers (`isFinite_ofInt`). So the first event is sent as soon
as it is pulled (`decide_origin`).
-/

namespace Tidemark

namespace Binary64

/-- A zero divided by anything is that zero. -/
theorem ofQuotient_zero (negative : Bool) (den : Nat) : ofQuotient negative 0 den = finite negative 0 0 := by
  have hrounded : divNearestEven 0 (den * 2 ^ 0) = 0 := by simp [divNearestEven]
  have hlog : Nat.log2 0 - 52 = 0 := by decide
  simp only [ofQuotient, Nat.zero_div, hlog, hrounded]
  rfl

/-- What is in the lower half of the range is rounded to a finite number. -/
theorem isFinite_ofQuotient {negative : Bool} {num den : Nat} (h : num / den < 2 ^ (maxExponent + 52)) :
    (ofQuotient negative num den).isFinite := by
  -- the carry of a rounding adds one to the exponent at most
  have hexponent : Nat.log2 (num / den) - 52 + 1 ≤ maxExponent := by
    by_cases hzero : num / den = 0
    · rw [hzero]
      decide
    · have hlog := (Nat.log2_lt hzero).2 h
      rw [maxExponent] at hlog ⊢
      omega
  unfold ofQuotient
  dsimp only
  split
  · rw [if_neg (by omega)]
    rfl
  · rw [if_neg (by omega)]
    rfl

/-- An integer of 64 bits is a finite number. -/
theorem isFinite_ofInt {z : Int} (hz : z.natAbs ≤ 2 ^ 63) : (ofInt z).isFinite := by
  refine isFinite_ofQuotient ?_
  have hpow (k : Nat) (hk : 63 + k < maxExponent + 52) : z.natAbs * 2 ^ k < 2 ^ (maxExponent + 52) :=
    calc z.natAbs * 2 ^ k ≤ 2 ^ 63 * 2 ^ k := Nat.mul_le_mul_right _ hz
      _ = 2 ^ (63 + k) := (Nat.pow_add 2 63 k).symm
      _ < 2 ^ (maxExponent + 52) := Nat.pow_lt_pow_right (by decide) hk
  rw [one, Nat.div_one]
  exact hpow 1074 (by decide)

/-- A finite number less itself is zero. -/
theorem sub_self {x : Binary64} (hx : x.isFinite) : x - x = zero := by
  cases x with
  | finite s m p =>
    have hsum : signed s (m * 2 ^ p) + signed (!s) (m * 2 ^ p) = 0 := by
      generalize m * 2 ^ p = n
      cases s
      · exact Int.add_right_neg n
      · exact Int.add_left_neg n
    change add (finite s m p) (finite (!s) m p) = zero
    simp [add, hsum, zero]
  | _ => simp [isFinite] at hx

/-- Zero times a finite number is a zero. -/
theorem zero_mul {x : Binary64} (hx : x.isFinite) : ∃ s, zero * x = finite s 0 0 := by
  cases x with
  | finite s m p =>
    refine ⟨false != s, ?_⟩
    change mul zero (finite s m p) = _
    simp only [zero, mul, Nat.zero_mul, ofQuotient_zero]
  | _ => simp [isFinite] at hx

end Binary64

namespace Pace

/-- A timestamp in milliseconds is a finite number. -/
theorem isFinite_millis (t : Timestamp) : (Binary64.ofInt t.millis).isFinite := by
  refine Binary64.isFinite_ofInt ?_
  have hle := t.le_millis
  have hge := t.millis_le
  omega

/-- The event that a pace starts from is due at once. -/
theorem decide_origin {p : Pace} (hp : p.speedup.isFinite) :
    ∃ gap, p.decide p.wallZero p.logZero = .due gap := by
  have helapsed : (p.wallZero.since p.wallZero).toSeconds * thousand = Binary64.zero := by
    rw [Instant.since, Nat.sub_self]
    decide +kernel
  obtain ⟨s, hs⟩ := Binary64.zero_mul hp
  have hgap : p.gap p.wallZero p.logZero = Binary64.finite s 0 0 - Binary64.zero := by
    simp only [gap, helapsed, hs, Binary64.sub_self (isFinite_millis p.logZero)]
  have hdue : Binary64.zero.atMost (p.gap p.wallZero p.logZero) = true := by
    rw [hgap]
    cases s <;> decide
  exact ⟨_, if_pos hdue⟩

end Pace

/-- The speedup of a valid configuration is finite. -/
theorem ReplayConfig.isFinite_speedup {c : ReplayConfig} (hc : c.validate = .ok ()) :
    c.speedup.isFinite := by
  cases hfinite : c.speedup.isFinite with
  | true => rfl
  | false =>
    have hfault : c.fault? = some (.speedup c.speedup) := by
      rw [fault?, if_pos]
      simp [hfinite]
    rw [validate, hfault] at hc
    exact absurd hc (by simp)

end Tidemark
