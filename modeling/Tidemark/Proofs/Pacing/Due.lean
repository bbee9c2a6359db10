import Tidemark.Proofs.Pacing.Rounding

/-!
# What is due stays due

The gap of an event is the running time in event time less the distance of its timestamp, each operation
rounded. It grows with the instant and falls with the timestamp (`gap_mono`), since every one of the
operations is monotone:

```
now ──> seconds + nanoseconds / 10^9 ──> * 1000 ──> * speedup ──┐
                                                                ├──> -  ──>  gap
timestamp ─────────────────────────────────────────> - origin ──┘
```

The seconds of a span are the one step that is not monotone by itself: at the end of a second the fraction
falls back to zero. There the sum grows because a fraction stays below one (`toSeconds_mono`). So an event that
is due is due at every later instant, and with it every event that is not newer (`due_of_due`).
-/

namespace Tidemark

namespace Binary64

/-- A natural number of 53 bits is a binary64 number. -/
theorem ofNat_exact {n : Nat} (hn : n < 2 ^ 53) :
    ∃ m p, ofNat n = finite false m p ∧ m * 2 ^ p = n * one := by
  obtain ⟨k, -, hk⟩ := one_eq
  have hunits : nearestUnits (n * one) 1 = n * one := by
    rw [hk]
    exact nearestUnits_of_multiple hn k
  have hlt : n * one < ceiling :=
    calc n * one < 2 ^ 53 * one := Nat.mul_lt_mul_of_pos_right hn one_pos
      _ < ceiling := two_pow_mul_one_lt_ceiling (by decide)
  rcases ofQuotient_cases false (n * one) Nat.one_pos with ⟨hle, -⟩ | ⟨m, p, heq, -, hmag⟩
  · rw [hunits] at hle
    exact absurd hle (Nat.not_le.2 hlt)
  · exact ⟨m, p, heq, hmag.trans hunits⟩

/-- A positive natural number of 53 bits is a positive number. -/
theorem ofNat_pos {n : Nat} (hpos : 0 < n) (hn : n < 2 ^ 53) :
    ∃ m p, ofNat n = finite false m p ∧ m ≠ 0 ∧ m * 2 ^ p = n * one := by
  obtain ⟨m, p, hm, hmag⟩ := ofNat_exact hn
  refine ⟨m, p, hm, ?_, hmag⟩
  rintro rfl
  rw [Nat.zero_mul] at hmag
  exact absurd hmag.symm (Nat.ne_of_gt (Nat.mul_pos hpos one_pos))

end Binary64

namespace Span

open Binary64

/-! ### The fraction of a second -/

/-- The nanoseconds of a span as a fraction of a second. -/
def fraction (n : Nat) : Binary64 := ofNat n / ofNat nanosPerSecond

/-- The seconds of a span are its whole seconds and the fraction. -/
theorem toSeconds_eq (d : Span) : d.toSeconds = ofNat d.seconds + fraction d.subsecond := rfl

theorem nanos_pos : 0 < nanosPerSecond * one := Nat.mul_pos (by decide) Binary64.one_pos

/-- The fraction of a second is one rounded quotient. -/
theorem fraction_eq {n : Nat} (hn : n < nanosPerSecond) :
    fraction n = ofQuotient false (n * one * one) (nanosPerSecond * one) := by
  obtain ⟨m, p, hn', hmag⟩ := ofNat_exact (Nat.lt_trans hn (by decide))
  obtain ⟨m', p', hs, hne, hmag'⟩ := ofNat_pos (n := nanosPerSecond) (by decide) (by decide)
  rw [fraction, hn', hs]
  change div (finite false m p) (finite false m' p') = _
  rw [div, if_neg hne, hmag, hmag', Bool.bne_false]

/-- The fraction of a second is finite, not negative and less than one. -/
theorem fraction_bounds {n : Nat} (hn : n < nanosPerSecond) :
    (fraction n).isFinite ∧ ∃ f : Nat, (fraction n).place = f ∧ f < one := by
  have hle : nearestUnits (n * one * one) (nanosPerSecond * one) < one :=
    calc nearestUnits (n * one * one) (nanosPerSecond * one)
        ≤ nearestUnits (999999999 * one * one) (nanosPerSecond * one) := by
          refine nearestUnits_mono nanos_pos nanos_pos (Nat.mul_le_mul_right _ (Nat.mul_le_mul_right _ ?_))
          exact Nat.mul_le_mul_right _ (Nat.le_of_lt_succ hn)
      _ < one := by decide +kernel
  rw [fraction_eq hn]
  rcases ofQuotient_cases false (n * one * one) nanos_pos with ⟨hge, -⟩ | ⟨m, p, heq, -, hmag⟩
  · have hone : 2 ^ 0 * one < ceiling := two_pow_mul_one_lt_ceiling (by decide)
    omega
  · rw [heq]
    exact ⟨rfl, m * 2 ^ p, rfl, hmag ▸ hle⟩

/-- Fractions of a second are in the order of the nanoseconds. -/
theorem fraction_mono {n n' : Nat} (h : n ≤ n') (hn : n' < nanosPerSecond) :
    (fraction n).place ≤ (fraction n').place := by
  rw [fraction_eq hn, fraction_eq (Nat.lt_of_le_of_lt h hn), place_ofQuotient _ _ nanos_pos,
    place_ofQuotient _ _ nanos_pos]
  refine grade_mono nanos_pos (Int.ofNat_le.2 ?_)
  exact Nat.mul_le_mul_right _ (Nat.mul_le_mul_right _ h)

/-! ### Seconds -/

theorem subsecond_lt (d : Span) : d.subsecond < nanosPerSecond := Nat.mod_lt _ (by decide)

theorem isNumber_toSeconds (d : Span) : d.toSeconds.IsNumber :=
  isNumber_add (isNumber_ofNat _) (fraction_bounds d.subsecond_lt).1

/-- From `2 ^ 53` on the seconds are even. -/
theorem exists_of_large {s : Nat} (hs : 2 ^ 53 ≤ s) (hfinite : (ofNat s).isFinite) :
    ∃ m p, ofNat s = finite false m p ∧ (finite false m p).Canonical ∧ 2 * one ≤ 2 ^ p := by
  rcases ofQuotient_cases false (s * one) Nat.one_pos with ⟨-, heq⟩ | ⟨m, p, heq, hc, -⟩
  · rw [ofNat, ofRatio, heq] at hfinite
    exact absurd hfinite (by decide)
  · refine ⟨m, p, heq, hc, ?_⟩
    have hle : (2 ^ 53 * one : Nat) ≤ (m * 2 ^ p : Nat) := by
      have hmono : (ofNat (2 ^ 53)).place ≤ (ofNat s).place := ofNat_mono hs
      rw [place_ofNat, grade_natCast, nearestUnits_two_pow,
        Nat.min_eq_left (Nat.le_of_lt (two_pow_mul_one_lt_ceiling (k := 53) (by decide))),
        show ofNat s = finite false m p from heq] at hmono
      exact Int.ofNat_le.1 hmono
    -- a significand below `2 ^ 53` needs a larger exponent to get there
    have hlt : one < 2 ^ p := by
      refine Nat.lt_of_mul_lt_mul_left (a := 2 ^ 53) (Nat.lt_of_le_of_lt hle ?_)
      exact Nat.mul_lt_mul_of_pos_right hc.1 (Nat.two_pow_pos p)
    obtain ⟨k, -, hk⟩ := one_eq
    rw [hk] at hlt ⊢
    have hkp : k < p := (Nat.pow_lt_pow_iff_right (by decide)).1 hlt
    calc 2 * 2 ^ k = 2 ^ (k + 1) := by rw [Nat.pow_succ, Nat.mul_comm]
      _ ≤ 2 ^ p := Nat.pow_le_pow_right (by decide) hkp

/-- A fraction of a second does not go beyond the next second. -/
theorem place_add_fraction_le (s : Nat) {n : Nat} (hn : n < nanosPerSecond) :
    (ofNat s + fraction n).place ≤ (ofNat (s + 1)).place := by
  obtain ⟨hfinite, f, hf, hlt⟩ := fraction_bounds hn
  have hnext : (ofNat s).place ≤ (ofNat (s + 1)).place := ofNat_mono (Nat.le_succ s)
  rcases (isNumber_ofNat s).isFinite_or with hs | ⟨t, hs⟩
  · rw [place_add hs hfinite, hf]
    rcases Nat.lt_or_ge s (2 ^ 53) with hsmall | hlarge
    · -- the second is exact, and so the sum is at most the next one before it is rounded
      obtain ⟨m, p, hm, hmag⟩ := ofNat_exact hsmall
      have hplace : (ofNat s).place = (s * one : Nat) := by
        rw [hm, place, hmag]
        rfl
      rw [hplace, place_ofNat]
      refine grade_mono Nat.one_pos ?_
      rw [Nat.succ_mul]
      omega
    · -- the steps are of two seconds or more, and the fraction is less than half of one
      obtain ⟨m, p, hm, hc, hp⟩ := exists_of_large hlarge hs
      have hround : (ofNat s + fraction n).place = (ofNat s).place := by
        have hsum : (finite false m p).place + (f : Int) = (m * 2 ^ p + f : Nat) := by
          rw [place, Int.natCast_add]
          rfl
        have hclose : 2 * f < 2 ^ p := by omega
        rw [place_add hs hfinite, hf, hm, hsum, grade_natCast,
          nearestUnits_of_close (hc.2.1.resolve_right ?_) hc.1 hclose, Nat.min_eq_left (Nat.le_of_lt hc.lt_ceiling)]
        · rfl
        · rintro rfl
          omega
      rw [← hf, ← place_add hs hfinite, hround]
      exact hnext
  · rw [hs, infinite_add t hfinite, ← hs]
    exact hnext

/-- The seconds of a span grow with it. -/
theorem toSeconds_mono {d d' : Span} (h : d ≤ d') : d.toSeconds.place ≤ d'.toSeconds.place := by
  have hfinite := (fraction_bounds d.subsecond_lt).1
  obtain ⟨hfinite', f, hf, -⟩ := fraction_bounds d'.subsecond_lt
  have hnanos : d.nanos ≤ d'.nanos := h
  rw [toSeconds_eq, toSeconds_eq]
  rcases Nat.lt_or_eq_of_le (Nat.div_le_div_right (c := nanosPerSecond) hnanos) with hlt | heq
  · have hgrows : (ofNat d'.seconds).place ≤ (ofNat d'.seconds + fraction d'.subsecond).place :=
      le_place_add (isNumber_ofNat _) hfinite' (by rw [hf]; exact Int.natCast_nonneg f)
    calc (ofNat d.seconds + fraction d.subsecond).place
        ≤ (ofNat (d.seconds + 1)).place := place_add_fraction_le _ d.subsecond_lt
      _ ≤ (ofNat d'.seconds).place := ofNat_mono hlt
      _ ≤ _ := hgrows
  · have hseconds : d.seconds = d'.seconds := heq
    have hsub : d.subsecond ≤ d'.subsecond := by
      have hd := Nat.div_add_mod d.nanos nanosPerSecond
      have hd' := Nat.div_add_mod d'.nanos nanosPerSecond
      rw [subsecond, subsecond]
      rw [heq] at hd
      omega
    rw [hseconds]
    exact add_mono (isNumber_ofNat _) (isNumber_ofNat _) hfinite hfinite' (Int.le_refl _)
      (fraction_mono hsub d'.subsecond_lt)

end Span

namespace Pace

open Binary64

variable {p : Pace} {now now' : Instant} {t t' : Timestamp}

theorem thousand_pos : ∃ k e, thousand = finite false k e ∧ k ≠ 0 := by
  obtain ⟨k, e, heq, hne, -⟩ := ofNat_pos (n := 1000) (by decide) (by decide)
  exact ⟨k, e, heq, hne⟩

/-- The running time in event time. -/
theorem isNumber_elapsed (hfinite : p.speedup.isFinite) (hpos : zero.less p.speedup = true)
    (now : Instant) : ((now.since p.wallZero).toSeconds * thousand * p.speedup).IsNumber := by
  obtain ⟨n, q, hspeed, hn⟩ := pos_of_less hfinite hpos
  obtain ⟨k, e, hthousand, hk⟩ := thousand_pos
  rw [hspeed, hthousand]
  exact isNumber_mul (isNumber_mul (Span.isNumber_toSeconds _) hk) hn

/-- The running time in event time grows with the instant. -/
theorem elapsed_mono (hfinite : p.speedup.isFinite) (hpos : zero.less p.speedup = true) (h : now ≤ now') :
    ((now.since p.wallZero).toSeconds * thousand * p.speedup).place ≤
      ((now'.since p.wallZero).toSeconds * thousand * p.speedup).place := by
  obtain ⟨n, q, hspeed, hn⟩ := pos_of_less hfinite hpos
  obtain ⟨k, e, hthousand, hk⟩ := thousand_pos
  have hsince : now.since p.wallZero ≤ now'.since p.wallZero := Nat.sub_le_sub_right h _
  rw [hspeed, hthousand]
  refine mul_mono (isNumber_mul (Span.isNumber_toSeconds _) hk) (isNumber_mul (Span.isNumber_toSeconds _) hk) hn ?_
  exact mul_mono (Span.isNumber_toSeconds _) (Span.isNumber_toSeconds _) hk (Span.toSeconds_mono hsince)

/-- A timestamp is no farther from zero than two to the 63rd milliseconds. -/
theorem place_millis (t : Timestamp) : (ofInt t.millis).place.natAbs ≤ 2 ^ 63 * one := by
  refine natAbs_place_ofInt_le ?_
  have hleast := t.le_millis
  have hmost := t.millis_le
  omega

/-- The distance of a timestamp from the first one is in range. -/
theorem isFinite_distance (t t₀ : Timestamp) : (ofInt t.millis - ofInt t₀.millis).isFinite := by
  refine isFinite_sub (isFinite_millis t) (isFinite_millis t₀) ?_
  have ht := place_millis t
  have ht₀ := place_millis t₀
  calc ((ofInt t.millis).place - (ofInt t₀.millis).place).natAbs
      ≤ (ofInt t.millis).place.natAbs + (ofInt t₀.millis).place.natAbs := by omega
    _ ≤ 2 ^ 63 * one + 2 ^ 63 * one := Nat.add_le_add ht ht₀
    _ = 2 ^ 64 * one := by omega
    _ < 2 ^ (maxExponent + 52) := two_pow_mul_one_lt (by decide)

/-- An older event is no farther from the first one. -/
theorem distance_mono (t₀ : Timestamp) (h : t' ≤ t) :
    (ofInt t'.millis - ofInt t₀.millis).place ≤ (ofInt t.millis - ofInt t₀.millis).place :=
  sub_mono (isNumber_ofInt _) (isNumber_ofInt _) (isFinite_millis t₀) (isFinite_millis t₀) (ofInt_mono h)
    (Int.le_refl _)

variable (hfinite : p.speedup.isFinite) (hpos : zero.less p.speedup = true)
include hfinite hpos

theorem isNumber_gap (now : Instant) (t : Timestamp) : (p.gap now t).IsNumber :=
  isNumber_sub (isNumber_elapsed hfinite hpos now) (isFinite_distance t p.logZero)

/-- The gap grows with the instant, and falls with the timestamp. -/
theorem gap_mono (hnow : now ≤ now') (ht : t' ≤ t) : (p.gap now t).place ≤ (p.gap now' t').place :=
  sub_mono (isNumber_elapsed hfinite hpos now) (isNumber_elapsed hfinite hpos now')
    (isFinite_distance t p.logZero) (isFinite_distance t' p.logZero) (elapsed_mono hfinite hpos hnow)
    (distance_mono p.logZero ht)

/-- What is due at an instant is due at every later one, and so is what is not newer. -/
theorem due_of_due (hnow : now ≤ now') (ht : t' ≤ t) {gap : Binary64} (hdue : p.decide now t = .due gap) :
    ∃ gap', p.decide now' t' = .due gap' := by
  have hgap : zero.atMost (p.gap now t) = true := by
    by_contra hlate
    rw [decide, if_neg hlate] at hdue
    exact absurd hdue (by simp)
  have hplace := (atMost_iff (isNumber_zero false) (isNumber_gap hfinite hpos now t)).1 hgap
  have hlater : zero.atMost (p.gap now' t') = true :=
    (atMost_iff (isNumber_zero false) (isNumber_gap hfinite hpos now' t')).2
      (Int.le_trans hplace (gap_mono hfinite hpos hnow ht))
  exact ⟨p.gap now' t', if_pos hlater⟩

end Pace

/-- The speedup of a valid configuration is positive. -/
theorem ReplayConfig.speedup_pos {c : ReplayConfig} (hc : c.validate = .ok ()) :
    Binary64.zero.less c.speedup = true := by
  have hfinite := isFinite_speedup hc
  by_contra hpos
  have hfault : c.fault? = some (.speedup c.speedup) := by
    rw [fault?, if_pos]
    cases hspeed : c.speedup with
    | finite s m p =>
      rw [hspeed, Binary64.zero, Binary64.less, decide_eq_true_iff, Nat.zero_mul, Binary64.signed_zero] at hpos
      simpa [Binary64.isFinite, Binary64.atMost, Binary64.zero] using hpos
    | _ => simp [hspeed, Binary64.isFinite] at hfinite
  rw [validate, hfault] at hc
  exact absurd hc (by simp)

end Tidemark
