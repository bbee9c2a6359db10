import Mathlib.Tactic.Ring
import Tidemark.Proofs.Pacing.Origin

/-!
# Rounding is monotone

A number has a place among the integers: its multiple of the unit `2 ^ -1074`, an infinity the first multiple
that is out of range. Every operation takes the places of its terms to the grade of an exact fraction:

```
place (ofInt z)  =  grade (z * 2 ^ 1074) 1
place (x + y)    =  grade (place x + place y) 1
place (x * c)    =  grade (place x * place c) (2 ^ 1074)          x, y, c finite, 0 < c
```

`grade_mono` says that grades are in the order of the fractions. So a sum is monotone in both its terms
(`add_mono`) and a product with a positive number in the other factor (`mul_mono`), out of range as well. A
number that the format has is its own rounding (`nearestUnits_of_multiple`), and so is one that lies less than
half a step above it (`nearestUnits_of_close`).
-/

namespace Tidemark

/-! ### Rounded quotients -/

/-- Quotients are in the order of the fractions. -/
theorem div_le_div_of_mul_le {num den num' den' : Nat} (hden : 0 < den) (hden' : 0 < den')
    (h : num * den' ≤ num' * den) : num / den ≤ num' / den' := by
  rw [Nat.le_div_iff_mul_le hden']
  refine Nat.le_of_mul_le_mul_right ?_ hden
  calc num / den * den' * den = num / den * den * den' := Nat.mul_right_comm _ _ _
    _ ≤ num * den' := Nat.mul_le_mul_right _ (Nat.div_mul_le_self num den)
    _ ≤ num' * den := h

theorem divNearestEven_mul (q : Nat) {den : Nat} (hden : 0 < den) : divNearestEven (q * den) den = q := by
  simp [divNearestEven, Nat.mul_div_cancel q hden, hden]

/-- A remainder below one half is dropped. -/
theorem divNearestEven_of_close {q r den : Nat} (hr : 2 * r < den) : divNearestEven (q * den + r) den = q := by
  have hlt : r < den := by omega
  have hdiv : (q * den + r) / den = q := by
    rw [Nat.add_comm, Nat.add_mul_div_right _ _ (Nat.zero_lt_of_lt hlt), Nat.div_eq_of_lt hlt, Nat.zero_add]
  have hmod : (q * den + r) % den = r := by
    rw [Nat.add_comm, Nat.add_mul_mod_self_right, Nat.mod_eq_of_lt hlt]
  rw [divNearestEven, hdiv, hmod]
  exact if_pos hr

/-- A quotient is rounded down or up by one at most. -/
theorem divNearestEven_cases (num den : Nat) :
    divNearestEven num den = num / den ∨ divNearestEven num den = num / den + 1 := by
  simp only [divNearestEven]
  split
  · exact Or.inl rfl
  · split
    · exact Or.inr rfl
    · rcases Nat.mod_two_eq_zero_or_one (num / den) with h | h <;> rw [h]
      · exact Or.inl rfl
      · exact Or.inr rfl

/-- Rounded quotients are in the order of the fractions. -/
theorem divNearestEven_mono {num den num' den' : Nat} (hden : 0 < den) (hden' : 0 < den')
    (h : num * den' ≤ num' * den) : divNearestEven num den ≤ divNearestEven num' den' := by
  rcases Nat.lt_or_eq_of_le (div_le_div_of_mul_le hden hden' h) with hlt | heq
  · have hup := divNearestEven_cases num den
    have hdown := divNearestEven_cases num' den'
    omega
  · -- the same floor: the remainders are in the order of the fractions
    have hrem : num % den * den' ≤ num' % den' * den := by
      have hn : num * den' = den * (num / den) * den' + num % den * den' := by
        rw [← Nat.add_mul, Nat.div_add_mod]
      have hn' : num' * den = den' * (num' / den') * den + num' % den' * den := by
        rw [← Nat.add_mul, Nat.div_add_mod]
      have hsame : den * (num / den) * den' = den' * (num' / den') * den := by
        rw [heq]
        ring
      omega
    have hbelow : 2 * (num' % den') < den' → 2 * (num % den) < den := by
      intro hlt
      refine Nat.lt_of_mul_lt_mul_right (a := den') ?_
      calc 2 * (num % den) * den' = 2 * (num % den * den') := Nat.mul_assoc _ _ _
        _ ≤ 2 * (num' % den' * den) := Nat.mul_le_mul_left 2 hrem
        _ = 2 * (num' % den') * den := (Nat.mul_assoc _ _ _).symm
        _ < den' * den := Nat.mul_lt_mul_of_pos_right hlt hden
        _ = den * den' := Nat.mul_comm _ _
    have habove : den < 2 * (num % den) → den' < 2 * (num' % den') := by
      intro hlt
      refine Nat.lt_of_mul_lt_mul_right (a := den) ?_
      calc den' * den = den * den' := Nat.mul_comm _ _
        _ < 2 * (num % den) * den' := Nat.mul_lt_mul_of_pos_right hlt hden'
        _ = 2 * (num % den * den') := Nat.mul_assoc _ _ _
        _ ≤ 2 * (num' % den' * den) := Nat.mul_le_mul_left 2 hrem
        _ = 2 * (num' % den') * den := (Nat.mul_assoc _ _ _).symm
    simp only [divNearestEven, heq]
    split_ifs <;> omega

namespace Binary64

/-! ### The magnitude of a rounded quotient -/

/-- The exponent that a quotient is rounded at. -/
def exponentOf (num den : Nat) : Nat :=
  Nat.log2 (num / den) - 52

/-- The magnitude of a rounded quotient in units, whether or not it is in range. -/
def nearestUnits (num den : Nat) : Nat :=
  divNearestEven num (den * 2 ^ exponentOf num den) * 2 ^ exponentOf num den

/-- The first magnitude that is out of range. -/
def ceiling : Nat := 2 ^ (maxExponent + 53)

variable {num den num' den' : Nat}

/-- A significand has 53 bits, or is the first number that has more. -/
theorem significand_le (num : Nat) (hden : 0 < den) : divNearestEven num (den * 2 ^ exponentOf num den) ≤ 2 ^ 53 := by
  have hpos : 0 < den * 2 ^ exponentOf num den := Nat.mul_pos hden (Nat.two_pow_pos _)
  have hlt : num / den < 2 ^ (53 + exponentOf num den) := by
    refine Nat.lt_of_lt_of_le Nat.lt_log2_self (Nat.pow_le_pow_right (by decide) ?_)
    rw [exponentOf]
    omega
  have hnum : num ≤ 2 ^ 53 * (den * 2 ^ exponentOf num den) :=
    calc num ≤ 2 ^ (53 + exponentOf num den) * den := Nat.le_of_lt ((Nat.div_lt_iff_lt_mul hden).1 hlt)
      _ = 2 ^ 53 * (den * 2 ^ exponentOf num den) := by
        rw [Nat.pow_add, Nat.mul_assoc, Nat.mul_comm (2 ^ exponentOf num den) den]
  calc divNearestEven num (den * 2 ^ exponentOf num den)
      ≤ divNearestEven (2 ^ 53 * (den * 2 ^ exponentOf num den)) (den * 2 ^ exponentOf num den) :=
        divNearestEven_mono hpos hpos (Nat.mul_le_mul_right _ hnum)
    _ = 2 ^ 53 := divNearestEven_mul _ hpos

/-- Above the least exponent a significand has all its bits. -/
theorem le_significand (num : Nat) (hden : 0 < den) (he : 0 < exponentOf num den) :
    2 ^ 52 ≤ divNearestEven num (den * 2 ^ exponentOf num den) := by
  have hpos : 0 < den * 2 ^ exponentOf num den := Nat.mul_pos hden (Nat.two_pow_pos _)
  have hlog : Nat.log2 (num / den) = 52 + exponentOf num den := by
    rw [exponentOf] at he ⊢
    omega
  have hzero : num / den ≠ 0 := by
    intro h
    rw [h, Nat.log2_zero] at hlog
    omega
  have hnum : 2 ^ 52 * (den * 2 ^ exponentOf num den) ≤ num :=
    calc 2 ^ 52 * (den * 2 ^ exponentOf num den) = 2 ^ (52 + exponentOf num den) * den := by
          rw [Nat.pow_add, Nat.mul_assoc, Nat.mul_comm (2 ^ exponentOf num den) den]
      _ = 2 ^ Nat.log2 (num / den) * den := by rw [hlog]
      _ ≤ num / den * den := Nat.mul_le_mul_right _ (Nat.log2_self_le hzero)
      _ ≤ num := Nat.div_mul_le_self num den
  calc 2 ^ 52 = divNearestEven (2 ^ 52 * (den * 2 ^ exponentOf num den)) (den * 2 ^ exponentOf num den) :=
        (divNearestEven_mul _ hpos).symm
    _ ≤ divNearestEven num (den * 2 ^ exponentOf num den) :=
        divNearestEven_mono hpos hpos (Nat.mul_le_mul_right _ hnum)

/-- Greater fractions are rounded at no smaller exponents. -/
theorem exponentOf_mono (hden : 0 < den) (hden' : 0 < den') (h : num * den' ≤ num' * den) :
    exponentOf num den ≤ exponentOf num' den' := by
  have hfloor := div_le_div_of_mul_le hden hden' h
  refine Nat.sub_le_sub_right ?_ 52
  by_cases hzero : num / den = 0
  · rw [hzero, Nat.log2_zero]
    exact Nat.zero_le _
  · have hpos : num' / den' ≠ 0 := by
      generalize num / den = q at hzero hfloor
      omega
    exact (Nat.le_log2 hpos).2 (Nat.le_trans (Nat.log2_self_le hzero) hfloor)

/-- Rounding is monotone. -/
theorem nearestUnits_mono (hden : 0 < den) (hden' : 0 < den') (h : num * den' ≤ num' * den) :
    nearestUnits num den ≤ nearestUnits num' den' := by
  rw [nearestUnits, nearestUnits]
  rcases Nat.lt_or_eq_of_le (exponentOf_mono hden hden' h) with hlt | heq
  · -- the power of two between the exponents separates the results
    calc divNearestEven num (den * 2 ^ exponentOf num den) * 2 ^ exponentOf num den
        ≤ 2 ^ 53 * 2 ^ exponentOf num den := Nat.mul_le_mul_right _ (significand_le num hden)
      _ = 2 ^ 52 * 2 ^ (exponentOf num den + 1) := by rw [Nat.pow_succ]; omega
      _ ≤ 2 ^ 52 * 2 ^ exponentOf num' den' :=
          Nat.mul_le_mul_left _ (Nat.pow_le_pow_right (by decide) hlt)
      _ ≤ _ := Nat.mul_le_mul_right _ (le_significand num' hden' (Nat.zero_lt_of_lt hlt))
  · rw [← heq]
    refine Nat.mul_le_mul_right _ (divNearestEven_mono ?_ ?_ ?_)
    · exact Nat.mul_pos hden (Nat.two_pow_pos _)
    · exact Nat.mul_pos hden' (Nat.two_pow_pos _)
    · calc num * (den' * 2 ^ exponentOf num den) = num * den' * 2 ^ exponentOf num den :=
            (Nat.mul_assoc _ _ _).symm
        _ ≤ num' * den * 2 ^ exponentOf num den := Nat.mul_le_mul_right _ h
        _ = num' * (den * 2 ^ exponentOf num den) := Nat.mul_assoc _ _ _

@[simp] theorem nearestUnits_zero (den : Nat) : nearestUnits 0 den = 0 := by
  simp [nearestUnits, divNearestEven]

/-- What the format has is its own rounding. -/
theorem nearestUnits_of_multiple {m : Nat} (hm : m < 2 ^ 53) (p : Nat) :
    nearestUnits (m * 2 ^ p) 1 = m * 2 ^ p := by
  have he : exponentOf (m * 2 ^ p) 1 ≤ p := by
    rw [exponentOf, Nat.div_one]
    by_cases hzero : m * 2 ^ p = 0
    · rw [hzero, Nat.log2_zero]
      omega
    · have hlt : m * 2 ^ p < 2 ^ (53 + p) := by
        rw [Nat.pow_add]
        exact Nat.mul_lt_mul_of_pos_right hm (Nat.two_pow_pos p)
      have hlog := (Nat.log2_lt hzero).2 hlt
      omega
  have hsplit : m * 2 ^ p = m * 2 ^ (p - exponentOf (m * 2 ^ p) 1) * 2 ^ exponentOf (m * 2 ^ p) 1 := by
    rw [Nat.mul_assoc, ← Nat.pow_add, Nat.sub_add_cancel he]
  rw [nearestUnits, Nat.one_mul]
  generalize exponentOf (m * 2 ^ p) 1 = e at hsplit
  rw [hsplit, divNearestEven_mul _ (Nat.two_pow_pos e)]

/-- The exponent of the unit stands as a variable, so that no power of it is computed. -/
theorem one_eq : ∃ e, e = 1074 ∧ one = 2 ^ e := by
  refine ⟨1074, rfl, ?_⟩
  rw [one]

theorem one_pos : 0 < one := by
  obtain ⟨e, -, hone⟩ := one_eq
  rw [hone]
  exact Nat.two_pow_pos e

theorem nearestUnits_two_pow (k : Nat) : nearestUnits (2 ^ k * one) 1 = 2 ^ k * one := by
  obtain ⟨e, -, hone⟩ := one_eq
  rw [hone, ← Nat.pow_add, ← Nat.one_mul (2 ^ (k + e))]
  exact nearestUnits_of_multiple (by decide) _

/-- Powers of two in units compare by their exponents. -/
theorem two_pow_mul_one_lt {k n : Nat} (h : k + 1074 < n) : 2 ^ k * one < 2 ^ n := by
  obtain ⟨e, he, hone⟩ := one_eq
  rw [hone, ← Nat.pow_add]
  exact Nat.pow_lt_pow_right (by decide) (he ▸ h)

/-- The powers of two below the last exponent are in range. -/
theorem two_pow_mul_one_lt_ceiling {k : Nat} (h : k < 1024) : 2 ^ k * one < ceiling := by
  refine two_pow_mul_one_lt ?_
  rw [maxExponent]
  omega

/-- What lies less than half a step above a number that the format has is rounded to it. -/
theorem nearestUnits_of_close {m x p : Nat} (hge : 2 ^ 52 ≤ m) (hlt : m < 2 ^ 53) (hx : 2 * x < 2 ^ p) :
    nearestUnits (m * 2 ^ p + x) 1 = m * 2 ^ p := by
  have hlow : 2 ^ (52 + p) ≤ m * 2 ^ p + x := by
    rw [Nat.pow_add]
    exact Nat.le_add_right_of_le (Nat.mul_le_mul_right _ hge)
  have hhigh : m * 2 ^ p + x < 2 ^ (52 + p + 1) :=
    calc m * 2 ^ p + x < m * 2 ^ p + 2 ^ p := by omega
      _ = (m + 1) * 2 ^ p := (Nat.succ_mul m _).symm
      _ ≤ 2 ^ 53 * 2 ^ p := Nat.mul_le_mul_right _ hlt
      _ = 2 ^ (52 + p + 1) := by rw [← Nat.pow_add, Nat.add_right_comm]
  have hne : m * 2 ^ p + x ≠ 0 := Nat.ne_of_gt (Nat.lt_of_lt_of_le (Nat.two_pow_pos _) hlow)
  have he : exponentOf (m * 2 ^ p + x) 1 = p := by
    rw [exponentOf, Nat.div_one, (Nat.log2_eq_iff hne).2 ⟨hlow, hhigh⟩, Nat.add_sub_cancel_left]
  rw [nearestUnits, he, Nat.one_mul, divNearestEven_of_close hx]

/-! ### Places -/

/-- A number in units of `2 ^ -1074`, an infinity as the first multiple out of range. -/
def place : Binary64 → Int
  | nan => 0
  | infinite s => signed s ceiling
  | finite s m p => signed s (m * 2 ^ p)

/-- A number or an infinity, in the form that the format has for it. -/
def IsNumber (x : Binary64) : Prop :=
  x ≠ nan ∧ x.Canonical

/-- The place of the number nearest to an exact fraction of units. -/
def grade (num : Int) (den : Nat) : Int :=
  signed (num < 0) (min (nearestUnits num.natAbs den) ceiling)

@[simp] theorem signed_zero (s : Bool) : signed s 0 = 0 := by
  cases s <;> rfl

theorem signed_mul (s : Bool) (m n : Nat) : signed s (m * n) = signed s m * n := by
  cases s <;> simp [signed]

theorem signed_lt_zero {s : Bool} {n : Nat} (hn : n ≠ 0) : decide (signed s n < 0) = s := by
  cases s
  · simp [signed]
  · simp [signed, Nat.pos_of_ne_zero hn]

@[simp] theorem natAbs_signed (s : Bool) (n : Nat) : (signed s n).natAbs = n := by
  cases s <;> simp [signed]

theorem grade_signed (s : Bool) (num den : Nat) :
    grade (signed s num) den = signed s (min (nearestUnits num den) ceiling) := by
  rw [grade, natAbs_signed]
  by_cases hnum : num = 0
  · rw [hnum, nearestUnits_zero, Nat.zero_min, signed_zero, signed_zero]
  · rw [signed_lt_zero hnum]

theorem grade_natCast (n den : Nat) : grade n den = (min (nearestUnits n den) ceiling : Nat) :=
  grade_signed false n den

@[simp] theorem grade_zero (den : Nat) : grade 0 den = 0 := by
  simp [grade]

@[simp] theorem signed_natAbs (z : Int) : signed (z < 0) z.natAbs = z := by
  by_cases hz : z < 0
  · rw [signed, if_pos (by simpa using hz), Int.ofNat_natAbs_of_nonpos (Int.le_of_lt hz), Int.neg_neg]
  · rw [signed, if_neg (by simpa using hz), Int.natAbs_of_nonneg (by omega)]

/-- A finite number is in range. -/
theorem Canonical.lt_ceiling {s : Bool} {m p : Nat} (h : (finite s m p).Canonical) : m * 2 ^ p < ceiling :=
  calc m * 2 ^ p < 2 ^ 53 * 2 ^ p := Nat.mul_lt_mul_of_pos_right h.1 (Nat.two_pow_pos p)
    _ ≤ 2 ^ 53 * 2 ^ maxExponent := Nat.mul_le_mul_left _ (Nat.pow_le_pow_right (by decide) h.2.2)
    _ = ceiling := by rw [ceiling, Nat.add_comm maxExponent, Nat.pow_add]

/-- A rounded quotient is an infinity exactly if its magnitude is out of range. -/
theorem ofQuotient_cases (s : Bool) (num : Nat) (hden : 0 < den) :
    (ceiling ≤ nearestUnits num den ∧ ofQuotient s num den = infinite s) ∨
      ∃ m p, ofQuotient s num den = finite s m p ∧ (finite s m p).Canonical ∧
        m * 2 ^ p = nearestUnits num den := by
  have hhigh := significand_le num hden
  have hlow := le_significand num hden
  have hdef : ofQuotient s num den =
      if divNearestEven num (den * 2 ^ exponentOf num den) = 2 ^ 53 then
        if maxExponent < exponentOf num den + 1 then infinite s
        else finite s (2 ^ 52) (exponentOf num den + 1)
      else if maxExponent < exponentOf num den then infinite s
        else finite s (divNearestEven num (den * 2 ^ exponentOf num den)) (exponentOf num den) := by
    unfold ofQuotient exponentOf
    dsimp only
    split <;> rfl
  rw [hdef, nearestUnits, ceiling]
  generalize divNearestEven num (den * 2 ^ exponentOf num den) = m at hhigh hlow
  generalize exponentOf num den = e at hlow
  split_ifs with hcarry hout hout
  · refine Or.inl ⟨?_, rfl⟩
    rw [hcarry, ← Nat.pow_add]
    exact Nat.pow_le_pow_right (by decide) (by omega)
  · -- the carry leaves the magnitude as it is
    refine Or.inr ⟨_, _, rfl, ⟨by decide, Or.inl (Nat.le_refl _), by omega⟩, ?_⟩
    rw [hcarry, Nat.pow_succ]
    omega
  · refine Or.inl ⟨?_, rfl⟩
    calc 2 ^ (maxExponent + 53) ≤ 2 ^ (52 + e) := Nat.pow_le_pow_right (by decide) (by omega)
      _ = 2 ^ 52 * 2 ^ e := Nat.pow_add 2 52 e
      _ ≤ m * 2 ^ e := Nat.mul_le_mul_right _ (hlow (Nat.zero_lt_of_lt hout))
  · refine Or.inr ⟨m, e, rfl, ⟨by omega, ?_, by omega⟩, rfl⟩
    rcases Nat.eq_zero_or_pos e with he | he
    · exact Or.inr he
    · exact Or.inl (hlow he)

/-- A rounded quotient is in the form of the format. -/
theorem isNumber_ofQuotient (s : Bool) (num : Nat) (hden : 0 < den) : (ofQuotient s num den).IsNumber := by
  rcases ofQuotient_cases s num hden with ⟨-, h⟩ | ⟨m, p, h, hc, -⟩
  · rw [h]
    exact ⟨by simp, trivial⟩
  · rw [h]
    exact ⟨by simp, hc⟩

/-- The place of a rounded quotient is its grade. -/
theorem place_ofQuotient (s : Bool) (num : Nat) (hden : 0 < den) :
    (ofQuotient s num den).place = grade (signed s num) den := by
  rw [grade_signed]
  rcases ofQuotient_cases s num hden with ⟨hle, h⟩ | ⟨m, p, h, hc, hmag⟩
  · rw [h, Nat.min_eq_right hle]
    rfl
  · rw [h, ← hmag, Nat.min_eq_left (Nat.le_of_lt hc.lt_ceiling)]
    rfl

/-- Numbers compare as their places do. -/
theorem atMost_iff {x y : Binary64} (hx : x.IsNumber) (hy : y.IsNumber) :
    x.atMost y = true ↔ x.place ≤ y.place := by
  have hpos : 0 < ceiling := Nat.two_pow_pos _
  cases x with
  | nan => exact absurd rfl hx.1
  | infinite s =>
    cases y with
    | nan => exact absurd rfl hy.1
    | infinite t =>
      simp only [atMost, place]
      generalize ceiling = k at hpos
      cases s <;> cases t <;> simp [signed]
      omega
    | finite t n q =>
      have hlt := Canonical.lt_ceiling hy.2
      simp only [atMost, place]
      generalize n * 2 ^ q = k at hlt
      generalize ceiling = l at hlt
      cases s <;> cases t <;> simp [signed] <;> omega
  | finite s m p =>
    cases y with
    | nan => exact absurd rfl hy.1
    | infinite t =>
      have hlt := Canonical.lt_ceiling hx.2
      simp only [atMost, place]
      generalize m * 2 ^ p = k at hlt
      generalize ceiling = l at hlt
      cases s <;> cases t <;> simp [signed] <;> omega
    | finite t n q => exact decide_eq_true_iff

/-! ### Grades -/

theorem grade_mono {a b : Int} (hden : 0 < den) (h : a ≤ b) : grade a den ≤ grade b den := by
  have hunits {k l : Nat} (hkl : k ≤ l) :
      min (nearestUnits k den) ceiling ≤ min (nearestUnits l den) ceiling := by
    have hle : nearestUnits k den ≤ nearestUnits l den :=
      nearestUnits_mono hden hden (Nat.mul_le_mul_right _ hkl)
    omega
  rw [grade, grade]
  by_cases ha : a < 0 <;> by_cases hb : b < 0 <;> simp only [ha, hb, decide_true, decide_false, signed]
  · have hab := hunits (k := b.natAbs) (l := a.natAbs) (by omega)
    simp only [if_true]
    omega
  · simp only [if_true, Bool.false_eq_true, if_false]
    omega
  · omega
  · have hab := hunits (k := a.natAbs) (l := b.natAbs) (by omega)
    simp only [Bool.false_eq_true, if_false]
    omega

theorem grade_le (a : Int) (den : Nat) : -(ceiling : Int) ≤ grade a den ∧ grade a den ≤ ceiling := by
  rw [grade]
  have hle : min (nearestUnits a.natAbs den) ceiling ≤ ceiling := Nat.min_le_right _ _
  generalize min (nearestUnits a.natAbs den) ceiling = n at hle
  cases decide (a < 0) <;> simp only [signed] <;> omega

/-- A finite number is its own rounding. -/
theorem grade_place {x : Binary64} (hx : x.IsNumber) (hfinite : x.isFinite) : grade x.place 1 = x.place := by
  cases x with
  | finite s m p =>
    rw [place, grade_signed, nearestUnits_of_multiple hx.2.1,
      Nat.min_eq_left (Nat.le_of_lt (Canonical.lt_ceiling hx.2))]
  | _ => simp [isFinite] at hfinite

/-- What is finite lies strictly between the infinities. -/
theorem IsNumber.lt_place {x : Binary64} (hx : x.IsNumber) (hfinite : x.isFinite) :
    -(ceiling : Int) < x.place ∧ x.place < ceiling := by
  cases x with
  | finite s m p =>
    have hlt := Canonical.lt_ceiling hx.2
    rw [place]
    generalize m * 2 ^ p = n at hlt
    cases s <;> simp only [signed] <;> omega
  | _ => simp [isFinite] at hfinite

theorem IsNumber.isFinite_or {x : Binary64} (hx : x.IsNumber) : x.isFinite ∨ ∃ s, x = infinite s := by
  cases x with
  | nan => exact absurd rfl hx.1
  | infinite s => exact Or.inr ⟨s, rfl⟩
  | finite s m p => exact Or.inl rfl

/-- An operation is monotone if it keeps the infinities and rounds an exact result that is monotone. -/
theorem mono_of_grade {f : Binary64 → Binary64} {g : Int → Int} (hden : 0 < den)
    (hg : ∀ a b, a ≤ b → g a ≤ g b) (hinfinite : ∀ s, f (infinite s) = infinite s)
    (hfinite : ∀ x, x.isFinite → (f x).place = grade (g x.place) den) {x x' : Binary64}
    (hx : x.IsNumber) (hx' : x'.IsNumber) (h : x.place ≤ x'.place) : (f x).place ≤ (f x').place := by
  rcases hx.isFinite_or with hfin | ⟨s, rfl⟩ <;> rcases hx'.isFinite_or with hfin' | ⟨s', rfl⟩
  · rw [hfinite x hfin, hfinite x' hfin']
    exact grade_mono hden (hg _ _ h)
  · have hlt := hx.lt_place hfin
    have hle := grade_le (g x.place) den
    rw [hfinite x hfin, hinfinite]
    rw [place] at h ⊢
    cases s' <;> simp only [signed] at h ⊢ <;> omega
  · have hlt := hx'.lt_place hfin'
    have hle := grade_le (g x'.place) den
    rw [hfinite x' hfin', hinfinite]
    rw [place] at h ⊢
    cases s <;> simp only [signed] at h ⊢ <;> omega
  · rw [hinfinite, hinfinite]
    exact h

/-! ### Integers and signs -/

theorem isNumber_ofInt (z : Int) : (ofInt z).IsNumber := isNumber_ofQuotient _ _ Nat.one_pos

theorem isNumber_ofNat (n : Nat) : (ofNat n).IsNumber := isNumber_ofQuotient _ _ Nat.one_pos

theorem place_ofInt (z : Int) : (ofInt z).place = grade (z * one) 1 := by
  have hsigned : signed (z < 0) (z.natAbs * one) = z * one := by
    rw [signed_mul, signed_natAbs]
  rw [ofInt, ofRatio, place_ofQuotient _ _ Nat.one_pos, hsigned]

/-- A natural number is rounded to the nearest number. -/
theorem place_ofNat (n : Nat) : (ofNat n).place = grade (n * one : Nat) 1 :=
  place_ofQuotient false (n * one) Nat.one_pos

/-- A power of two bounds the magnitude of a number as soon as it bounds the integer that was rounded. -/
theorem natAbs_place_ofInt_le {z : Int} {k : Nat} (hz : z.natAbs ≤ 2 ^ k) :
    (ofInt z).place.natAbs ≤ 2 ^ k * one := by
  have hunits : (z * one).natAbs ≤ 2 ^ k * one := by
    rw [Int.natAbs_mul, Int.natAbs_natCast]
    exact Nat.mul_le_mul_right one hz
  rw [place_ofInt, grade, natAbs_signed]
  calc min (nearestUnits (z * one).natAbs 1) ceiling
      ≤ nearestUnits (z * one).natAbs 1 := Nat.min_le_left _ _
    _ ≤ nearestUnits (2 ^ k * one) 1 :=
      nearestUnits_mono Nat.one_pos Nat.one_pos (Nat.mul_le_mul_right 1 hunits)
    _ = 2 ^ k * one := nearestUnits_two_pow k

theorem ofInt_mono {y z : Int} (h : y ≤ z) : (ofInt y).place ≤ (ofInt z).place := by
  rw [place_ofInt, place_ofInt]
  exact grade_mono Nat.one_pos (Int.mul_le_mul_of_nonneg_right h (Int.natCast_nonneg one))

/-- Rounded natural numbers are in the order of the numbers. -/
theorem ofNat_mono {m n : Nat} (h : m ≤ n) : (ofNat m).place ≤ (ofNat n).place := by
  rw [place_ofNat, place_ofNat]
  exact grade_mono Nat.one_pos (Int.ofNat_le.2 (Nat.mul_le_mul_right one h))

theorem signed_not (s : Bool) (n : Nat) : signed (!s) n = -signed s n := by
  cases s <;> simp [signed]

theorem place_neg (x : Binary64) : (-x).place = -x.place := by
  cases x with
  | nan => rfl
  | infinite s => exact signed_not s ceiling
  | finite s m p => exact signed_not s (m * 2 ^ p)

theorem isFinite_neg {x : Binary64} (hx : x.isFinite) : (-x).isFinite := by
  cases x <;> exact hx

/-! ### Sums -/

section Sum

variable {x x' y y' : Binary64}

theorem isNumber_zero (s : Bool) : (finite s 0 0).IsNumber :=
  ⟨by simp, by decide, Or.inr rfl, Nat.zero_le _⟩

/-- A sum of finite numbers is the exact sum, rounded. -/
theorem add_finite (s t : Bool) (m p n q : Nat) :
    (finite s m p + finite t n q).IsNumber ∧
      (finite s m p + finite t n q).place = grade ((finite s m p).place + (finite t n q).place) 1 := by
  have hdef : finite s m p + finite t n q =
      if signed s (m * 2 ^ p) + signed t (n * 2 ^ q) = 0 then finite (s && t) 0 0
      else ofQuotient (signed s (m * 2 ^ p) + signed t (n * 2 ^ q) < 0)
        (signed s (m * 2 ^ p) + signed t (n * 2 ^ q)).natAbs 1 := rfl
  rw [hdef, place, place]
  generalize signed s (m * 2 ^ p) + signed t (n * 2 ^ q) = sum
  split_ifs with hsum
  · refine ⟨isNumber_zero _, ?_⟩
    rw [hsum, grade_zero, place, Nat.zero_mul, signed_zero]
  · refine ⟨isNumber_ofQuotient _ _ Nat.one_pos, ?_⟩
    rw [place_ofQuotient _ _ Nat.one_pos, signed_natAbs]

/-- A finite number may be added to every number. -/
theorem isNumber_add (hx : x.IsNumber) (hy : y.isFinite) : (x + y).IsNumber := by
  cases y with
  | finite t n q =>
    cases x with
    | nan => exact absurd rfl hx.1
    | infinite s => exact hx
    | finite s m p => exact (add_finite s t m p n q).1
  | _ => simp [isFinite] at hy

/-- The place of a sum is the grade of the exact sum. -/
theorem place_add (hx : x.isFinite) (hy : y.isFinite) : (x + y).place = grade (x.place + y.place) 1 := by
  cases x with
  | finite s m p =>
    cases y with
    | finite t n q => exact (add_finite s t m p n q).2
    | _ => simp [isFinite] at hy
  | _ => simp [isFinite] at hx

/-- A sum in the lower half of the range is finite. -/
theorem isFinite_add (hx : x.isFinite) (hy : y.isFinite)
    (h : (x.place + y.place).natAbs < 2 ^ (maxExponent + 52)) : (x + y).isFinite := by
  cases x with
  | finite s m p =>
    cases y with
    | finite t n q =>
      have hdef : finite s m p + finite t n q = add (finite s m p) (finite t n q) := rfl
      rw [hdef, add]
      split
      · rfl
      · exact isFinite_ofQuotient (by rw [Nat.div_one]; exact h)
    | _ => simp [isFinite] at hy
  | _ => simp [isFinite] at hx

/-- An infinity stays what it is when a finite number is added. -/
theorem infinite_add (s : Bool) (hy : y.isFinite) : infinite s + y = infinite s := by
  cases y with
  | finite t n q => rfl
  | _ => simp [isFinite] at hy

/-- Sums are monotone, as long as what is added is finite. -/
theorem add_mono (hx : x.IsNumber) (hx' : x'.IsNumber) (hy : y.isFinite) (hy' : y'.isFinite)
    (hxx : x.place ≤ x'.place) (hyy : y.place ≤ y'.place) : (x + y).place ≤ (x' + y').place := by
  have hleft : (x + y).place ≤ (x' + y).place :=
    mono_of_grade (f := (· + y)) (g := (· + y.place)) Nat.one_pos (fun a b h ↦ Int.add_le_add_right h _)
      (fun s ↦ infinite_add s hy) (fun z hz ↦ place_add hz hy) hx hx' hxx
  refine Int.le_trans hleft ?_
  rcases hx'.isFinite_or with hfinite | ⟨s, rfl⟩
  · rw [place_add hfinite hy, place_add hfinite hy']
    exact grade_mono Nat.one_pos (Int.add_le_add_left hyy _)
  · rw [infinite_add s hy, infinite_add s hy']

/-- A finite number may be taken from every number. -/
theorem isNumber_sub (hx : x.IsNumber) (hy : y.isFinite) : (x - y).IsNumber :=
  isNumber_add hx (isFinite_neg hy)

/-- A difference in the lower half of the range is finite. -/
theorem isFinite_sub (hx : x.isFinite) (hy : y.isFinite)
    (h : (x.place - y.place).natAbs < 2 ^ (maxExponent + 52)) : (x - y).isFinite := by
  refine isFinite_add (y := -y) hx (isFinite_neg hy) ?_
  rwa [place_neg, ← Int.sub_eq_add_neg]

/-- Differences are monotone, and the other way round in what is taken away. -/
theorem sub_mono (hx : x.IsNumber) (hx' : x'.IsNumber) (hy : y.isFinite) (hy' : y'.isFinite)
    (hxx : x.place ≤ x'.place) (hyy : y'.place ≤ y.place) : (x - y).place ≤ (x' - y').place := by
  have hneg : (-y).place ≤ (-y').place := by
    rw [place_neg, place_neg]
    exact Int.neg_le_neg hyy
  exact add_mono hx hx' (isFinite_neg hy) (isFinite_neg hy') hxx hneg

/-- Nothing gets less when what is not negative is added. -/
theorem le_place_add (hx : x.IsNumber) (hy : y.isFinite) (hpos : 0 ≤ y.place) : x.place ≤ (x + y).place := by
  rcases hx.isFinite_or with hfinite | ⟨s, rfl⟩
  · rw [place_add hfinite hy]
    calc x.place = grade x.place 1 := (grade_place hx hfinite).symm
      _ ≤ grade (x.place + y.place) 1 := grade_mono Nat.one_pos (by omega)
  · rw [infinite_add s hy]

end Sum

/-! ### Products -/

section Product

variable {x x' c : Binary64}

/-- A positive number that is not an infinity. -/
theorem pos_of_less (hfinite : c.isFinite) (hpos : zero.less c = true) :
    ∃ n q, c = finite false n q ∧ n ≠ 0 := by
  cases c with
  | finite s n q =>
    have hlt : 0 < signed s (n * 2 ^ q) := by simpa [zero, less] using hpos
    have hne : n ≠ 0 := by
      rintro rfl
      rw [Nat.zero_mul, signed_zero] at hlt
      exact absurd hlt (Int.lt_irrefl 0)
    cases s with
    | true =>
      rw [signed, if_pos rfl] at hlt
      omega
    | false => exact ⟨n, q, rfl, hne⟩
  | _ => simp [isFinite] at hfinite

variable {n q : Nat}

theorem infinite_mul (s : Bool) (hn : n ≠ 0) : infinite s * finite false n q = infinite s := by
  change mul (infinite s) (finite false n q) = infinite s
  rw [mul, if_neg hn, Bool.bne_false]

/-- A product of finite numbers is the exact product, rounded. -/
theorem mul_finite (s : Bool) (m p n q : Nat) :
    finite s m p * finite false n q = ofQuotient s (m * 2 ^ p * (n * 2 ^ q)) one := by
  change mul (finite s m p) (finite false n q) = _
  rw [mul, Bool.bne_false]

/-- Every number may be multiplied with a positive one. -/
theorem isNumber_mul (hx : x.IsNumber) (hn : n ≠ 0) : (x * finite false n q).IsNumber := by
  cases x with
  | nan => exact absurd rfl hx.1
  | infinite s =>
    rw [infinite_mul s hn]
    exact hx
  | finite s m p =>
    rw [mul_finite]
    exact isNumber_ofQuotient _ _ one_pos

/-- The place of a product is the grade of the exact product. -/
theorem place_mul (hx : x.isFinite) :
    (x * finite false n q).place = grade (x.place * (n * 2 ^ q : Nat)) one := by
  cases x with
  | finite s m p => rw [mul_finite, place_ofQuotient _ _ one_pos, signed_mul, place]
  | _ => simp [isFinite] at hx

/-- Products with a positive number are monotone. -/
theorem mul_mono (hx : x.IsNumber) (hx' : x'.IsNumber) (hn : n ≠ 0) (h : x.place ≤ x'.place) :
    (x * finite false n q).place ≤ (x' * finite false n q).place :=
  mono_of_grade (f := (· * finite false n q)) (g := (· * (n * 2 ^ q : Nat))) one_pos
    (fun _ _ h ↦ Int.mul_le_mul_of_nonneg_right h (Int.natCast_nonneg _)) (fun s ↦ infinite_mul s hn)
    (fun _ hz ↦ place_mul hz) hx hx' h

end Product

end Binary64

end Tidemark
