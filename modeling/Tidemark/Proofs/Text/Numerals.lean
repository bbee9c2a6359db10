import Tidemark.Text.Numeral

/-!
# Reading numerals back

What is printed for a natural number is read back as that number wherever it lies below the bound,
`readNumeral_toString`. A printed number has no plus sign, and reading on never makes a number smaller
(`le_ofDigitChars`), so the bound is passed on the way to no number that lies below it. Nothing is read that
does not lie below it (`readNumeral_lt`), and nothing that is no numeral (`readNumeral_eq_ok_iff`).
-/

namespace Tidemark.Text

/-- Reading on never makes a number smaller. -/
theorem le_ofDigitChars (cs : List Char) (n : Nat) : n ≤ Nat.ofDigitChars 10 cs n := by
  rw [Nat.ofDigitChars_eq_ofDigitChars_zero]
  have h : 1 * n ≤ 10 ^ cs.length * n := Nat.mul_le_mul_right n (Nat.pow_pos (by decide))
  omega

/-- The digits of a number are those of its tenth and one more. -/
theorem toDigits_eq_append {n : Nat} (hn : 10 ≤ n) :
    Nat.toDigits 10 n = Nat.toDigits 10 (n / 10) ++ [Nat.digitChar (n % 10)] := by
  have happend := Nat.toDigits_append_toDigits (b := 10) (n := n / 10) (d := n % 10) (by decide) (by omega) (by omega)
  rw [Nat.div_add_mod, Nat.toDigits_of_lt_base (n := n % 10) (by omega)] at happend
  exact happend.symm

/-- Digits are read as long as the number stays below the bound. -/
theorem readDigits_eq_ok {bound : Nat} {cs : List Char} (hcs : ∀ c ∈ cs, c.isDigit) {n : Nat}
    (hn : Nat.ofDigitChars 10 cs n < bound) :
    readDigits bound n cs = .ok (Nat.ofDigitChars 10 cs n) := by
  induction cs generalizing n with
  | nil => rfl
  | cons c cs ih =>
    obtain ⟨hc, hrest⟩ := List.forall_mem_cons.mp hcs
    have hvalue : digitValue? c = some (c.toNat - '0'.toNat) := if_pos hc
    rw [Nat.ofDigitChars_cons] at hn ⊢
    have hfit : 10 * n + (c.toNat - '0'.toNat) < bound :=
      Nat.lt_of_le_of_lt (le_ofDigitChars cs _) hn
    rw [readDigits, hvalue]
    simp only [if_pos hfit]
    exact ih hrest hn

/-- Digits that stand for a number below the bound are read, leading zeros and all. -/
theorem readNumeral_of_digits {bound : Nat} {text : String} (hdigits : ∀ c ∈ text.toList, c.isDigit)
    (hne : text.toList ≠ []) (hlt : Nat.ofDigitChars 10 text.toList 0 < bound) :
    readNumeral bound text = .ok (Nat.ofDigitChars 10 text.toList 0) := by
  have hread := readDigits_eq_ok hdigits hlt
  rw [readNumeral]
  cases hcs : text.toList with
  | nil => exact absurd hcs hne
  | cons c cs =>
    rw [hcs] at hdigits hread
    have hc : c.isDigit := hdigits c List.mem_cons_self
    have hsign : c ≠ '+' := by
      rintro rfl
      exact absurd hc (by decide)
    split
    · exact absurd ‹_› (List.cons_ne_nil c cs)
    · exact absurd (List.cons.inj ‹_›).1 hsign
    · exact absurd (List.cons.inj ‹_›).1 hsign
    · exact hread

/-- A number below the bound is read back from its digits. -/
theorem readNumeral_toString {bound n : Nat} (hn : n < bound) :
    readNumeral bound (toString n) = .ok n := by
  have hchars : (toString n).toList = Nat.toDigits 10 n := Nat.toList_repr
  have hvalue : Nat.ofDigitChars 10 (toString n).toList 0 = n := by
    rw [hchars, Nat.ofDigitChars_ten_toDigits]
  have hread : readNumeral bound (toString n) = .ok (Nat.ofDigitChars 10 (toString n).toList 0) :=
    readNumeral_of_digits
      (fun c hc ↦ Nat.isDigit_of_mem_toDigits (by decide) (by decide) (hchars ▸ hc))
      (by rw [hchars]; exact Nat.toDigits_ne_nil) (by rwa [hvalue])
  rwa [hvalue] at hread

/-- Different numbers are printed differently. -/
theorem eq_of_toString_eq {m n : Nat} (h : toString m = toString n) : m = n := by
  have hm : readNumeral (m + n + 1) (toString m) = .ok m := readNumeral_toString (by omega)
  have hn : readNumeral (m + n + 1) (toString n) = .ok n := readNumeral_toString (by omega)
  exact Except.ok.inj (hm.symm.trans (h ▸ hn))

/-- A number that is read digit by digit stays below the bound. -/
theorem readDigits_lt {bound n k : Nat} {cs : List Char} (hn : n < bound)
    (h : readDigits bound n cs = .ok k) : k < bound := by
  induction cs generalizing n with
  | nil => exact Except.ok.inj h ▸ hn
  | cons c cs ih =>
    rw [readDigits] at h
    split at h
    · exact nomatch h
    · split at h
      · exact ih ‹_› h
      · exact nomatch h

/-- A number that is read lies below the bound. -/
theorem readNumeral_lt {bound k : Nat} {text : String} (hbound : 0 < bound)
    (h : readNumeral bound text = .ok k) : k < bound := by
  rw [readNumeral] at h
  split at h
  · exact nomatch h
  · exact nomatch h
  · exact readDigits_lt hbound h
  · exact readDigits_lt hbound h

/-! ### What is read -/

/-- The text writes a number down in decimal: some digits, leading zeros and all, with a plus sign or without one. -/
def IsNumeral (text : String) (n : Nat) : Prop :=
  ∃ digits, (text.toList = digits ∨ text.toList = '+' :: digits) ∧ digits ≠ [] ∧
    (∀ c ∈ digits, c.isDigit) ∧ Nat.ofDigitChars 10 digits 0 = n

/-- Only digits are read, and the number they stand for. -/
theorem ofDigitChars_of_readDigits {bound n k : Nat} {cs : List Char} (h : readDigits bound n cs = .ok k) :
    (∀ c ∈ cs, c.isDigit) ∧ Nat.ofDigitChars 10 cs n = k := by
  induction cs generalizing n with
  | nil => exact ⟨List.forall_mem_nil _, Except.ok.inj h⟩
  | cons c cs ih =>
    cases hvalue : digitValue? c with
    | none =>
      simp only [readDigits, hvalue] at h
      exact nomatch h
    | some d =>
      obtain ⟨hc, hd⟩ : c.isDigit = true ∧ c.toNat - '0'.toNat = d := by
        simpa [digitValue?] using hvalue
      simp only [readDigits, hvalue] at h
      split at h
      · obtain ⟨hrest, hk⟩ := ih h
        refine ⟨List.forall_mem_cons.2 ⟨hc, hrest⟩, ?_⟩
        rwa [Nat.ofDigitChars_cons, hd]
      · exact nomatch h

/-- A number is read if and only if the text writes it down and it lies below the bound. -/
theorem readNumeral_eq_ok_iff {bound n : Nat} {text : String} (hbound : 0 < bound) :
    readNumeral bound text = .ok n ↔ IsNumeral text n ∧ n < bound := by
  constructor
  · intro h
    refine ⟨?_, readNumeral_lt hbound h⟩
    rw [readNumeral] at h
    split at h
    · exact nomatch h
    · exact nomatch h
    · rename_i digits hne hchars
      obtain ⟨hdigits, hvalue⟩ := ofDigitChars_of_readDigits h
      exact ⟨digits, Or.inr hchars, hne, hdigits, hvalue⟩
    · rename_i hne _ _
      obtain ⟨hdigits, hvalue⟩ := ofDigitChars_of_readDigits h
      exact ⟨text.toList, Or.inl rfl, hne, hdigits, hvalue⟩
  · rintro ⟨⟨digits, hchars, hne, hdigits, hvalue⟩, hlt⟩
    rcases hchars with rfl | hchars
    · rw [← hvalue] at hlt ⊢
      exact readNumeral_of_digits hdigits hne hlt
    · have hread := readDigits_eq_ok hdigits (hvalue.symm ▸ hlt)
      obtain ⟨c, cs, rfl⟩ := List.exists_cons_of_ne_nil hne
      rw [hvalue] at hread
      rw [readNumeral, hchars]
      exact hread

end Tidemark.Text
