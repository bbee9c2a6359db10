import Tidemark.Proofs.Text.ByteOrder

/-!
# The bytes of a text decode

The scanner finds no fault in the bytes of a text (`firstFault?_bytes`). It goes through the sequence of one
character after the other, and stands at a start again after each (`firstFault?_encodeChar`):

```
  < 2^7    start
  < 2^11   start -> second 128 191 0
  < 2^16   start -> second low high 1 -> continuing 2 1
  < 2^21   start -> second low high 2 -> continuing 2 2 -> continuing 3 1
```

The bounds of a second byte leave out the numbers that a shorter sequence encodes, the surrogates, and what
is beyond all characters. The number of a character is none of these.
-/

namespace Tidemark.Text

/-! ### Bytes and their numbers -/

theorem toNat_ofNat {n : Nat} (h : n < 256) : (UInt8.ofNat n).toNat = n := by
  rw [UInt8.toNat_ofNat', Nat.mod_eq_of_lt h]

theorem between_iff (low b high : UInt8) :
    (low ≤ b && b ≤ high) = true ↔ low.toNat ≤ b.toNat ∧ b.toNat ≤ high.toNat := by
  rw [Bool.and_eq_true, decide_eq_true_eq, decide_eq_true_eq, UInt8.le_iff_toNat_le, UInt8.le_iff_toNat_le]

/-- A digit to the base 64 makes a byte that continues a sequence. -/
theorem isContinuation_digit (v : Nat) : isContinuation (UInt8.ofNat (128 + v % 64)) = true := by
  have hdigit : v % 64 < 64 := Nat.mod_lt v (by decide)
  rw [isContinuation, between_iff, toNat_ofNat (by omega)]
  simp only [UInt8.reduceToNat]
  omega

/-! ### The bounds of second bytes -/

theorem secondByte?_two {b : UInt8} (h : 194 ≤ b.toNat ∧ b.toNat ≤ 223) :
    secondByte? b = some (128, 191, 0) := by
  rw [secondByte?]
  simp only [between_iff, UInt8.reduceToNat]
  rw [if_pos h]

theorem secondByte?_three {b : UInt8} (h : 224 ≤ b.toNat ∧ b.toNat ≤ 239) :
    secondByte? b =
      some (if b.toNat = 224 then 160 else 128, if b.toNat = 237 then 159 else 191, 1) := by
  have hleast : b = 224 ↔ b.toNat = 224 := UInt8.toNat_inj.symm
  have hsurrogate : b = 237 ↔ b.toNat = 237 := UInt8.toNat_inj.symm
  rw [secondByte?]
  simp only [between_iff, hleast, hsurrogate, UInt8.reduceToNat]
  rw [if_neg (by omega)]
  by_cases h₁ : b.toNat = 224
  · rw [if_pos h₁, if_pos h₁, if_neg (by omega)]
  · rw [if_neg h₁, if_neg h₁]
    by_cases h₂ : b.toNat = 237
    · rw [if_pos h₂, if_pos h₂]
    · rw [if_neg h₂, if_neg h₂, if_pos (by omega)]

theorem secondByte?_four {b : UInt8} (h : 240 ≤ b.toNat ∧ b.toNat ≤ 244) :
    secondByte? b =
      some (if b.toNat = 240 then 144 else 128, if b.toNat = 244 then 143 else 191, 2) := by
  have hleast : b = 240 ↔ b.toNat = 240 := UInt8.toNat_inj.symm
  have hgreatest : b = 244 ↔ b.toNat = 244 := UInt8.toNat_inj.symm
  have hother : b ≠ 224 ∧ b ≠ 237 := by
    constructor <;> rintro rfl <;> exact absurd h (by decide)
  rw [secondByte?]
  simp only [between_iff, hleast, hgreatest, hother.1, hother.2, if_false, UInt8.reduceToNat]
  rw [if_neg (by omega), if_neg (by omega)]
  by_cases h₁ : b.toNat = 240
  · rw [if_pos h₁, if_pos h₁, if_neg (by omega)]
  · rw [if_neg h₁, if_neg h₁]
    by_cases h₂ : b.toNat = 244
    · rw [if_neg (by omega), if_pos h₂, if_pos h₂]
    · rw [if_pos (by omega), if_neg h₂]

/-! ### Characters -/

section Scanner

variable {b low high : UInt8} {further : Nat} (origin index : Nat) (rest : List UInt8)

/-- The first byte of a longer sequence says what the second may be. -/
theorem firstFault?_first (h : secondByte? b = some (low, high, further)) (hb : 128 ≤ b.toNat) :
    firstFault? .start origin index (b :: rest) =
      firstFault? (.second low high further) index (index + 1) rest := by
  have hlong : ¬ b < 0x80 := by
    rw [UInt8.lt_iff_toNat_lt]
    exact Nat.not_lt.2 hb
  rw [firstFault?, if_neg hlong]
  simp only [h]

/-- The scanner takes a second byte that is within its bounds. -/
theorem firstFault?_second (h : low.toNat ≤ b.toNat ∧ b.toNat ≤ high.toNat) :
    firstFault? (.second low high further) origin index (b :: rest) =
      if further = 0 then firstFault? .start (index + 1) (index + 1) rest
      else firstFault? (.continuing 2 further) origin (index + 1) rest := by
  rw [firstFault?, if_pos ((between_iff _ _ _).2 h)]

theorem firstFault?_digit (seen v : Nat) :
    firstFault? (.continuing seen further) origin index (UInt8.ofNat (128 + v % 64) :: rest) =
      if further ≤ 1 then firstFault? .start (index + 1) (index + 1) rest
      else firstFault? (.continuing (seen + 1) (further - 1)) origin (index + 1) rest := by
  rw [firstFault?, if_pos (isContinuation_digit v)]

/-- The scanner stands at a start again after a character. -/
theorem firstFault?_encodeChar (c : Char) :
    ∃ origin' index', firstFault? .start origin index (String.utf8EncodeChar c ++ rest) =
      firstFault? .start origin' index' rest := by
  have hvalid : c.val.toNat < 0xD800 ∨ 0xDFFF < c.val.toNat :=
    c.valid.imp_right And.left
  rcases encodeChar_cases c with ⟨hc, ec⟩ | ⟨hc, hc', ec⟩ | ⟨hc, hc', ec⟩ | ⟨hc, hc', ec⟩ <;>
    generalize c.val.toNat = v at * <;>
    simp only [ec, sequence, List.cons_append, List.nil_append]
  · have hshort : UInt8.ofNat (0 + v) < 0x80 := by
      rw [UInt8.lt_iff_toNat_lt, toNat_ofNat (by omega), Nat.zero_add]
      exact hc
    rw [firstFault?, if_pos hshort]
    exact ⟨_, _, rfl⟩
  · have hfirst : (UInt8.ofNat (192 + v / 64)).toNat = 192 + v / 64 := toNat_ofNat (by omega)
    have hdigit : (UInt8.ofNat (128 + v % 64)).toNat = 128 + v % 64 := toNat_ofNat (by omega)
    rw [firstFault?_first _ _ _ (secondByte?_two (by omega)) (by omega), firstFault?_second, if_pos rfl]
    · exact ⟨_, _, rfl⟩
    · rw [hdigit]
      simp only [UInt8.reduceToNat]
      omega
  · have hfirst : (UInt8.ofNat (224 + v / 64 / 64)).toNat = 224 + v / 64 / 64 := toNat_ofNat (by omega)
    have hdigit : (UInt8.ofNat (128 + v / 64 % 64)).toNat = 128 + v / 64 % 64 := toNat_ofNat (by omega)
    rw [firstFault?_first _ _ _ (secondByte?_three (by omega)) (by omega), firstFault?_second,
      if_neg (by decide), firstFault?_digit, if_pos (Nat.le_refl 1)]
    · exact ⟨_, _, rfl⟩
    · rw [hdigit, hfirst]
      constructor <;> split <;> simp only [UInt8.reduceToNat] <;> omega
  · have hfirst : (UInt8.ofNat (240 + v / 64 / 64 / 64)).toNat = 240 + v / 64 / 64 / 64 :=
      toNat_ofNat (by omega)
    have hdigit : (UInt8.ofNat (128 + v / 64 / 64 % 64)).toNat = 128 + v / 64 / 64 % 64 :=
      toNat_ofNat (by omega)
    rw [firstFault?_first _ _ _ (secondByte?_four (by omega)) (by omega), firstFault?_second,
      if_neg (by decide), firstFault?_digit, if_neg (by decide), firstFault?_digit, if_pos (by decide)]
    · exact ⟨_, _, rfl⟩
    · rw [hdigit, hfirst]
      constructor <;> split <;> simp only [UInt8.reduceToNat] <;> omega

end Scanner

/-! ### Texts -/

/-- The scanner finds no fault in the bytes of a text. -/
theorem firstFault?_bytes (t : String) (origin index : Nat) :
    firstFault? .start origin index (bytes t) = none := by
  rw [bytes_eq]
  induction t.toList generalizing origin index with
  | nil => rfl
  | cons c cs ih =>
    rw [List.flatMap_cons]
    obtain ⟨origin', index', hscan⟩ := firstFault?_encodeChar origin index (cs.flatMap String.utf8EncodeChar) c
    rw [hscan]
    exact ih origin' index'

end Tidemark.Text
