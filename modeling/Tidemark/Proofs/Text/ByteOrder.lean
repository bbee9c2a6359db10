import Tidemark.Text.Utf8

/-!
# The order of texts is the order of their bytes

Texts are compared character by character. In UTF-8 this is the comparison of their bytes, though a character
takes one to four of them:

```
           first byte     further bytes
  < 2^7    0   + v        none
  < 2^11   192 + v/64     one digit to the base 64
  < 2^16   224 + v/64^2   two
  < 2^21   240 + v/64^3   three
```

Within a row the digits compare as the numbers do (`sequence_lt`), and between two rows the first bytes decide
(`sequence_lt_of_first`). Neither leaves the comparison to what follows (`encodeChar_lt`).
-/

namespace Tidemark.Text

/-! ### Sequences -/

/-- A first byte and so many digits to the base 64, each in a byte of its own. -/
def sequence (lead v : Nat) : Nat → List UInt8
  | 0 => [UInt8.ofNat (lead + v)]
  | k + 1 => sequence lead (v / 64) k ++ [UInt8.ofNat (128 + v % 64)]

theorem byte_lt {m n : Nat} (h : m < n) (hn : n < 256) : UInt8.ofNat m < UInt8.ofNat n :=
  (UInt8.ofNat_lt_iff_lt (Nat.lt_trans h hn) hn).2 h

theorem append_lt_append {l m n : List UInt8} (h : m < n) : l ++ m < l ++ n := by
  induction l with
  | nil => exact h
  | cons b l ih => exact List.cons_lt_cons_iff.2 (Or.inr ⟨rfl, ih⟩)

theorem sequence_eq_cons (lead v k : Nat) :
    ∃ digits, sequence lead v k = UInt8.ofNat (lead + v / 64 ^ k) :: digits := by
  induction k generalizing v with
  | zero => exact ⟨[], by rw [sequence, Nat.pow_zero, Nat.div_one]⟩
  | succ k ih =>
    obtain ⟨digits, hdigits⟩ := ih (v / 64)
    rw [sequence, hdigits, Nat.div_div_eq_div_mul, ← Nat.pow_succ']
    exact ⟨_, rfl⟩

/-- The smaller of two first bytes decides. -/
theorem sequence_lt_of_first {lead lead' v w k k' : Nat} (h : lead + v / 64 ^ k < lead' + w / 64 ^ k')
    (hw : lead' + w / 64 ^ k' < 256) (s t : List UInt8) :
    sequence lead v k ++ s < sequence lead' w k' ++ t := by
  obtain ⟨digits, hdigits⟩ := sequence_eq_cons lead v k
  obtain ⟨digits', hdigits'⟩ := sequence_eq_cons lead' w k'
  rw [hdigits, hdigits', List.cons_append, List.cons_append]
  exact List.cons_lt_cons_iff.2 (Or.inl (byte_lt h hw))

/-- Sequences of one length compare as their numbers do. -/
theorem sequence_lt {lead v w k : Nat} (h : v < w) (hw : lead + w / 64 ^ k < 256) (s t : List UInt8) :
    sequence lead v k ++ s < sequence lead w k ++ t := by
  induction k generalizing v w s t with
  | zero =>
    rw [Nat.pow_zero, Nat.div_one] at hw
    exact List.cons_lt_cons_iff.2 (Or.inl (byte_lt (by omega) hw))
  | succ k ih =>
    rw [sequence, sequence, List.append_assoc, List.append_assoc]
    rw [Nat.pow_succ', ← Nat.div_div_eq_div_mul] at hw
    rcases Nat.lt_or_ge (v / 64) (w / 64) with hlt | hge
    · exact ih hlt hw _ _
    · -- the numbers differ in the last digit
      have heq : v / 64 = w / 64 := by omega
      rw [heq]
      exact append_lt_append (List.cons_lt_cons_iff.2 (Or.inl (byte_lt (by omega) (by omega))))

/-! ### Characters -/

/-- A character is one of the four kinds of sequences. -/
theorem encodeChar_cases (c : Char) :
    (c.val.toNat < 128 ∧ String.utf8EncodeChar c = sequence 0 c.val.toNat 0) ∨
    (128 ≤ c.val.toNat ∧ c.val.toNat < 2048 ∧ String.utf8EncodeChar c = sequence 192 c.val.toNat 1) ∨
    (2048 ≤ c.val.toNat ∧ c.val.toNat < 65536 ∧ String.utf8EncodeChar c = sequence 224 c.val.toNat 2) ∨
    (65536 ≤ c.val.toNat ∧ c.val.toNat < 1114112 ∧ String.utf8EncodeChar c = sequence 240 c.val.toNat 3) := by
  have hmax : c.val.toNat < 1114112 := by
    rcases c.valid with h | ⟨-, h⟩
    · exact Nat.lt_trans h (by decide)
    · exact h
  rw [String.utf8EncodeChar]
  generalize c.val.toNat = v at hmax ⊢
  by_cases h₁ : v < 128
  · exact Or.inl ⟨h₁, by rw [if_pos (by omega), sequence, Nat.zero_add]⟩
  refine Or.inr ?_
  rw [if_neg (by omega)]
  -- the digits before the last are those of the quotient
  have hquot : v / 4096 = v / 64 / 64 ∧ v / 262144 = v / 64 / 64 / 64 := by omega
  simp only [sequence, List.cons_append, List.nil_append, hquot]
  by_cases h₂ : v < 2048
  · refine Or.inl ⟨by omega, h₂, ?_⟩
    rw [if_pos (by omega), Nat.mod_eq_of_lt (by omega), Nat.add_comm _ 192, Nat.add_comm _ 128]
  refine Or.inr ?_
  rw [if_neg (by omega)]
  by_cases h₃ : v < 65536
  · refine Or.inl ⟨by omega, h₃, ?_⟩
    rw [if_pos (by omega), Nat.mod_eq_of_lt (by omega : v / 64 / 64 < 16), Nat.add_comm _ 224,
      Nat.add_comm _ 128, Nat.add_comm _ 128]
  · refine Or.inr ⟨by omega, hmax, ?_⟩
    rw [if_neg (by omega), Nat.mod_eq_of_lt (by omega : v / 64 / 64 / 64 < 8), Nat.add_comm _ 240,
      Nat.add_comm _ 128, Nat.add_comm _ 128, Nat.add_comm _ 128]

/-- A smaller character comes first, whatever follows it. -/
theorem encodeChar_lt {c d : Char} (h : c < d) (s t : List UInt8) :
    String.utf8EncodeChar c ++ s < String.utf8EncodeChar d ++ t := by
  have hcd : c.val.toNat < d.val.toNat := h
  rcases encodeChar_cases c with ⟨hc, ec⟩ | ⟨hc, hc', ec⟩ | ⟨hc, hc', ec⟩ | ⟨hc, hc', ec⟩ <;>
    rcases encodeChar_cases d with ⟨hd, ed⟩ | ⟨hd, hd', ed⟩ | ⟨hd, hd', ed⟩ | ⟨hd, hd', ed⟩ <;>
    rw [ec, ed] <;>
    first
      | exact sequence_lt hcd (by omega) s t
      | exact sequence_lt_of_first (by omega) (by omega) s t

/-! ### Texts -/

/-- The bytes of a text. -/
def bytes (s : String) : List UInt8 :=
  s.toUTF8.data.toList

/-- The bytes of a text are those of its characters in their order. -/
theorem bytes_eq (s : String) : bytes s = s.toList.flatMap String.utf8EncodeChar := by
  rw [bytes, String.toUTF8_eq_toByteArray, ← String.utf8Encode_toList, List.utf8Encode,
    List.toList_data_toByteArray]

/-- Lists of characters compare as their bytes do. -/
theorem flatMap_encodeChar_lt {cs ds : List Char} (h : cs < ds) :
    cs.flatMap String.utf8EncodeChar < ds.flatMap String.utf8EncodeChar := by
  induction cs generalizing ds with
  | nil =>
    cases ds with
    | nil => exact absurd h (List.lt_irrefl _)
    | cons d ds =>
      obtain ⟨b, digits, hd⟩ := List.exists_cons_of_ne_nil (String.utf8EncodeChar_ne_nil (c := d))
      rw [List.flatMap_cons, hd]
      exact List.nil_lt_cons _ _
  | cons c cs ih =>
    cases ds with
    | nil => exact absurd h (List.not_lt_nil _)
    | cons d ds =>
      rw [List.flatMap_cons, List.flatMap_cons]
      rcases List.cons_lt_cons_iff.1 h with hcd | ⟨rfl, hrest⟩
      · exact encodeChar_lt hcd _ _
      · exact append_lt_append (ih hrest)

/-- Texts are ordered as their bytes are. -/
theorem lt_iff_bytes_lt {s t : String} : s < t ↔ bytes s < bytes t := by
  have hlt {s t : String} (h : s < t) : bytes s < bytes t := by
    rw [bytes_eq, bytes_eq]
    exact flatMap_encodeChar_lt (String.lt_iff.1 h)
  refine ⟨hlt, fun h ↦ Decidable.byContradiction fun hnot ↦ ?_⟩
  by_cases hts : t < s
  · exact List.lt_irrefl _ (List.lt_trans h (hlt hts))
  · rw [String.le_antisymm (String.not_lt.1 hnot) (String.not_lt.1 hts)] at h
    exact List.lt_irrefl _ h

end Tidemark.Text
