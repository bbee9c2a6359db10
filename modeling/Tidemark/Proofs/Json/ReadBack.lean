import Tidemark.Json.Reader
import Tidemark.Proofs.Text.Numerals

/-!
# Reading back what was written

The readers of JSON take back what is written without white space:

* `readText?_append`: a string none of whose characters needs an escape (`isPlain`);
* `readNumber?_toString`: an integer of at most 64 bits.

Both leave the rest of the text as it is. What follows a number must not continue it.
-/

namespace Tidemark.Json

/-! ### Strings -/

/-- A character that a string holds as itself. -/
def isPlain (c : Char) : Bool :=
  c ≠ '"' && c ≠ '\\' && 0x20 ≤ c.toNat

theorem readString?_cons {c : Char} (hc : isPlain c = true) (read rest : List Char) :
    readString? read (c :: rest) = readString? (c :: read) rest := by
  simp only [isPlain, Bool.and_eq_true, decide_eq_true_eq] at hc
  obtain ⟨⟨hquote, hslash⟩, hlow⟩ := hc
  rw [readString?.eq_def]
  split <;> grind

theorem readString?_append {cs : List Char} (hcs : cs.all isPlain = true) (read rest : List Char) :
    readString? read (cs ++ '"' :: rest) = some (cs.reverse ++ read, rest) := by
  induction cs generalizing read with
  | nil => simp [readString?]
  | cons c cs ih =>
    rw [List.all_cons, Bool.and_eq_true] at hcs
    rw [List.cons_append, readString?_cons hcs.1, ih hcs.2]
    simp

/-- A string without escapes is read up to its closing quote. -/
theorem readText?_append {cs : List Char} (hcs : cs.all isPlain = true) (rest : List Char) :
    readText? (cs ++ '"' :: rest) = some (String.ofList cs, rest) := by
  rw [readText?, readString?_append hcs]
  simp

/-! ### Integers -/

/-- Digits are taken as long as the number fits. -/
theorem takeDigits_append {cs : List Char} (hcs : ∀ c ∈ cs, c.isDigit) {n : Nat}
    (hn : Nat.ofDigitChars 10 cs n < wordBound) {d : Char} (hd : d.isDigit = false) (taken : Nat)
    (rest : List Char) :
    takeDigits n taken (cs ++ d :: rest) =
      (Nat.ofDigitChars 10 cs n, taken + cs.length, d :: rest) := by
  induction cs generalizing n taken with
  | nil => simp [takeDigits, hd]
  | cons c cs ih =>
    rw [Nat.ofDigitChars_cons] at hn ⊢
    have hfit : 10 * n + (c.toNat - '0'.toNat) < wordBound :=
      Nat.lt_of_le_of_lt (Text.le_ofDigitChars cs _) hn
    rw [List.cons_append, takeDigits, if_pos ⟨hcs c List.mem_cons_self, hfit⟩,
      ih (fun c' hc' ↦ hcs c' (List.mem_cons_of_mem c hc')) hn]
    simp [Nat.add_comm, Nat.add_left_comm]

/-- The digits of a positive number do not start with a zero. -/
theorem toDigits_head_ne_zero {n : Nat} (hn : 0 < n) :
    ∃ c cs, Nat.toDigits 10 n = c :: cs ∧ c ≠ '0' := by
  induction n using Nat.strongRecOn with
  | ind n ih =>
    by_cases hlt : n < 10
    · refine ⟨n.digitChar, [], Nat.toDigits_of_lt_base hlt, ?_⟩
      have hsmall : ∀ m < 10, 0 < m → m.digitChar ≠ '0' := by decide
      exact hsmall n hlt hn
    · obtain ⟨c, cs, he, hc⟩ := ih (n / 10) (by omega) (by omega)
      refine ⟨c, cs ++ [Nat.digitChar (n % 10)], ?_, hc⟩
      rw [Text.toDigits_eq_append (by omega), he, List.cons_append]

/-- The digits of a natural number below the bound are read back, whatever other than a digit, a point
or an exponent follows. -/
theorem readUnsigned?_toDigits (negative : Bool) {n : Nat} (hn : n < wordBound) {d : Char}
    {rest : List Char} (hd : d.isDigit = false) (hnext : continuesNumber (d :: rest) = false) :
    readUnsigned? negative (Nat.toDigits 10 n ++ d :: rest) =
      some (readUnsigned?.whole negative n, d :: rest) := by
  rcases Nat.eq_zero_or_pos n with rfl | hpos
  · rw [Nat.toDigits_zero]
    simp [readUnsigned?, hd, hnext]
  · obtain ⟨c, cs, he, hc⟩ := toDigits_head_ne_zero hpos
    have hdigits : ∀ x ∈ c :: cs, x.isDigit := fun x hx ↦
      Nat.isDigit_of_mem_toDigits (b := 10) (n := n) (by decide) (by decide) (he ▸ hx)
    have hvalue : Nat.ofDigitChars 10 (c :: cs) 0 = n := by
      rw [← he, Nat.ofDigitChars_ten_toDigits]
    have htake := takeDigits_append hdigits (by rw [hvalue]; exact hn) hd 0 rest
    rw [hvalue, List.cons_append] at htake
    rw [he, List.cons_append, readUnsigned?, hdigits c List.mem_cons_self, htake]
    simp [hc, hd, hnext]

/-- An integer of 64 bits, signed or not, is read back. -/
theorem readNumber?_toString {z : Int} (hlow : -2 ^ 63 ≤ z) (hhigh : z < 2 ^ 64) {d : Char}
    {rest : List Char} (hd : d.isDigit = false) (hnext : continuesNumber (d :: rest) = false) :
    readNumber? ((toString z).toList ++ d :: rest) = some (.integer z, d :: rest) := by
  cases z with
  | ofNat n =>
    have hdigits : (toString (Int.ofNat n)).toList = Nat.toDigits 10 n := Nat.toList_repr
    have hn : n < wordBound := by
      rw [Int.ofNat_eq_natCast] at hhigh
      rw [wordBound]
      omega
    rw [hdigits, readNumber?.eq_2, readUnsigned?_toDigits false hn hd hnext]
    · rfl
    · -- a digit is no sign
      intro cs he
      have hmem : '-' ∈ Nat.toDigits 10 n := by
        cases hc : Nat.toDigits 10 n with
        | nil => exact absurd hc Nat.toDigits_ne_nil
        | cons c cs' =>
          rw [hc] at he
          rw [(List.cons.inj he).1]
          exact List.mem_cons_self
      exact absurd (Nat.isDigit_of_mem_toDigits (by decide) (by decide) hmem) (by decide)
  | negSucc n =>
    have hdigits : (toString (Int.negSucc n)).toList = '-' :: Nat.toDigits 10 (n + 1) := by
      show ("-" ++ (n + 1).repr).toList = _
      rw [String.toList_append, Nat.toList_repr]
      rfl
    -- the magnitude fits a signed word, so the number is no float
    have hn : n + 1 ≤ 2 ^ 63 := by
      rw [Int.negSucc_eq] at hlow
      omega
    have hword : n + 1 < wordBound := by
      rw [wordBound]
      omega
    have hwhole : readUnsigned?.whole true (n + 1) = .integer (Int.negSucc n) := by
      rw [readUnsigned?.whole, if_neg (by decide), if_neg (by omega)]
      rfl
    rw [hdigits, List.cons_append, readNumber?, readUnsigned?_toDigits true hword hd hnext, hwhole]

/-- A number starts with a sign or a digit. -/
theorem head_of_readNumber? {c : Char} {cs : List Char} {x : Number × List Char}
    (h : readNumber? (c :: cs) = some x) : c = '-' ∨ c.isDigit := by
  by_cases hc : c = '-'
  · exact Or.inl hc
  · rw [readNumber?.eq_2 _ (by rintro cs' he; exact hc (List.cons.inj he).1), readUnsigned?] at h
    cases hd : c.isDigit with
    | true => exact Or.inr rfl
    | false =>
      rw [hd] at h
      exact absurd h (by simp)

/-! ### Values -/

theorem skipSpace_cons {c : Char} (hc : isSpace c = false) (cs : List Char) :
    skipSpace (c :: cs) = c :: cs := by
  rw [skipSpace, List.dropWhile_cons_of_neg (by simp [hc])]

/-- Where a number stands, a value is read as that number, and there is no white space. -/
theorem readValue?_of_readNumber? {cs : List Char} {n : Number} {rest : List Char}
    (h : readNumber? cs = some (n, rest)) (depth fuel : Nat) :
    skipSpace cs = cs ∧ readValue? depth (fuel + 1) cs = some (.number n, rest) := by
  cases cs with
  | nil => exact absurd h (by simp [readNumber?, readUnsigned?])
  | cons c cs =>
    have hc := head_of_readNumber? h
    have hne : ∀ d, d ≠ '-' → d.isDigit = false → c ≠ d := by
      rintro d hsign hd rfl
      rcases hc with rfl | hc
      · exact hsign rfl
      · exact absurd (hd.symm.trans hc) (by decide)
    refine ⟨skipSpace_cons ?_ cs, ?_⟩
    · simp [isSpace, hne ' ' (by decide) (by decide), hne '\n' (by decide) (by decide),
        hne '\t' (by decide) (by decide), hne '\r' (by decide) (by decide)]
    · -- none of the other kinds of values starts like a number
      have hn := hne 'n' (by decide) (by decide)
      have ht := hne 't' (by decide) (by decide)
      have hf := hne 'f' (by decide) (by decide)
      have hstring := hne '"' (by decide) (by decide)
      have harray := hne '[' (by decide) (by decide)
      have hobject := hne '\x7b' (by decide) (by decide)
      rw [readValue?.eq_def]
      simp only
      split <;> simp_all

end Tidemark.Json
