import Mathlib.Tactic.SplitIfs
import Tidemark.Proofs.Json.ReadBack

/-!
# Strings read back

A string is written with escapes for the quote, the backslash and the control characters, and read back as itself
(`readText?_escaped`). So an object of one member that is a string is read back from its text (`read?_compact`).
-/

namespace Tidemark.Json

theorem readString?_shortEscape {e c : Char} (hu : e ≠ 'u') (he : shortEscape? e = some c) (read rest : List Char) :
    readString? read ('\\' :: e :: rest) = readString? (c :: read) rest := by
  rw [readString?.eq_def]
  split <;> grind

/-- A code unit below the surrogates is a character, whatever follows it. -/
theorem readString?_codeUnit {a b c d : Char} {n : Nat} (h : codeUnit? a b c d = some n) (hn : n < 0xD800)
    (read rest : List Char) :
    readString? read ('\\' :: 'u' :: a :: b :: c :: d :: rest) = readString? (Char.ofNat n :: read) rest := by
  rw [readString?.eq_def]
  split <;> grind

/-- Two digits to the base 16 are read as a code unit. -/
theorem codeUnit?_digitChar {n : Nat} (hn : n < 32) :
    codeUnit? '0' '0' (Nat.digitChar (n / 16)) (Nat.digitChar (n % 16)) = some n := by
  revert n
  decide

/-- A written character is read as itself. -/
theorem readString?_escapeChar (c : Char) (read rest : List Char) :
    readString? read (escapeChar c ++ rest) = readString? (c :: read) rest := by
  rw [escapeChar]
  split_ifs with hquote hslash h₁ h₂ h₃ h₄ h₅ hcontrol
  -- the short escapes
  iterate 7
    · subst c
      exact readString?_shortEscape (by decide) (by decide) read rest
  · have hunit := readString?_codeUnit (codeUnit?_digitChar hcontrol) (by omega) read rest
    rw [Char.ofNat_toNat] at hunit
    exact hunit
  · have hplain : isPlain c = true := by
      simp [isPlain, hquote, hslash]
      omega
    exact readString?_cons hplain read rest

/-- Escaped characters are read as themselves, up to the closing quote. -/
theorem readString?_escaped (cs read rest : List Char) :
    readString? read (cs.flatMap escapeChar ++ '"' :: rest) = some (cs.reverse ++ read, rest) := by
  induction cs generalizing read with
  | nil => simp [readString?]
  | cons c cs ih =>
    rw [List.flatMap_cons, List.append_assoc, readString?_escapeChar, ih, List.reverse_cons, List.append_assoc]
    rfl

/-- A written string is read as itself. -/
theorem readText?_escaped (s : String) (rest : List Char) :
    readText? (s.toList.flatMap escapeChar ++ '"' :: rest) = some (s, rest) := by
  rw [readText?, readString?_escaped]
  simp

/-! ### An object of one member that is a string -/

theorem toList_compact (key s : String) :
    (Value.object [(key, .string s)]).compact.toList =
      '\x7b' :: '"' :: (key.toList.flatMap escapeChar ++ '"' :: ':' :: '"' ::
        (s.toList.flatMap escapeChar ++ ['"', '\x7d'])) := by
  have hopen : "\x7b".toList = ['\x7b'] := by decide
  have hclose : "\x7d".toList = ['\x7d'] := by decide
  have hcolon : ":".toList = [':'] := by decide
  simp [Value.compact, compactMembers, writeString, hopen, hclose, hcolon]

/-- Where an escaped string stands, a value is read as that string. -/
theorem readValue?_escaped (depth fuel : Nat) (s : String) (rest : List Char) :
    readValue? depth (fuel + 1) ('"' :: (s.toList.flatMap escapeChar ++ '"' :: rest)) = some (.string s, rest) := by
  simp only [readValue?, readText?_escaped, Option.map_some]

/-- An object of one string is read member by member. -/
theorem readMembers?_escaped (depth fuel : Nat) (key s : String) (rest : List Char) :
    readMembers? depth [] (fuel + 2) ('"' :: (key.toList.flatMap escapeChar ++ '"' :: ':' :: '"' ::
      (s.toList.flatMap escapeChar ++ '"' :: '\x7d' :: rest))) = some (.object [(key, .string s)], rest) := by
  have hcolon : isSpace ':' = false := by decide
  have hquote : isSpace '"' = false := by decide
  have hclose : isSpace '\x7d' = false := by decide
  simp only [readMembers?, readText?_escaped, skipSpace_cons hcolon, skipSpace_cons hquote, readValue?_escaped,
    skipSpace_cons hclose]
  rfl

/-- An object of one string is read as itself. -/
theorem read?_compact (key s : String) :
    Json.read? (Value.object [(key, .string s)]).compact = some (.object [(key, .string s)]) := by
  rw [Json.read?, toList_compact]
  simp only [List.length_cons]
  generalize hfuel : 2 * _ + 2 = fuel
  -- three levels of fuel are used: the object, its member and the string
  obtain ⟨k, rfl⟩ : ∃ k, fuel = k + 3 := ⟨fuel - 3, by omega⟩
  have hobject : ∀ rest, readValue? depthBound (k + 3) ('\x7b' :: '"' :: rest) =
      readMembers? (depthBound - 1) [] (k + 2) ('"' :: rest) := by
    intro rest
    simp only [readValue?, skipSpace_cons (c := '"') (by decide)]
    rfl
  rw [skipSpace_cons (by decide), hobject, readMembers?_escaped]
  rfl

end Tidemark.Json
