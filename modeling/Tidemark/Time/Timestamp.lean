/-!
# Timestamps

An event time: milliseconds since the start of 1970, in the range of a signed 64-bit integer. The
range is part of the type, so that the one operation that could leave it, stepping back by one
millisecond, has to say what it does at the lower end.
-/

namespace Tidemark

/-- Milliseconds since the start of 1970. -/
structure Timestamp where
  millis : Int
  le_millis : -9223372036854775808 ≤ millis
  millis_le : millis ≤ 9223372036854775807
  deriving DecidableEq

namespace Timestamp

/-- The least timestamp. -/
def least : Timestamp := ⟨-9223372036854775808, by decide, by decide⟩

instance : Inhabited Timestamp := ⟨⟨0, by decide, by decide⟩⟩

/-- The timestamp of an integer in range. -/
def ofInt? (z : Int) : Option Timestamp :=
  if h : -9223372036854775808 ≤ z ∧ z ≤ 9223372036854775807 then some ⟨z, h.1, h.2⟩ else none

/-- One millisecond earlier; the least timestamp stays. -/
def pred (t : Timestamp) : Timestamp :=
  if h : -9223372036854775808 < t.millis then
    ⟨t.millis - 1, by omega, by have := t.millis_le; omega⟩
  else t

instance : LE Timestamp := ⟨fun s t => s.millis ≤ t.millis⟩
instance : LT Timestamp := ⟨fun s t => s.millis < t.millis⟩
instance (s t : Timestamp) : Decidable (s ≤ t) := inferInstanceAs (Decidable (s.millis ≤ t.millis))
instance (s t : Timestamp) : Decidable (s < t) := inferInstanceAs (Decidable (s.millis < t.millis))

instance : ToString Timestamp := ⟨fun t => toString t.millis⟩

theorem le_iff {s t : Timestamp} : s ≤ t ↔ s.millis ≤ t.millis := Iff.rfl

theorem lt_iff {s t : Timestamp} : s < t ↔ s.millis < t.millis := Iff.rfl

/-- A timestamp is its milliseconds. -/
theorem eq_of_millis {s t : Timestamp} (h : s.millis = t.millis) : s = t := by
  cases s
  cases t
  simp only [mk.injEq]
  exact h

/-- Stepping back from any timestamp but the least is subtraction of one. -/
theorem millis_pred (t : Timestamp) :
    t.pred.millis = if t = least then t.millis else t.millis - 1 := by
  have h := t.le_millis
  by_cases ht : -9223372036854775808 < t.millis
  · have hne : t ≠ least := by
      intro e
      rw [e] at ht
      exact absurd ht (by decide)
    simp [pred, ht, hne]
  · have he : t.millis = -9223372036854775808 := by omega
    have hel : t = least := by
      cases t
      simp only [least, mk.injEq]
      exact he
    simp [pred, hel, least]

end Timestamp

end Tidemark
