import Tidemark.Time.Span

/-!
# Whole milliseconds

The clock stops at whole milliseconds only: what ends in between ends at the next one (`roundUp_isNextMilli`). A
sleep ends there too, the given length after it begins; one that no clock can count to the end of is thirty years
long instead (`wake_isNextMilli`).
-/

namespace Tidemark

/-- The next whole number of milliseconds, or the span itself if it is one. -/
def Span.roundUp (d : Span) : Span :=
  ⟨(d.nanos + Span.nanosPerMilli - 1) / Span.nanosPerMilli * Span.nanosPerMilli⟩

namespace Instant

theorem le_roundUp (t : Instant) : t ≤ t.roundUp := by
  show t.nanos ≤ (t.nanos + 1000000 - 1) / 1000000 * 1000000
  omega

/-- Of two instants the later one is rounded up to no earlier millisecond. -/
theorem roundUp_mono {t u : Instant} (h : t ≤ u) : t.roundUp ≤ u.roundUp := by
  have h : t.nanos ≤ u.nanos := h
  show (t.nanos + 1000000 - 1) / 1000000 * 1000000 ≤ (u.nanos + 1000000 - 1) / 1000000 * 1000000
  omega

/-- The first whole millisecond that is not before an instant. -/
structure IsNextMilli (t t' : Instant) : Prop where
  le : t ≤ t'
  whole : Span.nanosPerMilli ∣ t'.nanos
  near : t'.nanos < t.nanos + Span.nanosPerMilli

/-- What is rounded up is the next whole millisecond. -/
theorem roundUp_isNextMilli (t : Instant) : t.IsNextMilli t.roundUp where
  le := le_roundUp t
  whole := Nat.dvd_mul_left _ _
  near := by
    show (t.nanos + 1000000 - 1) / 1000000 * 1000000 < t.nanos + 1000000
    omega

/-- What begins at a whole millisecond lasts whole milliseconds. -/
theorem roundUp_after {t : Instant} (h : Span.nanosPerMilli ∣ t.nanos) (d : Span) :
    (t.after d).roundUp = t.after d.roundUp := by
  obtain ⟨k, hk⟩ := h
  have hk : t.nanos = 1000000 * k := hk
  refine congrArg Instant.mk ?_
  show (t.nanos + d.nanos + 1000000 - 1) / 1000000 * 1000000 =
    t.nanos + (d.nanos + 1000000 - 1) / 1000000 * 1000000
  omega

/-- How long a sleep is that begins at an instant. -/
def slept (t : Instant) (d : Span) : Span :=
  if t.after d < horizon then d else Span.farAway

/-- A sleep ends at the first whole millisecond that its length allows. -/
theorem wake_isNextMilli (t : Instant) (d : Span) : (t.after (t.slept d)).IsNextMilli (t.wake d) := by
  have hwake : t.wake d = (t.after (t.slept d)).roundUp := by
    rw [wake, after?, slept]
    split <;> rfl
  rw [hwake]
  exact roundUp_isNextMilli _

theorem le_wake (t : Instant) (d : Span) : t ≤ t.wake d :=
  Nat.le_trans (Nat.le_add_right ..) (wake_isNextMilli t d).le

end Instant

end Tidemark
