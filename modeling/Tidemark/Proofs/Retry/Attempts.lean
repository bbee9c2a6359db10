import Tidemark.Backoff

/-!
# The attempts of a backoff

A backoff with a limit has a delay as long as fewer attempts are counted than the limit allows, and counts one with
every delay. As the limit is a number of 32 bits, so is every count that is reached.
-/

namespace Tidemark.Backoff

variable {b : Backoff} {most : Nat}

/-- A limited backoff is exhausted when as many attempts are counted as it may have. -/
theorem exhausted_iff (hmost : b.maxAttempts = some most) : b.exhausted = true ↔ most ≤ b.attempt.toNat := by
  rw [exhausted, hmost]
  exact decide_eq_true_iff

/-- What is exhausted gives no delay and stays as it is. -/
theorem next_of_exhausted (h : b.exhausted = true) (draw : Binary64) : b.next draw = (none, b) := by
  rw [next, if_pos h]

/-- There is no delay exactly when the backoff is exhausted. -/
theorem next_eq_none_iff_exhausted (b : Backoff) (draw : Binary64) :
    (b.next draw).1 = none ↔ b.exhausted = true := by
  rw [next]
  split <;> simp_all

/-- A limited backoff has no delay exactly when as many attempts are counted as it may have. -/
theorem next_eq_none_iff (hmost : b.maxAttempts = some most) (draw : Binary64) :
    (b.next draw).1 = none ↔ most ≤ b.attempt.toNat := by
  rw [next_eq_none_iff_exhausted, exhausted_iff hmost]

theorem maxAttempts_next (b : Backoff) (draw : Binary64) : (b.next draw).2.maxAttempts = b.maxAttempts := by
  rw [next]
  split <;> rfl

/-- An attempt that is left is counted without a carry. -/
theorem attempt_next (hmost : b.maxAttempts = some most) (hlt : most < 2 ^ 32) (hleft : b.attempt.toNat < most)
    (draw : Binary64) : (b.next draw).2.attempt.toNat = b.attempt.toNat + 1 := by
  have hgoes : ¬ b.exhausted = true := by
    rw [exhausted_iff hmost]
    exact Nat.not_le.2 hleft
  rw [next, if_neg hgoes]
  show (b.attempt + 1).toNat = b.attempt.toNat + 1
  rw [UInt32.toNat_add, UInt32.toNat_one, Nat.mod_eq_of_lt (by omega)]

end Tidemark.Backoff
