import Tidemark.Time.Span

/-!
# Exponential backoff

The delay before the n-th further attempt is `base * factor ^ (n - 1)` milliseconds, times a factor drawn
from around one if there is jitter, cut to whole milliseconds and capped. After a given number of delays
there is none. Attempts are counted in 32 bits. What happens when the count overflows depends on the build: one
that checks its arithmetic crashes (`overflows`), one that does not counts on from zero, as `next` does.
-/

namespace Tidemark

structure Backoff where
  base : Span
  cap : Span
  factor : Binary64
  jitter : Binary64
  maxAttempts : Option Nat
  attempt : UInt32 := 0

namespace Backoff

/-- The jitter is kept between zero and one; what is not a number stays so. -/
def clampJitter (x : Binary64) : Binary64 :=
  if x.less Binary64.zero then Binary64.zero
  else if (Binary64.ofNat 1).less x then Binary64.ofNat 1
  else x

def create (base cap : Span) (factor jitter : Binary64) (maxAttempts : Option Nat) : Backoff :=
  { base, cap, factor, jitter := clampJitter jitter, maxAttempts }

def reset (b : Backoff) : Backoff :=
  { b with attempt := 0 }

/-- The delay of the n-th attempt for a drawn factor, which counts only if there is jitter. -/
def delay (b : Backoff) (draw : Binary64) (attempt : UInt32) : Span :=
  let exponent := min (attempt.toNat - 1) 2147483647
  let plain := Binary64.ofNat b.base.millis * b.factor.power exponent
  let millis := if Binary64.zero.less b.jitter then plain * draw else plain
  if !millis.isFinite || (Binary64.ofNat b.cap.millis).atMost millis then b.cap
  else Span.ofMillis (millis.truncate 0 (2 ^ 64 - 1)).toNat

/-- Whether the delays are used up. -/
def exhausted (b : Backoff) : Bool :=
  match b.maxAttempts with
  | some most => most ≤ b.attempt.toNat
  | none => false

/-- The next delay, if there is one, and what is left. The count goes on from zero when it overflows, as in a build
that does not check its arithmetic. -/
def next (b : Backoff) (draw : Binary64) : Option Span × Backoff :=
  if b.exhausted then (none, b)
  else
    let b := { b with attempt := b.attempt + 1 }
    (some (b.delay draw b.attempt), b)

/-- How many of the next `n` delays there are. -/
def available (b : Backoff) (n : Nat) : Nat :=
  match b.maxAttempts with
  | some most => min n (most - b.attempt.toNat)
  | none => n

/-- Whether the count overflows on the next `n` delays. A build that checks its arithmetic crashes there. -/
def overflows (b : Backoff) (n : Nat) : Bool :=
  2 ^ 32 ≤ b.attempt.toNat + b.available n

/-- Passes over the next `n` delays, or over those that are left. -/
def skip (b : Backoff) (n : Nat) : Backoff :=
  { b with attempt := b.attempt + UInt32.ofNat (b.available n) }

/-- Skips `n` delays and gives the one after them, if there is one. -/
def nth (b : Backoff) (draw : Binary64) (n : Nat) : Option Span × Backoff :=
  (b.skip n).next draw

end Backoff

end Tidemark
