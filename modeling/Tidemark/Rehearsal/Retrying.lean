import Tidemark.Backoff
import Tidemark.Rehearsal.Agenda
import Tidemark.Retry

/-!
# Rehearsals of a retried operation

An operation takes no time and gives its outcomes in order, the last one again and again. It is called until an
outcome is final, with the delays of a backoff between the calls.
-/

namespace Tidemark.Rehearsal

/-- Calls an operation within so many calls; gives the final outcome, if there is one, and the moments of
the calls. -/
def rehearseRetry {ε α : Type} (retryable : ε → Bool) (draw : Binary64) (outcomes : List (Except ε α))
    (b : Backoff) (a : Agenda Unit) (n : Nat) : Option (Except ε α) × List Instant :=
  match outcomes.getLast? with
  | none => (none, [])
  | some last =>
    let retry : Retry ε α Backoff :=
      { retryable
        next := (·.next draw)
        operation := fun i => (Span.zero, outcomes.getD i last) }
    let r := retry.run n { now := a.now, delays := b }
    (r.result, r.calls.map (·.began))

end Tidemark.Rehearsal
