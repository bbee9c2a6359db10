import Tidemark.Time.Span

/-!
# Operations that are retried

An operation is called until it succeeds, or fails in a way that does not pass, or there are no delays left.
Between two calls there is a sleep, whose length is drawn when the first of them has failed:

```
call ── fails, and may pass ── draw ── a delay ─> sleep ─> call ── ...
  |                              └── none ─> the failure is the result
  └── succeeds, or fails for good ─> this is the result
```

Delays are drawn from anything that gives them one at a time.
-/

namespace Tidemark

/-- What to do after a call of an operation that is retried. -/
inductive RetryStep (ε α : Type) where
  | finished (result : Except ε α)
  | again (after : Span)

/-- Decides on the outcome of a call: another one after the next delay if the failure is of the kind that
passes and there is a delay left, otherwise the outcome itself. -/
def retryStep {ε α δ : Type} (retryable : ε → Bool) (next : δ → Option Span × δ) (delays : δ)
    (outcome : Except ε α) : RetryStep ε α × δ :=
  match outcome with
  | .ok value => (.finished (.ok value), delays)
  | .error e =>
    if retryable e then
      match next delays with
      | (some d, delays) => (.again d, delays)
      | (none, delays) => (.finished (.error e), delays)
    else (.finished (.error e), delays)

/-- A call of an operation. -/
structure RetryCall (ε α : Type) where
  began : Instant
  ended : Instant
  outcome : Except ε α

/-- An operation that is being retried. -/
structure Retrial (ε α δ : Type) where
  now : Instant
  /-- The delays that are left. -/
  delays : δ
  /-- The calls so far, the first first. -/
  calls : List (RetryCall ε α) := []
  result : Option (Except ε α) := none

/-- What is retried, and how. -/
structure Retry (ε α δ : Type) where
  /-- Whether a failure may pass. -/
  retryable : ε → Bool
  /-- Draws a delay. -/
  next : δ → Option Span × δ
  /-- How long each call takes, and what comes of it. -/
  operation : Nat → Span × Except ε α

namespace Retry

variable {ε α δ : Type}

/-- Calls the operation, and sleeps if it is to be called again. Nothing happens once there is a result. -/
def step (p : Retry ε α δ) (r : Retrial ε α δ) : Retrial ε α δ :=
  match r.result with
  | some _ => r
  | none =>
    let (took, outcome) := p.operation r.calls.length
    let ended := r.now.after took
    let calls := r.calls ++ [⟨r.now, ended, outcome⟩]
    match retryStep p.retryable p.next r.delays outcome with
    | (.finished result, delays) => { now := ended, delays, calls, result := some result }
    | (.again d, delays) => { now := ended.wake d, delays, calls }

/-- Goes on for so many calls, or until there is a result. -/
def run (p : Retry ε α δ) : Nat → Retrial ε α δ → Retrial ε α δ
  | 0, r => r
  | n + 1, r => if r.result.isSome then r else p.run n (p.step r)

end Retry

end Tidemark
