import Tidemark.Backoff
import Tidemark.Shards.Fault

/-!
# Waiting for a stream to become active

A stream that is being created or updated is asked about again after a growing delay, thirty times at most.
Any other answer decides: an active stream is ready, everything else is a fault.
-/

namespace Tidemark.Shards

/-- What a status means for somebody who wants to write. -/
inductive Readiness where
  | ready
  | pending
  | unusable
  deriving DecidableEq, Repr

/-- The readiness of a status. -/
def readiness (status : String) : Readiness :=
  if status = "ACTIVE" then .ready
  else if status = "CREATING" || status = "UPDATING" then .pending
  else .unusable

/-- A stream that is asked about, with the delays that are left. -/
structure Activation where
  streamName : String
  backoff : Backoff

/-- What follows from an answer. -/
inductive ActivationStep where
  | ready
  | failed (fault : StreamFault)
  /-- The stream is asked about again. -/
  | again (status : String) (delay : Span) (next : Activation)

namespace Activation

/-- How often a stream is asked about again. -/
def waitAttempts : Nat := 30

def start (streamName : String) : Activation :=
  { streamName
    backoff := Backoff.create (Span.ofSeconds 1) (Span.ofSeconds 10)
      (Binary64.ofRatio false 3 2) (Binary64.ofRatio false 1 5) (some waitAttempts) }

/-- Takes an answer: a refusal, or a description with its status if there is one. -/
def answered (a : Activation) (draw : Binary64) (answer : Except Refusal (Option String)) :
    ActivationStep :=
  match answer with
  | .error refusal => .failed (StreamFault.ofRefusal refusal)
  | .ok none => .failed (.service ("no description for stream " ++ a.streamName))
  | .ok (some status) =>
    match readiness status with
    | .ready => .ready
    | .unusable =>
      .failed (.service ("stream " ++ a.streamName ++ " is " ++ status ++ ", cannot write to it"))
    | .pending =>
      match a.backoff.next draw with
      | (some d, backoff) => .again status d { a with backoff }
      | (none, _) =>
        .failed (.service
          ("stream " ++ a.streamName ++ " did not become active, still " ++ status))

end Activation

end Tidemark.Shards
