import Tidemark.Destination.InMemory
import Tidemark.Rehearsal.Agenda

/-!
# Handles of submitted records

The number of a submitted record is its handle. A handle resolves once, and what it resolved to can be
taken once; awaiting it in vain changes nothing. `Reply` is what the steps of a rehearsal answer.
-/

namespace Tidemark.Rehearsal

/-- A handle: its outcome, whether that was taken, and the completion that waits for it. -/
structure Handle where
  outcome : Option Outcome := none
  taken : Bool := false
  waiter : Option Nat := none

/-- What a step of a rehearsal answers. -/
inductive Reply where
  | nothing
  | flag (b : Bool)
  | number (n : Nat)
  | numbers (m n : Nat)
  | names (names : List String)
  | written (entries : List LogEntry)
  | watermarks (entries : List (String × Timestamp))
  | payloads (payloads : List ByteArray)
  | handle (result : Except Fault Nat)
  | outcome (outcome : Outcome)
  | outcomes (replies : List Reply)
  | page (result : Except Fault Page)
  | finished (result : Except Fault Unit)
  | pending
  | taken
  | missing
  | done
  | aborted

/-- The answer of a call that may not have come in time. -/
def Reply.ofTimed {α : Type} (answer : α → Reply) : Option α → Reply
  | some a => answer a
  | none => .pending

/-- What a client does. -/
inductive ClientStep where
  | submit (record : Record)
  /-- Submits numbered events whose payloads start alike. -/
  | submitMany (count : Nat) (name : String)
  | await (index : Nat)
  /-- Awaits all outcomes that were not taken, in order. -/
  | awaitAll
  | put (record : Record)
  | list (token : Option String)
  | flush
  | sleep (ms : Nat)

/-- The record of a numbered event. -/
def numberedRecord (name : String) (number : Nat) : Record :=
  let payload := (name ++ toString number).toUTF8
  ⟨payload, .byKey (Event.keyOf payload)⟩

/-- How tasks run in a world with handles, and where the handles are. -/
structure Clientele (σ τ : Type) where
  perform : τ → World σ τ → World σ τ
  handles : σ → Array Handle
  withHandles : σ → Array Handle → σ

namespace Clientele

variable {σ τ : Type}

def outcome? (k : Clientele σ τ) (s : σ) (index : Nat) : Option Outcome :=
  (k.handles s)[index]?.bind (·.outcome)

/-- Awaits a handle and takes its outcome. -/
def await (k : Clientele σ τ) (w : World σ τ) (index : Nat) : Reply × World σ τ :=
  match (k.handles w.state)[index]? with
  | none => (.missing, w)
  | some h =>
    if h.taken then (.taken, w)
    else
      let (_, w) := w.waitFor k.perform (fun w => (k.outcome? w.state index).isSome) w.deadline
      match k.outcome? w.state index with
      | none => (.pending, w)
      | some outcome =>
        let handles :=
          (k.handles w.state).setIfInBounds index { outcome := some outcome, taken := true }
        (.outcome outcome, { w with state := k.withHandles w.state handles })

/-- Awaits those handles of a list that were not taken. -/
def awaitEach (k : Clientele σ τ) (w : World σ τ) : List Nat → List Reply × World σ τ
  | [] => ([], w)
  | index :: rest =>
    match k.await w index with
    | (.taken, w) => k.awaitEach w rest
    | (reply, w) =>
      let (replies, w) := k.awaitEach w rest
      (reply :: replies, w)

/-- Awaits all handles that were not taken. -/
def awaitAll (k : Clientele σ τ) (w : World σ τ) : Reply × World σ τ :=
  let (replies, w) := k.awaitEach w (List.range (k.handles w.state).size)
  (.outcomes replies, w)

end Clientele

end Tidemark.Rehearsal
