import Tidemark.Backoff
import Tidemark.Record
import Tidemark.Shards.Fault

/-!
# Batches

A batch is written by one request, and by further ones for the records that were throttled. Every answer
has an entry for each record of its request, in their order:

```
request  a b c     answer  ok  throttled  fault     a acknowledged, c failed
request  b         answer  ok                       b acknowledged
```

All records of a request have been tried equally often. A record without an entry of its own is dropped.
-/

namespace Tidemark.Shards

/-- A record with the number of its handle. -/
structure Submitted where
  handle : Nat
  record : Record

/-- The entry of an answer for one record. -/
inductive Entry where
  | accepted (ack : Ack)
  | refused (code : String) (message : Option String)
  deriving DecidableEq, Repr

/-- An answer to a request: it was refused as a whole, or has entries. -/
abbrev BatchAnswer := Except Refusal (List Entry)

/-- What becomes of a record for now. -/
inductive Verdict where
  | settled (outcome : Outcome)
  /-- It was throttled, with a fault in case that it is not tried again. -/
  | throttled (fault : Fault)

namespace Entry

/-- What an entry says of its record. -/
def verdict : Entry → Verdict
  | accepted ack => .settled (.ok ack)
  | refused code message =>
    let text := code ++ ": " ++ message.getD ""
    if StreamFault.isThrottling code then .throttled (StreamFault.throttled text).toFault
    else .settled (.error (StreamFault.service text).toFault)

end Entry

/-- What a refused request says of each of its records. A refusal that is no throttling is reported as the
fault that it is, within a fault of the service. -/
def refusedVerdict (r : Refusal) : Verdict :=
  match StreamFault.ofRefusal r with
  | .throttled text => .throttled (StreamFault.throttled text).toFault
  | other => .settled (.error (StreamFault.service other.message).toFault)

/-- A batch under way: what the next request writes, and how many requests were made. -/
structure Batch where
  records : List Submitted
  maxAttempts : Nat
  attempts : Nat := 0
  backoff : Backoff

namespace Batch

/-- The delays between the requests of a batch grow from this. -/
def retryBase : Span := Span.ofMillis 100

/-- The longest delay between the requests of a batch. -/
def retryCap : Span := Span.ofSeconds 5

def start (records : List Submitted) (maxAttempts : Nat) : Batch :=
  { records, maxAttempts
    backoff := Backoff.create retryBase retryCap (Binary64.ofNat 2) (Binary64.ofRatio false 1 2) none }

/-- The verdicts of an answer on the records of its request. -/
def verdicts (answer : BatchAnswer) (records : List Submitted) : List Verdict :=
  match answer with
  | .error refusal => records.map fun _ => refusedVerdict refusal
  | .ok entries =>
    (records.zipIdx).map fun (_, i) =>
      match entries[i]? with
      | some entry => entry.verdict
      | none => .settled (.error (.destination .dropped))

/-- What becomes of a record after so many attempts; none if it is tried again. -/
def outcome? (maxAttempts attempts : Nat) : Verdict → Option Outcome
  | .settled outcome => some outcome
  | .throttled fault => if attempts < maxAttempts then none else some (.error fault)

/-- Takes the answer to a request: the handles that resolve, in the order of the request, and the records
that are tried again. -/
def answered (b : Batch) (answer : BatchAnswer) : List (Nat × Outcome) × List Submitted :=
  let judged := b.records.zip ((verdicts answer b.records).map (outcome? b.maxAttempts (b.attempts + 1)))
  (judged.filterMap fun (s, outcome) => outcome.map (s.handle, ·),
    (judged.filter (·.2.isNone)).map (·.1))

/-- The batch of the records that are tried again, after a delay. -/
def retry (b : Batch) (draw : Binary64) (records : List Submitted) : Span × Batch :=
  let (d, backoff) := b.backoff.next draw
  (d.getD retryCap, { b with records, backoff, attempts := b.attempts + 1 })

end Batch

end Tidemark.Shards
