import Tidemark.Shards.Batch
import Tidemark.Shards.Config

/-!
# The producer

Submitted records are gathered and written in batches. The producer takes messages one at a time, and
hands a batch over when it is full, when its oldest record has waited long enough, when somebody flushes,
and when nobody is left to submit:

```
             message ─> gather ──── full, too large, flush, closed, deadline
listening ──┤                                      v
             deadline ──────────────────────> dispatching ── a permit is free ──> batch
    ^                                              v
    └──────────────────────────────────────── settling, after a flush: until no batch runs
```

At most so many batches run at once. A buffer that is handed over is empty from then on; while the producer
waits for a permit or for its batches it takes no message. It crashes if no clock counts to the deadline of
a record, and what it had not handed over is lost then; with more batches than permits are counted for it
has crashed from the start.
-/

namespace Tidemark.Shards

/-- What is said to a producer. -/
inductive Message where
  | submit (s : Submitted)
  | flush (id : Nat)

/-- What a producer goes on with once its buffer is handed over. -/
inductive Continuation where
  | gather (s : Submitted)
  | listen
  | flush (id : Nat)
  | close

/-- What a producer waits for. -/
inductive ProducerStage where
  | listening
  /-- It waits for a permit for a batch. -/
  | dispatching (batch : List Submitted) (next : Continuation)
  /-- It waits until no batch runs. -/
  | settling (flush : Option Nat)
  | stopped
  | crashed

structure Producer where
  maxBufferedTime : Span
  maxBatchRecords : Nat
  maxOutstandingBatches : Nat
  inbox : List Message := []
  /-- Whether nobody is left to submit. -/
  closed : Bool := false
  stage : ProducerStage := .listening
  buffer : List Submitted := []
  bufferedBytes : Nat := 0
  deadline : Option Instant := none
  /-- Batches that run. -/
  running : Nat := 0

/-- What a step of a producer does to the world. -/
inductive ProducerAct where
  | quiet
  | spawn (batch : List Submitted)
  | flushed (id : Nat)
  | stop
  /-- It crashed, and so many handles are lost. -/
  | crash (lost : List Nat)

namespace Producer

/-- A request writes at most so many bytes. -/
def mostBytes : Nat := 5 * 1024 * 1024

/-- Permits are counted up to this. -/
def mostPermits : Nat := 2 ^ 61 - 1

/-- A producer that nothing was said to yet. One that may run more batches than permits are counted for has
crashed before it takes anything. -/
def start (c : StreamConfig) : Producer :=
  { maxBufferedTime := c.maxBufferedTime
    maxBatchRecords := c.maxBatchRecords
    maxOutstandingBatches := c.maxOutstandingBatches
    stage := if c.maxOutstandingBatches ≤ mostPermits then .listening else .crashed }

/-- What is in the place of a producer until one is started: nothing is taken by it. -/
def absent : Producer :=
  { maxBufferedTime := Span.zero
    maxBatchRecords := 0
    maxOutstandingBatches := 0
    stage := .stopped }

/-- Whether messages are still taken. -/
def isAlive (p : Producer) : Bool :=
  match p.stage with
  | .stopped | .crashed => false
  | _ => true

/-- Says something to the producer. -/
def tell (p : Producer) (m : Message) : Producer :=
  { p with inbox := p.inbox ++ [m] }

/-- Nobody is left to submit. -/
def close (p : Producer) : Producer :=
  { p with closed := true }

/-- A batch has ended. -/
def batchEnded (p : Producer) : Producer :=
  { p with running := p.running - 1 }

/-! ### Steps -/

/-- Goes on without a batch to hand over. -/
def settle (p : Producer) (next : Option Nat) : Producer :=
  { p with stage := .settling next }

/-- The handles of everything that was not handed over. -/
def lostHandles (p : Producer) (current : Submitted) : List Nat :=
  (p.buffer.map (·.handle)) ++ current.handle ::
    p.inbox.filterMap fun
      | .submit s => some s.handle
      | .flush _ => none

/-- Takes what is in the buffer out of it, to be handed over before something else. -/
def handOver (p : Producer) (next : Continuation) : Producer :=
  { p with
    stage := .dispatching p.buffer next
    buffer := []
    bufferedBytes := 0
    deadline := none }

/-- Puts a record into the buffer; a full one is handed over. -/
def gather (p : Producer) (now : Instant) (s : Submitted) : Producer × ProducerAct :=
  let deadline := if p.buffer.isEmpty then now.after? p.maxBufferedTime else p.deadline
  match deadline with
  | none => ({ p with stage := .crashed, inbox := [], buffer := [] }, .crash (p.lostHandles s))
  | some _ =>
    let p := { p with
      stage := .listening
      deadline
      bufferedBytes := p.bufferedBytes + s.record.size
      buffer := p.buffer ++ [s] }
    if p.maxBatchRecords ≤ p.buffer.length then (p.handOver .listen, .quiet) else (p, .quiet)

/-- Goes on once a buffer is handed over. -/
def resume (p : Producer) (now : Instant) : Continuation → Producer × ProducerAct
  | .gather s => p.gather now s
  | .listen => ({ p with stage := .listening }, .quiet)
  | .flush id => (p.settle (some id), .quiet)
  | .close => (p.settle none, .quiet)

/-- Takes a message. -/
def take (p : Producer) (now : Instant) : Message → Producer × ProducerAct
  | .submit s =>
    if mostBytes < p.bufferedBytes + s.record.size then (p.handOver (.gather s), .quiet)
    else p.gather now s
  | .flush id => (p.handOver (.flush id), .quiet)

/-- Whether the deadline has passed. Clocks wake at whole milliseconds. -/
def isOverdue (p : Producer) (now : Instant) : Bool :=
  match p.deadline with
  | some deadline => deadline.roundUp ≤ now
  | none => false

/-- The next step of a producer, none while it waits. A message is taken before a deadline that has
passed. -/
def step? (p : Producer) (now : Instant) : Option (Producer × ProducerAct) :=
  match p.stage with
  | .listening =>
    match p.inbox with
    | m :: rest => some ({ p with inbox := rest }.take now m)
    | [] =>
      if p.closed then some (p.handOver .close, .quiet)
      else if p.isOverdue now then some (p.handOver .listen, .quiet)
      else none
  | .dispatching [] next => some (p.resume now next)
  | .dispatching batch next =>
    if p.running < p.maxOutstandingBatches then
      some ({ p with stage := .dispatching [] next, running := p.running + 1 }, .spawn batch)
    else none
  | .settling next =>
    if p.running = 0 then
      match next with
      | some id => some ({ p with stage := .listening }, .flushed id)
      | none => some ({ p with stage := .stopped }, .stop)
    else none
  | .stopped => none
  | .crashed => none

end Producer

end Tidemark.Shards
