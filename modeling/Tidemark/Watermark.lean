import Tidemark.Config
import Tidemark.Journal
import Tidemark.Tracker

/-!
# Watermarks

A watermark promises that no older event will follow. It is one millisecond before the oldest event in
flight, or before the next event when nothing is in flight. A cycle is due at the start, after every
interval and after every so many events; it lists all partitions, page by page, and then writes one record
to each of them:

```
due ─> watermark ─> listing ─> ... ─> writing ─> ... ─> emitted
                       └── throttled ──────┴─> skipped          any other fault ends the replay
```

A cycle is a machine that asks the destination for one thing at a time: `Cycle.request?` is what it asks
for, `Cycle.listed` and `Cycle.wrote` take the answer. `Cycle.run` has a destination answer until the cycle
has ended, and `Emitter.maybeEmit` runs a cycle when one is due.
-/

namespace Tidemark

/-- A destination as cycles meet it: its answers to the two calls, itself after them, and the time on its
clock. A call that never comes back has no answer. -/
structure Destination (σ : Type) where
  list : σ → Option String → Option (Except Fault Page × σ)
  put : σ → Record → Option (Outcome × σ)
  now : σ → Instant

/-- What became of the watermark of a cycle. -/
inductive EmitOutcome where
  | emitted (partitions : Nat)
  | skipped
  | disabled
  deriving DecidableEq, Repr

/-- A listing under way: the partitions found so far and the token to go on with. -/
structure Listing where
  found : List Descriptor := []
  token : Option String := none
  deriving DecidableEq, Repr

namespace Listing

/-- Takes a page: the listing goes on with its token, or is complete without one. -/
def absorb (l : Listing) (page : Page) : List Descriptor ⊕ Listing :=
  let found := l.found ++ page.partitions
  match page.next with
  | none => .inl found
  | some token => .inr ⟨found, some token⟩

/-- Lists page after page until there is no token, within so many requests. -/
def run {σ : Type} (d : Destination σ) (l : Listing) (s : σ) :
    Nat → Option (Except Fault (List Descriptor) × σ)
  | 0 => none
  | n + 1 => do
    let (answer, s) ← d.list s l.token
    match answer with
    | .error fault => some (.error fault, s)
    | .ok page =>
      match l.absorb page with
      | .inl found => some (.ok found, s)
      | .inr l => run d l s n

end Listing

/-- How far a cycle has come. -/
inductive CycleStage where
  | listing (l : Listing)
  | writing (left : List Descriptor) (listed : Nat)
  | ended (result : Except Fault EmitOutcome)

/-- A cycle under way. -/
structure Cycle where
  watermark : Timestamp
  stage : CycleStage

/-- What a cycle asks the destination for. -/
inductive CycleRequest where
  | list (token : Option String)
  | put (record : Record)

namespace Cycle

def start (watermark : Timestamp) : Cycle :=
  ⟨watermark, .listing {}⟩

def request? (c : Cycle) : Option CycleRequest :=
  match c.stage with
  | .listing l => some (.list l.token)
  | .writing (d :: _) _ => some (.put (Record.ofWatermark c.watermark d.lower))
  | .writing [] _ => none
  | .ended _ => none

/-- Ends the cycle: everything is written, or a fault came first. Throttling skips the cycle. -/
def finish (c : Cycle) (result : Except Fault Nat) (i : Instruments) : Cycle × Instruments :=
  match result with
  | .ok partitions =>
    (⟨c.watermark, .ended (.ok (.emitted partitions))⟩,
      i.note (.watermarkSent c.watermark partitions))
  | .error fault =>
    if fault.isThrottled then
      let metrics := { i.metrics with cyclesSkipped := Metrics.advance i.metrics.cyclesSkipped 1 }
      (⟨c.watermark, .ended (.ok .skipped)⟩,
        { i with metrics }.note (.cycleSkipped fault))
    else (⟨c.watermark, .ended (.error fault)⟩, i)

/-- Goes on to write to the partitions that are left. -/
def write (c : Cycle) (left : List Descriptor) (listed : Nat) (i : Instruments) :
    Cycle × Instruments :=
  match left with
  | [] => c.finish (.ok listed) i
  | d :: rest => (⟨c.watermark, .writing (d :: rest) listed⟩, i)

/-- Takes the answer to a listing. -/
def listed (c : Cycle) (answer : Except Fault Page) (i : Instruments) : Cycle × Instruments :=
  match c.stage with
  | .listing l =>
    match answer with
    | .error fault => c.finish (.error fault) i
    | .ok page =>
      match l.absorb page with
      | .inl found => c.write found found.length i
      | .inr l => (⟨c.watermark, .listing l⟩, i)
  | _ => (c, i)

/-- Takes the answer to a put. -/
def wrote (c : Cycle) (answer : Outcome) (i : Instruments) : Cycle × Instruments :=
  match c.stage with
  | .writing (d :: rest) listed =>
    match answer with
    | .error fault => c.finish (.error fault) i
    | .ok ack =>
      let emitted := Metrics.advance i.metrics.watermarksEmitted 1
      let i := { i with metrics := { i.metrics with watermarksEmitted := emitted } }
      c.write rest listed (i.note (.watermarkWritten c.watermark d.partition ack.partition))
  | _ => (c, i)

/-- Runs a cycle to its end, within so many requests. -/
def run {σ : Type} (d : Destination σ) (c : Cycle) (i : Instruments) (s : σ) (requests : Nat) :
    Option (Except Fault EmitOutcome × Instruments × σ) :=
  match c.stage, requests with
  | .ended result, _ => some (result, i, s)
  | _, 0 => none
  | _, n + 1 =>
    match c.request? with
    | some (.list token) => do
      let (answer, s) ← d.list s token
      let (c, i) := c.listed answer i
      run d c i s n
    | some (.put record) => do
      let (answer, s) ← d.put s record
      let (c, i) := c.wrote answer i
      run d c i s n
    | none => none

end Cycle

/-- When the next cycle is due, and the totals of those that ended. Events and totals are words of 64 bits, which a
replay does not exceed (`Replay.counters_fit`). -/
structure Emitter where
  config : WatermarkConfig
  lastCycle : Option Instant := none
  eventsSince : Nat := 0
  lastWatermark : Option Timestamp := none
  recordsEmitted : Nat := 0
  cyclesSkipped : Nat := 0
  deriving DecidableEq

namespace Emitter

/-- Counts events that were sent. -/
def recordEvents (e : Emitter) (count : Nat) : Emitter :=
  { e with eventsSince := e.eventsSince + count }

/-- The time left until a cycle is due; zero when it is. -/
def timeUntilDue (e : Emitter) (now : Instant) : Span :=
  if e.config.eventCount ≤ e.eventsSince then Span.zero
  else match e.lastCycle with
    | none => Span.zero
    | some last => e.config.interval.saturatingSub (now.since last)

def isDue (e : Emitter) (now : Instant) : Bool :=
  e.timeUntilDue now = Span.zero

/-- The watermark at a moment: before the oldest event in flight, or before the next one. -/
def compute (tracker : Tracker) (next : Timestamp) : Timestamp :=
  match tracker.oldest? with
  | some oldest => oldest.timestamp.pred
  | none => next.pred

/-- Books a cycle that ended at an instant, written, skipped or disabled alike. -/
def complete (e : Emitter) (now : Instant) (watermark : Timestamp) (outcome : EmitOutcome)
    (i : Instruments) : Emitter × Instruments :=
  let e := match outcome with
    | .emitted partitions => { e with recordsEmitted := e.recordsEmitted + partitions }
    | .skipped => { e with cyclesSkipped := e.cyclesSkipped + 1 }
    | .disabled => e
  ({ e with eventsSince := 0, lastCycle := some now, lastWatermark := some watermark },
    { i with metrics := { i.metrics with watermark := watermark.millis } })

/-- Runs a cycle if one is due at an instant, within so many requests. A fault ends it before it is
booked. -/
def maybeEmit {σ : Type} (d : Destination σ) (e : Emitter) (tracker : Tracker) (now : Instant)
    (next : Timestamp) (i : Instruments) (s : σ) (requests : Nat) :
    Option (Except Fault (Option (Timestamp × EmitOutcome)) × Emitter × Instruments × σ) :=
  if e.isDue now then do
    let watermark := compute tracker next
    let (result, i, s) ←
      if e.config.enabled then (Cycle.start watermark).run d i s requests
      else some (.ok .disabled, i, s)
    match result with
    | .error fault => some (.error fault, e, i, s)
    | .ok outcome =>
      let (e, i) := e.complete (d.now s) watermark outcome i
      some (.ok (some (watermark, outcome)), e, i, s)
  else some (.ok none, e, i, s)

end Emitter

end Tidemark
