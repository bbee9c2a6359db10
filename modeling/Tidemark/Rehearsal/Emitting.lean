import Tidemark.Rehearsal.Streaming
import Tidemark.Watermark

/-!
# Rehearsals of watermark cycles

Cycles are run against a stage, one request after the other. Nothing limits how long they take, so only a
request that crashes has no answer. The rehearsal ends with it.
-/

namespace Tidemark.Rehearsal

inductive EmittingStep where
  | record (count : Nat)
  | due (now : Option Instant)
  | compute (next : Timestamp)
  | maybeEmit (now : Option Instant) (next : Timestamp)
  | emit (watermark : Timestamp)
  | listAll
  | advance (d : Span)
  | add (key : EventKey)
  | remove (key : EventKey)
  | stream (step : StreamStep)

/-- What a step on an emitter answers. -/
inductive EmittingReply where
  | stream (reply : Reply)
  | due (isDue : Bool) (left : Span)
  | watermark (watermark : Timestamp)
  | cycle (result : Except Fault (Option (Timestamp × EmitOutcome)))
  | outcome (result : Except Fault EmitOutcome)
  | listed (result : Except Fault (List Descriptor))

/-- An emitter on its stage. -/
structure Emitting where
  stage : Stage
  emitter : Emitter
  tracker : Tracker := {}
  instruments : Instruments := {}

namespace Emitting

/-- A limit that no delay reaches. -/
def noLimit (s : Stage) : Instant :=
  s.now.after Span.longest

/-- A call that came back. -/
def answered {α : Type} : Option α × Stage → Option (α × Stage)
  | (some a, s) => some (a, s)
  | (none, _) => none

/-- The stage as a destination. -/
def destination : Destination Stage where
  list s token := answered (s.list token (noLimit s))
  put s record := answered (s.put record (noLimit s))
  now s := s.now

/-- More requests than a cycle makes of a stream in memory. -/
def manyRequests : Nat := 2 ^ 65

/-- Writes a watermark to all partitions. -/
def emit (e : Emitting) (watermark : Timestamp) : Option (Except Fault EmitOutcome) × Emitting :=
  match (Cycle.start watermark).run destination e.instruments e.stage manyRequests with
  | none => (none, e)
  | some (result, instruments, stage) => (some result, { e with instruments, stage })

/-- Lists all partitions. -/
def listAll (e : Emitting) : Option (Except Fault (List Descriptor)) × Emitting :=
  match Listing.run destination {} e.stage manyRequests with
  | none => (none, e)
  | some (result, stage) => (some result, { e with stage })

/-- Runs a cycle if one is due at an instant. -/
def maybeEmit (e : Emitting) (now : Instant) (next : Timestamp) :
    Option (Except Fault (Option (Timestamp × EmitOutcome))) × Emitting :=
  match e.emitter.maybeEmit destination e.tracker now next e.instruments e.stage manyRequests with
  | none => (none, e)
  | some (result, emitter, instruments, stage) => (some result, { e with emitter, instruments, stage })

/-- What a step answers; none when it crashes. -/
def step (e : Emitting) : EmittingStep → Option EmittingReply × Emitting
  | .record count =>
    (some (.stream .nothing), { e with emitter := e.emitter.recordEvents count })
  | .due now =>
    let now := now.getD e.stage.now
    (some (.due (e.emitter.isDue now) (e.emitter.timeUntilDue now)), e)
  | .compute next => (some (.watermark (Emitter.compute e.tracker next)), e)
  | .maybeEmit now next =>
    let (result, e) := e.maybeEmit (now.getD e.stage.now) next
    (result.map .cycle, e)
  | .emit watermark =>
    let (result, e) := e.emit watermark
    (result.map .outcome, e)
  | .listAll =>
    let (result, e) := e.listAll
    (result.map .listed, e)
  | .advance d =>
    (some (.stream .nothing), { e with stage := e.stage.waitUntil (e.stage.now.after d) })
  | .add key => (some (.stream .nothing), { e with tracker := e.tracker.add key })
  | .remove key => (some (.stream .nothing), { e with tracker := e.tracker.remove key })
  | .stream step =>
    let (reply, stage) := e.stage.stream step
    (some (.stream reply), { e with stage })

/-- The calls since the last look, oldest first. -/
def takeCalls (e : Emitting) : List (Instant × Call) × Emitting :=
  (e.stage.calls, { e with stage := { e.stage with state := { e.stage.state with calls := [] } } })

end Emitting

/-- What a step answered, the calls that it made, and the emitter after it. -/
structure EmittingRow where
  reply : EmittingReply
  lastWatermark : Option Timestamp
  recordsEmitted : Nat
  cyclesSkipped : Nat
  calls : List (Instant × Call)

/-- Rehearses an emitter: a row for every step, and how it stands at the end. None when a step crashes. -/
def rehearseEmitter (e : Emitting) : List EmittingStep → Option (List EmittingRow × Emitting)
  | [] => some ([], e)
  | step :: rest => do
    let (reply?, e) := e.step step
    let reply ← reply?
    let (calls, e) := e.takeCalls
    let (rows, last) ← rehearseEmitter e rest
    return (⟨reply, e.emitter.lastWatermark, e.emitter.recordsEmitted, e.emitter.cyclesSkipped, calls⟩
      :: rows, last)

end Tidemark.Rehearsal
