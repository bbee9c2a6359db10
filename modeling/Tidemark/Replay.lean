import Tidemark.Dispatch
import Tidemark.Pacing
import Tidemark.Statistics
import Tidemark.Watermark

/-!
# The replay

The driving loop as a machine. It owns everything but the world around it, and asks the world for one
thing at a time: `Replay.request` is what it waits for, `Replay.step` takes what happens next. Completions
of sends happen at any time in between.

```
            ┌──────────────────── sleep, at most until the next cycle is due
            v                        |
pull ─> pending event ─> due? ── no ─┘
            ^             └─ yes ─> send, pull ──┐
            └───── report <─── cycle if due <────┘            end, cancel, fault ─> flush ─> settle
```

A step emits at most one event, to be handed to the destination at that instant. Whatever ends the loop,
the destination is flushed once; the fault of the loop comes before the fault of the flush.
-/

namespace Tidemark

/-- Where the loop stands. -/
inductive ReplayStage where
  /-- It waits for the first event. -/
  | opening
  /-- It waits for the event after the one just sent. -/
  | pulling
  /-- It sleeps before an event that is not due. -/
  | sleeping (pending : Event) (d : Span)
  /-- It runs a watermark cycle that was found due at an instant. -/
  | emitting (cycle : Cycle) (pending : Event) (checkedAt : Instant)
  /-- The loop has ended and the destination is being flushed. -/
  | flushing (ending : Except Fault Unit)
  /-- The flush has ended well and completions are still outstanding. -/
  | settling (ending : Except Fault Unit)
  | ended (result : Except Fault Summary)

structure Replay where
  config : ReplayConfig
  stage : ReplayStage
  pace : Pace
  previous : Option Timestamp := none
  lag : Int := 0
  /-- A word of 64 bits, which no replay exceeds in less than `2 ^ 64` steps (`counters_fit`). -/
  eventsSent : Nat := 0
  emitter : Emitter
  statistics : Statistics
  dispatch : Dispatch := {}
  tracker : Tracker
  instruments : Instruments

/-- What the replay waits for. -/
inductive ReplayRequest where
  | pull
  | sleep (d : Span)
  | list (token : Option String)
  | put (record : Record)
  | flush
  /-- That no completion is outstanding. -/
  | settle
  | nothing
  deriving DecidableEq

/-- The world's answer to a request. -/
inductive ReplayAnswer where
  | pulled (answer : Except Fault (Option Event))
  | slept
  | listed (answer : Except Fault Page)
  | wrote (answer : Outcome)
  | flushed (answer : Except Fault Unit)

/-- What can happen to a replay: its request is answered at an instant, the replay being cancelled by then
or not, or the completion of a send ends. -/
inductive Happening where
  | answered (now : Instant) (cancelled : Bool) (answer : ReplayAnswer)
  | completed (id : Nat) (outcome : Outcome)

namespace Replay

/-- A replay before its first request; one with a faulty configuration has ended. -/
def start (config : ReplayConfig) (tracker : Tracker) (instruments : Instruments) : Replay :=
  { config
    stage := match config.validate with
      | .ok () => .opening
      | .error fault => .ended (.error fault)
    pace := ⟨Instant.start, default, config.speedup, config.minSleep⟩
    emitter := { config := config.watermark }
    statistics := { interval := config.statisticsInterval, lastReport := Instant.start }
    tracker, instruments }

def request (r : Replay) : ReplayRequest :=
  match r.stage with
  | .opening => .pull
  | .pulling => .pull
  | .sleeping _ d => .sleep d
  | .emitting cycle _ _ =>
    match cycle.request? with
    | some (.list token) => .list token
    | some (.put record) => .put record
    | none => .nothing
  | .flushing _ => .flush
  | .settling _ => .settle
  | .ended _ => .nothing

def note (r : Replay) (n : Notice) : Replay :=
  { r with instruments := r.instruments.note n }

/-- The totals so far. -/
def summary (r : Replay) : Summary :=
  { eventsSent := r.eventsSent
    sendFailures := r.dispatch.failures
    watermarksEmitted := r.emitter.recordsEmitted
    cyclesSkipped := r.emitter.cyclesSkipped
    lastWatermark := r.emitter.lastWatermark }

/-! ### The end -/

/-- The loop has ended: the destination is to be flushed. -/
def drain (r : Replay) (ending : Except Fault Unit) : Replay :=
  { r.note (.draining r.tracker.size) with stage := .flushing ending }

/-- The drain has ended. -/
def finish (r : Replay) (ending drained : Except Fault Unit) : Replay :=
  match ending, drained with
  | .error fault, _ => { r with stage := .ended (.error fault) }
  | .ok (), .error fault => { r with stage := .ended (.error fault) }
  | .ok (), .ok () => { r.note (.finished r.summary) with stage := .ended (.ok r.summary) }

/-- The flush has ended well: the replay ends with the last completion. -/
def settle (r : Replay) (ending : Except Fault Unit) : Replay :=
  if r.dispatch.outstanding.isEmpty then r.finish ending (.ok ())
  else { r with stage := .settling ending }

/-! ### The loop -/

/-- Sends the pending event, which is due, and waits for the next one. -/
def send (r : Replay) (event : Event) (gap : Binary64) : Replay × Option Send :=
  let r := match r.previous with
    | some previous =>
      if event.timestamp < previous then r.note (.outOfOrder event previous) else r
    | none => r
  let (dispatch, tracker, instruments) := r.dispatch.send event r.tracker r.instruments
  let sent := Metrics.advance instruments.metrics.eventsSent 1
  ({ r with
      stage := .pulling
      previous := some event.timestamp
      lag := r.pace.lagSeconds gap
      eventsSent := r.eventsSent + 1
      emitter := r.emitter.recordEvents 1
      statistics := r.statistics.recordEvents 1
      dispatch, tracker
      instruments := { instruments with metrics := { instruments.metrics with eventsSent := sent } } },
    some ⟨r.dispatch.nextId, event⟩)

/-- The head of the loop: sends the pending event or sleeps before it, at most until the next cycle is
due and at least for the shortest sleep. -/
def turn (r : Replay) (now : Instant) (cancelled : Bool) (pending : Event) :
    Replay × Option Send :=
  if cancelled then ((r.note .cancelled).drain (.ok ()), none)
  else match r.pace.decide now pending.timestamp with
    | .due gap => r.send pending gap
    | .wait d =>
      let d := max (min d (r.emitter.timeUntilDue now)) r.config.minSleep
      ({ r with stage := .sleeping pending d }, none)

/-- Reports the statistics as of the instant of the check and goes on with the loop. -/
def report (r : Replay) (checkedAt now : Instant) (cancelled : Bool) (pending : Event) :
    Replay × Option Send :=
  let (_, statistics, instruments) :=
    r.statistics.maybeReport checkedAt r.emitter.lastWatermark r.lag r.instruments
  turn { r with statistics, instruments } now cancelled pending

/-- A cycle has ended well, at an instant. -/
def emitted (r : Replay) (watermark : Timestamp) (outcome : EmitOutcome) (checkedAt now : Instant)
    (cancelled : Bool) (pending : Event) : Replay × Option Send :=
  let (emitter, instruments) := r.emitter.complete now watermark outcome r.instruments
  report { r with emitter, instruments } checkedAt now cancelled pending

/-- The check after a send or a sleep: runs a watermark cycle if one is due. -/
def check (r : Replay) (now : Instant) (cancelled : Bool) (pending : Event) :
    Replay × Option Send :=
  if r.emitter.isDue now then
    let watermark := Emitter.compute r.tracker pending.timestamp
    if r.emitter.config.enabled then
      ({ r with stage := .emitting (Cycle.start watermark) pending now }, none)
    else r.emitted watermark .disabled now now cancelled pending
  else r.report now now cancelled pending

/-- A cycle has taken an answer: it goes on, ends well, or ends the loop. -/
def advance (r : Replay) (cycle : Cycle) (instruments : Instruments) (checkedAt now : Instant)
    (cancelled : Bool) (pending : Event) : Replay × Option Send :=
  let r := { r with instruments }
  match cycle.stage with
  | .ended (.ok outcome) => r.emitted cycle.watermark outcome checkedAt now cancelled pending
  | .ended (.error fault) => (r.drain (.error (.cycle fault)), none)
  | _ => ({ r with stage := .emitting cycle pending checkedAt }, none)

/-- The first event sets the origin of the pace; it is not checked for a cycle before it is sent. -/
def begin (r : Replay) (now : Instant) (cancelled : Bool) (first : Event) : Replay × Option Send :=
  let r := { r with
    pace := ⟨now, first.timestamp, r.config.speedup, r.config.minSleep⟩
    statistics := { interval := r.config.statisticsInterval, lastReport := now } }
  turn (r.note (.starting first.timestamp r.config.speedup)) now cancelled first

/-- Takes the answer to the request. An answer to another request changes nothing. -/
def answer (r : Replay) (now : Instant) (cancelled : Bool) (answer : ReplayAnswer) :
    Replay × Option Send :=
  match r.stage, answer with
  | .opening, .pulled result =>
    match if cancelled then .ok none else result with
    | .error fault => (r.drain (.error fault), none)
    | .ok none => ((r.note .noEvents).drain (.ok ()), none)
    | .ok (some first) => r.begin now cancelled first
  | .pulling, .pulled result =>
    match if cancelled then .ok none else result with
    | .error fault => (r.drain (.error fault), none)
    | .ok none => (r.drain (.ok ()), none)
    | .ok (some next) => r.check now cancelled next
  | .sleeping pending _, .slept =>
    if cancelled then ((r.note .cancelled).drain (.ok ()), none)
    else r.check now cancelled pending
  | .emitting cycle pending checkedAt, .listed result =>
    let (cycle, instruments) := cycle.listed result r.instruments
    r.advance cycle instruments checkedAt now cancelled pending
  | .emitting cycle pending checkedAt, .wrote result =>
    let (cycle, instruments) := cycle.wrote result r.instruments
    r.advance cycle instruments checkedAt now cancelled pending
  | .flushing ending, .flushed (.ok ()) => (r.settle ending, none)
  | .flushing ending, .flushed (.error fault) => (r.finish ending (.error fault), none)
  | _, _ => (r, none)

/-- The completion of a send ends; the last one may end the replay. -/
def complete (r : Replay) (id : Nat) (outcome : Outcome) : Replay :=
  let (dispatch, tracker, instruments) := r.dispatch.complete id outcome r.tracker r.instruments
  let r := { r with dispatch, tracker, instruments }
  match r.stage with
  | .settling ending => r.settle ending
  | _ => r

/-- One thing happens: the state after it, and the event that was sent in it. -/
def step (r : Replay) : Happening → Replay × Option Send
  | .answered now cancelled a => r.answer now cancelled a
  | .completed id outcome => (r.complete id outcome, none)

/-- Many things happen: the state after them, and the events that were sent, in order. -/
def run (r : Replay) : List Happening → Replay × List Send
  | [] => (r, [])
  | h :: rest =>
    let (r, sent) := r.step h
    let (r, more) := r.run rest
    (r, sent.toList ++ more)

end Replay

end Tidemark
