import Tidemark.Dispatch
import Tidemark.Rehearsal.Streaming

/-!
# Rehearsals of a dispatcher

Events are sent to a stage, their completions are awaited or aborted, and the whole is drained: first the
destination is flushed, then the last completion is waited for. A flush that fails ends the drain at once.
-/

namespace Tidemark.Rehearsal

inductive DispatchingStep where
  | send (event : Event)
  | await (index : Nat)
  | abort (index : Nat)
  /-- Sleeps, so that everything that is ready runs. -/
  | settle (ms : Nat)
  | drain
  | stream (step : StreamStep)

/-- A dispatcher on its stage. The completions that were awaited successfully are no longer at hand. -/
structure Dispatching where
  stage : Stage
  dispatch : Dispatch := {}
  tracker : Tracker := {}
  instruments : Instruments := {}
  joined : List Nat := []

/-- A completion that has not ended in time, or how it ended. -/
def endedOf (s : StageState) (id : Nat) : Option Bool :=
  match s.completions[id]? with
  | some (.ended aborted) => some aborted
  | _ => none

/-- Waits until no completion is outstanding. -/
def Stage.settle (s : Stage) (limit : Instant) : Bool × Stage :=
  s.waitFor (fun t => t.outstanding = 0) limit

/-- Submits a record and begins the completion of the send. -/
def Stage.dispatch (s : Stage) (record : Record) : Stage :=
  let (source, s) := s.submit record
  (s.spawnCompletion source).2

namespace Dispatching

/-- Takes notice of one ending. -/
def absorbOne (d : Dispatching) (e : Ending) : Dispatching :=
  match e with
  | .completed id outcome =>
    let (dispatch, tracker, instruments) :=
      d.dispatch.complete id outcome d.tracker d.instruments
    { d with dispatch, tracker, instruments }
  | .aborted id =>
    let (dispatch, tracker) := d.dispatch.abort id d.tracker
    { d with dispatch, tracker }

/-- Takes notice of everything that ended on the stage. -/
def absorb (d : Dispatching) (stage : Stage) : Dispatching :=
  let (endings, stage) := stage.takeEndings
  endings.foldl absorbOne { d with stage }

/-- Whether the completion of a send is at hand. -/
def atHand (d : Dispatching) (index : Nat) : Bool :=
  index < d.stage.state.completions.size && !d.joined.contains index

def await (d : Dispatching) (index : Nat) : Reply × Dispatching :=
  if d.atHand index then
    let (_, stage) :=
      d.stage.waitFor (fun s => (endedOf s index).isSome) d.stage.deadline
    let d := d.absorb stage
    match endedOf stage.state index with
    | none => (.pending, d)
    | some aborted =>
      (if aborted then .aborted else .done, { d with joined := index :: d.joined })
  else (.missing, d)

def drain (d : Dispatching) : Reply × Dispatching :=
  let limit := d.stage.deadline
  match d.stage.flush limit with
  | (none, stage) => (.pending, d.absorb stage)
  | (some (.error fault), stage) => (.finished (.error fault), d.absorb stage)
  | (some (.ok ()), stage) =>
    let (settled, stage) := stage.settle limit
    (if settled then .finished (.ok ()) else .pending, d.absorb stage)

def step (d : Dispatching) : DispatchingStep → Reply × Dispatching
  | .send event =>
    let (dispatch, tracker, instruments) := d.dispatch.send event d.tracker d.instruments
    (.number d.dispatch.nextId,
      { d with
        dispatch, tracker, instruments
        stage := d.stage.dispatch (Record.ofEvent event) })
  | .await index => d.await index
  | .abort index =>
    if d.atHand index then (.nothing, { d with stage := d.stage.abort index }) else (.missing, d)
  | .settle ms => (.nothing, d.absorb (d.stage.sleep (Span.ofMillis ms)))
  | .drain => d.drain
  | .stream step =>
    let (reply, stage) := d.stage.stream step
    (reply, { d with stage })

end Dispatching

/-- What a step answered, and the dispatcher after it. -/
structure DispatchingRow where
  reply : Reply
  inFlight : Nat
  oldest : Option EventKey
  failures : Nat

/-- Rehearses a dispatcher: a row for every step, and how it stands at the end. -/
def rehearseDispatch (d : Dispatching) : List DispatchingStep → List DispatchingRow × Dispatching
  | [] => ([], d)
  | step :: rest =>
    let (reply, d) := d.step step
    let (rows, last) := rehearseDispatch d rest
    (⟨reply, d.tracker.size, d.tracker.oldest?, d.dispatch.failures⟩ :: rows, last)

end Tidemark.Rehearsal
