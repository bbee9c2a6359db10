import Tidemark.Destination.InMemory
import Tidemark.Rehearsal.Handle

/-!
# The stage of a rehearsal

A stream in memory with everything that happens around it in time: acknowledgements that come after a
delay, the completions of sends that wait for them, and cues, which are things done to the stream at a
given moment. Calls of the stream are kept in a record of calls, and scripted answers can take the place
of its own.

A completion belongs to a send; it ends when it gets to run and its handle is resolved, or when it was
aborted. What ended is reported to the lead in order, in `endings`.
-/

namespace Tidemark.Rehearsal

/-! ### What a stage is made of -/

/-- The completion of a send. -/
inductive Completion where
  /-- It is ready to run, with an outcome or a handle to look at. -/
  | ready (source : Except Fault Nat) (aborted : Bool)
  /-- It waits for a handle. -/
  | waiting (handle : Nat)
  | ended (aborted : Bool)

/-- What became of a completion. -/
inductive Ending where
  | completed (id : Nat) (outcome : Outcome)
  | aborted (id : Nat)

/-- What can be done to a stream from outside. -/
inductive StreamStep where
  | reshard (partitions : Nat)
  | inject (changes : List (Injection × Nat))
  | release (index : Nat) (success : Bool)
  | releaseAll
  | partitionNames
  | held
  | calls
  | written
  | watermarks
  | eventPayloads

/-- What is done at a given moment. -/
inductive Cue where
  | cancel
  | stream (step : StreamStep)

/-- What runs beside the lead. -/
inductive StageTask where
  /-- A delayed acknowledgement begins. -/
  | delay (handle : Nat) (ack : Ack) (d : Span)
  /-- Its delay is over. -/
  | acknowledge (handle : Nat) (ack : Ack)
  | complete (id : Nat)
  | cue (due : Instant) (c : Cue)

/-- An answer that takes the place of a submit's own. -/
inductive ScriptedSubmit where
  | own
  /-- The call fails. -/
  | fail (fault : Fault)
  /-- The handle resolves to a fault. -/
  | reject (fault : Fault)
  /-- The handle is forgotten. -/
  | drop

/-- An answer that takes the place of a call's own, and a delay before it. -/
structure ScriptedAnswer (α : Type) where
  delay : Option Nat := none
  answer : Option (Except Fault α) := none

/-- The scripted answers, one for each call in order. -/
structure Script where
  submits : List ScriptedSubmit := []
  puts : List (ScriptedAnswer Ack) := []
  listings : List (ScriptedAnswer Page) := []
  flushes : List (ScriptedAnswer Unit) := []

/-- A call of the destination. -/
inductive Call where
  | submit (record : Record)
  | put (record : Record)
  | list (token : Option String)
  | flush

structure StageState where
  stream : InMemory
  script : Script := {}
  handles : Array Handle := #[]
  /-- Delayed acknowledgements under way. -/
  delayed : Nat := 0
  completions : Array Completion := #[]
  /-- Completions that have not ended. -/
  outstanding : Nat := 0
  /-- What ended and was not seen by the lead yet, the newest first. -/
  endings : List Ending := []
  /-- The calls so far with their moments, the newest first. -/
  calls : List (Instant × Call) := []
  cancelled : Bool := false
  /-- A call has crashed: what called it does not go on. -/
  crashed : Bool := false

abbrev Stage := World StageState StageTask

namespace Stage

/-- A stage with nothing on it but a stream. -/
def ofStream (stream : InMemory) (script : Script) : Stage :=
  { state := { stream, script } }

/-! ### Handles and completions -/

/-- A handle resolves; the completion that waits for it becomes ready. -/
def resolve (s : Stage) (handle : Nat) (outcome : Outcome) : Stage :=
  match s.state.handles[handle]? with
  | none => s
  | some h =>
    let handles := s.state.handles.setIfInBounds handle { h with outcome := some outcome }
    let s := { s with state := { s.state with handles } }
    match h.waiter with
    | none => s
    | some id =>
      match s.state.completions[id]? with
      | some (.waiting _) =>
        let completions := s.state.completions.setIfInBounds id (.ready (.ok handle) false)
        { state := { s.state with completions }, agenda := s.agenda.wake (.complete id) }
      | _ => s

/-- A new handle, which may have an outcome already. -/
def newHandle (s : Stage) (outcome : Option Outcome) : Nat × Stage :=
  (s.state.handles.size,
    { s with state := { s.state with handles := s.state.handles.push { outcome } } })

/-- Begins the completion of a send. -/
def spawnCompletion (s : Stage) (source : Except Fault Nat) : Nat × Stage :=
  let id := s.state.completions.size
  (id,
    { state := { s.state with
        completions := s.state.completions.push (.ready source false)
        outstanding := s.state.outstanding + 1 }
      agenda := s.agenda.wake (.complete id) })

/-- A completion ends. -/
def endCompletion (s : Stage) (id : Nat) (e : Ending) : Stage :=
  let aborted := match e with
    | .aborted _ => true
    | .completed .. => false
  { s with state := { s.state with
      completions := s.state.completions.setIfInBounds id (.ended aborted)
      outstanding := s.state.outstanding - 1
      endings := e :: s.state.endings } }

/-- A completion gets to run. -/
def runCompletion (s : Stage) (id : Nat) : Stage :=
  match s.state.completions[id]? with
  | some (.ready _ true) => s.endCompletion id (.aborted id)
  | some (.ready (.error fault) false) => s.endCompletion id (.completed id (.error fault))
  | some (.ready (.ok handle) false) =>
    match s.state.handles[handle]? with
    | none => s
    | some h =>
      match h.outcome with
      | some outcome => s.endCompletion id (.completed id outcome)
      | none =>
        { s with state := { s.state with
            handles := s.state.handles.setIfInBounds handle { h with waiter := some id }
            completions := s.state.completions.setIfInBounds id (.waiting handle) } }
  | _ => s

/-- Aborts a completion: it ends when it next runs. -/
def abort (s : Stage) (id : Nat) : Stage :=
  match s.state.completions[id]? with
  | some (.ready source _) =>
    { s with state := { s.state with
        completions := s.state.completions.setIfInBounds id (.ready source true) } }
  | some (.waiting handle) =>
    { state := { s.state with
        completions := s.state.completions.setIfInBounds id (.ready (.ok handle) true) }
      agenda := s.agenda.wake (.complete id) }
  | _ => s

/-- The endings that the lead has not seen yet, oldest first. -/
def takeEndings (s : Stage) : List Ending × Stage :=
  (s.state.endings.reverse, { s with state := { s.state with endings := [] } })

/-! ### Steps on the stream -/

def onStream (s : Stage) (f : InMemory → InMemory) : Stage :=
  { s with state := { s.state with stream := f s.state.stream } }

def resolveAll (s : Stage) (outcomes : List (Nat × Outcome)) : Stage :=
  outcomes.foldl (fun s (handle, outcome) => s.resolve handle outcome) s

def stream (s : Stage) (step : StreamStep) : Reply × Stage :=
  match step with
  | .reshard n => (.nothing, s.onStream (·.reshard n))
  | .inject changes =>
    (.nothing, s.onStream fun m => changes.foldl (fun m (kind, n) => m.inject kind n) m)
  | .release index success =>
    match s.state.stream.release index success with
    | (none, _) => (.flag false, s)
    | (some (handle, outcome), m) => (.flag true, (s.onStream fun _ => m).resolve handle outcome)
  | .releaseAll =>
    let (outcomes, m) := s.state.stream.releaseAll
    (.nothing, (s.onStream fun _ => m).resolveAll outcomes)
  | .partitionNames => (.names s.state.stream.partitionNames, s)
  | .held => (.number s.state.stream.held.length, s)
  | .calls => (.numbers s.state.stream.listCalls s.state.stream.putCalls, s)
  | .written => (.written s.state.stream.log.toList, s)
  | .watermarks => (.watermarks s.state.stream.watermarks, s)
  | .eventPayloads => (.payloads s.state.stream.eventPayloads, s)

/-! ### Tasks -/

/-- A delayed acknowledgement arrives. -/
def acknowledge (s : Stage) (handle : Nat) (ack : Ack) : Stage :=
  let s := s.resolve handle (.ok ack)
  { s with state := { s.state with delayed := s.state.delayed - 1 } }

/-- Runs a task that is ready. -/
def perform (task : StageTask) (s : Stage) : Stage :=
  match task with
  | .delay handle ack d =>
    let due := s.agenda.wakeTime d
    if due ≤ s.now then s.acknowledge handle ack
    else { s with agenda := s.agenda.sleepUntil due (.acknowledge handle ack) }
  | .acknowledge handle ack => s.acknowledge handle ack
  | .complete id => s.runCompletion id
  | .cue due c =>
    if due ≤ s.now then
      match c with
      | .cancel => { s with state := { s.state with cancelled := true } }
      | .stream step => (s.stream step).2
    else { s with agenda := s.agenda.sleepUntil due (.cue due c) }

/-- Prepares a cue. -/
def schedule (s : Stage) (due : Instant) (c : Cue) : Stage :=
  { s with agenda := s.agenda.wake (.cue due c) }

def waitFor (s : Stage) (holds : StageState → Bool) (limit : Instant) : Bool × Stage :=
  World.waitFor perform (fun w => holds w.state) limit s

def waitUntil (s : Stage) (due : Instant) : Stage :=
  World.waitUntil perform due s

def sleep (s : Stage) (d : Span) : Stage :=
  World.sleep perform d s

/-! ### Calls -/

def record (s : Stage) (c : Call) : Stage :=
  { s with state := { s.state with calls := (s.now, c) :: s.state.calls } }

/-- The stream's own answer to a submit. -/
def submitOwn (s : Stage) (record : Record) : Nat × Stage :=
  match s.state.stream.submit s.state.handles.size record with
  | (.settled outcome, m) => (s.onStream fun _ => m).newHandle (some outcome)
  | (.held, m) => (s.onStream fun _ => m).newHandle none
  | (.delayed d ack, m) =>
    let (handle, s) := (s.onStream fun _ => m).newHandle none
    (handle,
      { state := { s.state with delayed := s.state.delayed + 1 }
        agenda := s.agenda.wake (.delay handle ack d) })

/-- Submits a record: a handle, or the fault of the call. -/
def submit (s : Stage) (record : Record) : Except Fault Nat × Stage :=
  let s := s.record (.submit record)
  match s.state.script.submits with
  | [] =>
    let (handle, s) := s.submitOwn record
    (.ok handle, s)
  | first :: rest =>
    let s : Stage := { s with state := { s.state with script := { s.state.script with submits := rest } } }
    match first with
    | .own =>
      let (handle, s) := s.submitOwn record
      (.ok handle, s)
    | .fail fault => (.error fault, s)
    | .reject fault =>
      let (handle, s) := s.newHandle (some (.error fault))
      (.ok handle, s)
    | .drop =>
      let (handle, s) := s.newHandle (some (.error (.destination .dropped)))
      (.ok handle, s)

/-- Sleeps before a scripted answer, at most until a limit; says whether the limit was not hit. -/
def holdBack (s : Stage) (limit : Instant) (delay : Option Nat) : Bool × Stage :=
  match delay with
  | none => (true, s)
  | some ms =>
    let due := s.agenda.wakeTime (Span.ofMillis ms)
    World.waitFor perform (fun w => due ≤ w.now) (if due < limit then due else limit) s

/-- Puts a record. None when the limit was hit first. -/
def put (s : Stage) (record : Record) (limit : Instant) : Option Outcome × Stage :=
  let answer := s.state.script.puts.headD {}
  let s : Stage := { s with state := { s.state with
    script := { s.state.script with puts := s.state.script.puts.tail } } }
  match s.holdBack limit answer.delay with
  | (false, s) => (none, s)
  | (true, s) =>
    let s := s.record (.put record)
    match answer.answer with
    | some outcome => (some outcome, s)
    | none =>
      let (outcome, m) := s.state.stream.put record
      (some outcome, s.onStream fun _ => m)

/-- The stream's own answer to a listing; none when it crashes. -/
def listOwn (s : Stage) (token : Option String) : Option (Except Fault Page) × Stage :=
  match s.state.stream.list token with
  | (some page, m) => (some page, s.onStream fun _ => m)
  | (none, m) => (none, { s with state := { s.state with stream := m, crashed := true } })

/-- Lists a page. None when the limit was hit first, or when the stream crashes. -/
def list (s : Stage) (token : Option String) (limit : Instant) :
    Option (Except Fault Page) × Stage :=
  let answer := s.state.script.listings.headD {}
  let s : Stage := { s with state := { s.state with
    script := { s.state.script with listings := s.state.script.listings.tail } } }
  match s.holdBack limit answer.delay with
  | (false, s) => (none, s)
  | (true, s) =>
    let s := s.record (.list token)
    match answer.answer with
    | some page => (some page, s)
    | none => s.listOwn token

/-- The stream's own flush: first the delayed acknowledgements, then those that are held. -/
def flushOwn (s : Stage) (limit : Instant) : Option (Except Fault Unit) × Stage :=
  match s.waitFor (fun t => t.delayed = 0) limit with
  | (false, s) => (none, s)
  | (true, s) =>
    match s.waitFor (fun t => t.stream.held.isEmpty) limit with
    | (false, s) => (none, s)
    | (true, s) => (some (.ok ()), s)

/-- Flushes the destination. None when the limit was hit first. -/
def flush (s : Stage) (limit : Instant) : Option (Except Fault Unit) × Stage :=
  let answer := s.state.script.flushes.headD {}
  let s : Stage := { s with state := { s.state with
    script := { s.state.script with flushes := s.state.script.flushes.tail } } }
  match s.holdBack limit answer.delay with
  | (false, s) => (none, s)
  | (true, s) =>
    let s := s.record .flush
    match answer.answer with
    | some result => (some result, s)
    | none => s.flushOwn limit

/-- The calls so far, oldest first. -/
def calls (s : Stage) : List (Instant × Call) :=
  s.state.calls.reverse

end Stage

end Tidemark.Rehearsal
