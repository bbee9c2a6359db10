import Tidemark.Journal
import Tidemark.Rehearsal.Stage

/-!
# Rehearsals of a stream in memory

A client submits records, awaits their handles, puts, lists and flushes; between these steps the stream
itself is changed. What is awaited in vain is answered by `pending`, and can be awaited again; an outcome
can be taken only once.
-/

namespace Tidemark.Rehearsal

/-- A stream as a rehearsal asks for it. One that is shared already keeps its usual page size and
acknowledgements. -/
structure StreamSpec where
  partitions : Nat
  pageSize : Option Nat := none
  acks : Option AckPolicy := none
  injections : List (Injection × Nat) := []
  isShared : Bool := false

namespace StreamSpec

/-- Sets a property of the stream if it is asked for, unless the stream is shared. -/
def configure {α : Type} (spec : StreamSpec) (asked : Option α) (set : InMemory → α → InMemory)
    (m : InMemory × Instruments) : InMemory × Instruments :=
  match asked with
  | none => m
  | some a =>
    if spec.isShared then (m.1, m.2.note .alreadyShared) else (set m.1 a, m.2)

def build (spec : StreamSpec) (i : Instruments) : InMemory × Instruments :=
  let made := spec.configure spec.pageSize InMemory.withPageSize (InMemory.create spec.partitions, i)
  let made := spec.configure spec.acks InMemory.withAckPolicy made
  (spec.injections.foldl (fun m (kind, n) => m.inject kind n) made.1, made.2)

end StreamSpec

inductive StreamingStep where
  | client (step : ClientStep)
  | stream (step : StreamStep)

namespace Stage

/-- The handles of a stage. -/
def clientele : Clientele StageState StageTask :=
  { perform
    handles := (·.handles)
    withHandles := fun s handles => { s with handles } }

def submitMany (s : Stage) (name : String) (count : Nat) : Stage :=
  (List.range count).foldl (fun s i => (s.submit (numberedRecord name i)).2) s

def client (s : Stage) (step : ClientStep) : Reply × Stage :=
  match step with
  | .submit record =>
    let (result, s) := s.submit record
    (.handle result, s)
  | .submitMany count name =>
    let s := s.submitMany name count
    (.number s.state.handles.size, s)
  | .await index => clientele.await s index
  | .awaitAll => clientele.awaitAll s
  | .put record =>
    let (answer, s) := s.put record s.deadline
    (.ofTimed .outcome answer, s)
  | .list token =>
    let (answer, s) := s.list token s.deadline
    (.ofTimed .page answer, s)
  | .flush =>
    let (answer, s) := s.flush s.deadline
    (.ofTimed .finished answer, s)
  | .sleep ms => (.nothing, s.sleep (Span.ofMillis ms))

def streaming (s : Stage) (step : StreamingStep) : Reply × Stage :=
  match step with
  | .client step => s.client step
  | .stream step => s.stream step

end Stage

/-- Rehearses a stream: the answer of every step and the time after it. None when a step crashes. -/
def rehearseStream (stream : InMemory) (steps : List StreamingStep) : Option (List (Reply × Instant)) :=
  go (Stage.ofStream stream {}) steps
where
  go (s : Stage) : List StreamingStep → Option (List (Reply × Instant))
    | [] => some []
    | step :: rest =>
      let (reply, s) := s.streaming step
      if s.state.crashed then none
      else (go s rest).map ((reply, s.now) :: ·)

end Tidemark.Rehearsal
