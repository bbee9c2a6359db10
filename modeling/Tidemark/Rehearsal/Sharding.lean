import Tidemark.Journal
import Tidemark.Rehearsal.Handle
import Tidemark.Shards.Activation
import Tidemark.Shards.Listing
import Tidemark.Shards.Producer

/-!
# Rehearsals of a sharded stream

A client writes to a stream of shards whose service answers from a script: each kind of request has its
replies in order, the last one again and again. The producer and its batches run beside the client. At the
end the client is gone, and the producer writes what it still holds.
-/

namespace Tidemark.Rehearsal

open Shards

/-- A reply to a request that writes a batch. -/
inductive BatchReply where
  | refuse (refusal : Refusal)
  | entries (entries : List Entry)
  /-- The same entry for every record. -/
  | alike (entry : Entry)
  /-- Every record is accepted, under the next number. -/
  | accept

/-- The replies of the service to each kind of request. -/
structure ServiceScript where
  descriptions : List (Except Refusal (Option String)) := []
  listings : List (Except Refusal ShardPage) := []
  puts : List (Except Refusal Ack) := []
  batches : List BatchReply := []

/-- The shard that accepts records when nothing else is said. -/
def usualShard : String := "shardId-000000000000"

/-- Takes the next of some replies; the last one stays. -/
def nextReply {α : Type} (usual : α) : List α → α × List α
  | [] => (usual, [])
  | [last] => (last, [last])
  | first :: rest => (first, rest)

/-- A request to the service. -/
inductive ServiceRequest where
  | describe (streamName : String)
  | list (page : ListRequest)
  | put (streamName : String) (record : Record)
  | write (streamName : String) (records : List Record)

inductive ShardingTask where
  | producer
  | batch (id : Nat)

structure ShardingState where
  streamName : String
  script : ServiceScript
  producer : Producer
  /-- Whether the producer is ready to run. -/
  isAwake : Bool := false
  /-- The deadline that the producer sleeps until. -/
  armed : Option Instant := none
  maxAttempts : Nat
  batches : Array Batch := #[]
  handles : Array Handle := #[]
  nextFlush : Nat := 0
  flushed : List Nat := []
  /-- How many records the service has accepted under numbers of its own. -/
  accepted : Nat := 0
  instruments : Instruments := {}
  requests : List (Instant × ServiceRequest) := []

abbrev Sharding := World ShardingState ShardingTask

/-- Jitter is drawn as if there were none. -/
def evenDraw : Binary64 := Binary64.ofNat 1

namespace Sharding

def note (w : Sharding) (n : Notice) : Sharding :=
  { w with state := { w.state with instruments := w.state.instruments.note n } }

def request (w : Sharding) (r : ServiceRequest) : Sharding :=
  { w with state := { w.state with requests := (w.now, r) :: w.state.requests } }

def resolve (w : Sharding) (handle : Nat) (outcome : Outcome) : Sharding :=
  { w with state := { w.state with
    handles := w.state.handles.modify handle fun h => { h with outcome := some outcome } } }

/-! ### The producer -/

/-- Makes the producer ready to run. -/
def wakeProducer (w : Sharding) : Sharding :=
  if w.state.isAwake || !w.state.producer.isAlive then w
  else
    { state := { w.state with isAwake := true }
      agenda := w.agenda.wake .producer }

/-- Does what a step of the producer asks for. -/
def act (w : Sharding) : ProducerAct → Sharding
  | .quiet => w
  | .spawn records =>
    let id := w.state.batches.size
    { state := { w.state with
        batches := w.state.batches.push (Batch.start records w.state.maxAttempts) }
      agenda := w.agenda.wake (.batch id) }
  | .flushed id => { w with state := { w.state with flushed := id :: w.state.flushed } }
  | .stop => w.note .producerStopped
  | .crash lost =>
    lost.foldl (fun w handle => resolve w handle (.error (.destination .dropped))) w

/-- Runs the producer until it waits, within so many steps. -/
def runSteps : Nat → Sharding → Sharding
  | 0, w => w
  | n + 1, w =>
    match w.state.producer.step? w.now with
    | none => w
    | some (producer, act) =>
      let w : Sharding := { w with state := { w.state with producer } }
      runSteps n (w.act act)

/-- The producer gets to run: it goes on until it waits, and sleeps until its deadline. -/
def runProducer (w : Sharding) : Sharding :=
  let steps := 8 * (w.state.producer.inbox.length + 4)
  let w : Sharding := { w with state := { w.state with isAwake := false } }
  let w := runSteps steps w
  match w.state.producer.deadline with
  | none => w
  | some deadline =>
    if w.state.armed = some deadline then w
    else
      { state := { w.state with armed := some deadline }
        agenda := w.agenda.sleepUntil deadline.roundUp .producer }

/-! ### Batches -/

/-- The reply of the service to a request that writes some records. -/
def batchAnswer (w : Sharding) (count : Nat) : BatchAnswer × Sharding :=
  let (reply, batches) := nextReply .accept w.state.script.batches
  let w : Sharding :=
    { w with state := { w.state with script := { w.state.script with batches } } }
  match reply with
  | .refuse refusal => (.error refusal, w)
  | .entries entries => (.ok entries, w)
  | .alike entry => (.ok (List.replicate count entry), w)
  | .accept =>
    let first := w.state.accepted + 1
    (.ok ((List.range count).map fun i => .accepted ⟨usualShard, some (toString (first + i))⟩),
      { w with state := { w.state with accepted := w.state.accepted + count } })

/-- What the journal says of an answer. -/
def batchNotice (answer : BatchAnswer) (count : Nat) : Notice :=
  match answer with
  | .error refusal => .batchFailed (StreamFault.ofRefusal refusal).shown count
  | .ok entries =>
    .batchWritten count (entries.filter fun
      | .refused .. => true
      | .accepted _ => false).length

/-- A batch gets to run: it makes a request, and sleeps before the next one or ends. -/
def runBatch (w : Sharding) (id : Nat) : Sharding :=
  match w.state.batches[id]? with
  | none => w
  | some b =>
    let w := request w (.write w.state.streamName (b.records.map (·.record)))
    let (answer, w) := w.batchAnswer b.records.length
    let w := w.note (batchNotice answer b.records.length)
    let (resolved, again) := b.answered answer
    let w := resolved.foldl (fun w (handle, outcome) => resolve w handle outcome) w
    if again.isEmpty then
      wakeProducer { w with state := { w.state with producer := w.state.producer.batchEnded } }
    else
      let (d, b) := b.retry evenDraw again
      let w := w.note (.retrying again.length d)
      { state := { w.state with batches := w.state.batches.setIfInBounds id b }
        agenda := w.agenda.sleepUntil (w.agenda.wakeTime d) (.batch id) }

def perform (task : ShardingTask) (w : Sharding) : Sharding :=
  match task with
  | .producer => w.runProducer
  | .batch id => w.runBatch id

/-- The handles of the client. -/
def clientele : Clientele ShardingState ShardingTask :=
  { perform
    handles := (·.handles)
    withHandles := fun s handles => { s with handles } }

/-! ### The client -/

/-- Says something to the producer, unless it has stopped. -/
def tell (w : Sharding) (m : Message) : Except StreamFault Sharding :=
  if w.state.producer.isAlive then
    .ok (wakeProducer { w with state := { w.state with producer := w.state.producer.tell m } })
  else .error .notRunning

def submit (w : Sharding) (record : Record) : Except Fault Nat × Sharding :=
  let handle := w.state.handles.size
  match w.tell (.submit ⟨handle, record⟩) with
  | .error fault => (.error fault.toFault, w)
  | .ok w =>
    (.ok handle, { w with state := { w.state with handles := w.state.handles.push {} } })

def put (w : Sharding) (record : Record) : Outcome × Sharding :=
  let w := request w (.put w.state.streamName record)
  let (reply, puts) := nextReply (.ok ⟨usualShard, some "1"⟩) w.state.script.puts
  let w : Sharding := { w with state := { w.state with script := { w.state.script with puts } } }
  match reply with
  | .ok ack => (.ok ack, w)
  | .error refusal => (.error (StreamFault.ofRefusal refusal).toFault, w)

def list (w : Sharding) (token : Option String) : Except Fault Page × Sharding :=
  let w := request w (.list (.of w.state.streamName token))
  let (reply, listings) := nextReply (.ok ⟨[], none⟩) w.state.script.listings
  let w : Sharding :=
    { w with state := { w.state with script := { w.state.script with listings } } }
  match pageOf reply with
  | .ok page => (.ok page, w)
  | .error fault => (.error fault.toFault, w)

def flush (w : Sharding) : Option (Except Fault Unit) × Sharding :=
  let id := w.state.nextFlush
  match w.tell (.flush id) with
  | .error fault => (some (.error fault.toFault), w)
  | .ok w =>
    let w : Sharding := { w with state := { w.state with nextFlush := id + 1 } }
    let (_, w) := w.waitFor perform
      (fun w => w.state.flushed.contains id || !w.state.producer.isAlive) w.deadline
    if w.state.flushed.contains id then (some (.ok ()), w)
    else if w.state.producer.isAlive then (none, w)
    else (some (.error StreamFault.terminated.toFault), w)

def client (w : Sharding) (step : ClientStep) : Reply × Sharding :=
  match step with
  | .submit record =>
    let (result, w) := w.submit record
    (.handle result, w)
  | .submitMany count name =>
    let w := (List.range count).foldl (fun w i => (submit w (numberedRecord name i)).2) w
    (.number w.state.handles.size, w)
  | .await index => clientele.await w index
  | .awaitAll => clientele.awaitAll w
  | .put record =>
    let (outcome, w) := w.put record
    (.outcome outcome, w)
  | .list token =>
    let (page, w) := w.list token
    (.page page, w)
  | .flush =>
    let (result, w) := w.flush
    (.ofTimed .finished result, w)
  | .sleep ms => (.nothing, World.sleep perform (Span.ofMillis ms) w)

/-! ### From beginning to end -/

/-- Asks about the stream. -/
def describe (w : Sharding) (streamName : String) : Except Refusal (Option String) × Sharding :=
  let w := request w (.describe streamName)
  let (reply, descriptions) := nextReply (.ok (some "ACTIVE")) w.state.script.descriptions
  (reply, { w with state := { w.state with script := { w.state.script with descriptions } } })

/-- Waits for the stream to become active, within so many requests. -/
def activate (w : Sharding) : Activation → Nat → Except StreamFault Unit × Sharding
  | _, 0 => (.ok (), w)
  | a, n + 1 =>
    let (answer, w) := w.describe a.streamName
    match a.answered evenDraw answer with
    | .ready => (.ok (), w.note (.streamActive a.streamName))
    | .failed fault => (.error fault, w)
    | .again status d a =>
      let w := w.note (.awaitingStream a.streamName status d)
      activate (World.sleep perform d w) a n

/-- Nothing has been done about the stream yet. -/
def unconnected (config : StreamConfig) (script : ServiceScript) : Sharding :=
  { state :=
      { streamName := config.streamName
        script
        producer := Producer.absent
        maxAttempts := config.maxRecordAttempts } }

/-- Connects to the stream: checks the configuration, waits for the stream to become active, and starts a
producer. -/
def connect (config : StreamConfig) (script : ServiceScript) : Except StreamFault Unit × Sharding :=
  let w := unconnected config script
  match config.validate with
  | .error fault => (.error fault, w)
  | .ok () =>
    match activate w (Activation.start config.streamName) (Activation.waitAttempts + 2) with
    | (.error fault, w) => (.error fault, w)
    | (.ok (), w) => (.ok (), { w with state := { w.state with producer := Producer.start config } })

/-- The client is gone: the producer goes on until it stops. -/
def finish (w : Sharding) : Sharding :=
  let w := wakeProducer { w with state := { w.state with producer := w.state.producer.close } }
  (w.waitFor perform
    (fun w => !w.state.producer.isAlive && w.state.producer.running = 0) w.deadline).2

/-- Plays the steps of a client. -/
def play (w : Sharding) : List ClientStep → List Reply × Sharding
  | [] => ([], w)
  | step :: rest =>
    let (reply, w) := w.client step
    let (replies, w) := play w rest
    (reply :: replies, w)

end Sharding

/-- Rehearses a sharded stream: the fault of connecting, or the replies of all steps, and how things stand
at the end. -/
def rehearseShards (config : StreamConfig) (script : ServiceScript) (steps : List ClientStep) :
    Except StreamFault (List Reply) × Sharding :=
  match Sharding.connect config script with
  | (.error fault, w) => (.error fault, w)
  | (.ok (), w) =>
    let (replies, w) := w.play steps
    (.ok replies, w.finish)

end Tidemark.Rehearsal
