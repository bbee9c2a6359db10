import Tidemark.Destination.Partition
import Tidemark.Json.Reader
import Tidemark.Time.Span

/-!
# A stream in memory

A destination that keeps what is written to it: partitions that split the hashes, one log of all entries
in the order of writing, listings in pages, and acknowledgements that come at once, after a delay, or when
they are released. Calls fail as often as they are told to.

A submitted record is known by the number of its handle, which the caller chooses; the stream says what
becomes of the handle, and keeps the handles that wait for their release in the order of submission.
-/

namespace Tidemark

/-- When submitted records are acknowledged. -/
inductive AckPolicy where
  | immediate
  | delayed (d : Span)
  | manual
  deriving DecidableEq, Repr

/-- An entry of the log. Entries are numbered from one. -/
structure LogEntry where
  partition : String
  sequence : Nat
  record : Record

/-- An acknowledgement that waits for its release. -/
structure HeldAck where
  handle : Nat
  ack : Ack
  deriving DecidableEq, Repr

/-- How many of the next calls are to fail, by call and kind. -/
structure Injections where
  throttleListings : Nat := 0
  failListings : Nat := 0
  throttlePuts : Nat := 0
  failPuts : Nat := 0
  failSubmits : Nat := 0
  deriving DecidableEq, Repr

/-- A kind of failure that can be injected. -/
inductive Injection where
  | throttleListings
  | failListings
  | throttlePuts
  | failPuts
  | failSubmits
  deriving DecidableEq, Repr

/-- Sets how many of the next calls are to fail in one way. -/
def Injections.set (i : Injections) (kind : Injection) (count : Nat) : Injections :=
  match kind with
  | .throttleListings => { i with throttleListings := count }
  | .failListings => { i with failListings := count }
  | .throttlePuts => { i with throttlePuts := count }
  | .failPuts => { i with failPuts := count }
  | .failSubmits => { i with failSubmits := count }

/-- What becomes of the handle of a submitted record. -/
inductive Submission where
  | settled (outcome : Outcome)
  | delayed (d : Span) (ack : Ack)
  | held

structure InMemory where
  partitions : List Partition
  log : Array LogEntry := #[]
  /-- The number of the last entry, zero before the first. -/
  sequence : Nat := 0
  held : List HeldAck := []
  nextNumber : Nat
  ackPolicy : AckPolicy := .immediate
  pageSize : Nat := 100
  injections : Injections := {}
  listCalls : Nat := 0
  putCalls : Nat := 0

namespace InMemory

/-- Positions and page sizes are 64-bit words. -/
def positionBound : Nat := 2 ^ 64

/-- A stream of so many partitions, one at least. -/
def create (partitions : Nat) : InMemory :=
  { partitions := Partition.topology partitions 0, nextNumber := max partitions 1 }

/-- Sets the page size, one at least. -/
def withPageSize (s : InMemory) (size : Nat) : InMemory :=
  { s with pageSize := max size 1 }

def withAckPolicy (s : InMemory) (policy : AckPolicy) : InMemory :=
  { s with ackPolicy := policy }

def inject (s : InMemory) (kind : Injection) (count : Nat) : InMemory :=
  { s with injections := s.injections.set kind count }

/-- Replaces the partitions by new ones with new numbers. -/
def reshard (s : InMemory) (partitions : Nat) : InMemory :=
  { s with
    partitions := Partition.topology partitions s.nextNumber
    nextNumber := s.nextNumber + max partitions 1 }

/-! ### Writing -/

/-- The hash that routes a record. -/
def hash (routing : Routing) : Except Fault Nat :=
  match routing with
  | .byKey key => .ok (Partition.hashOf key)
  | .byHash _ hash =>
    match Text.readNumeral hashCount hash with
    | .ok n => .ok n
    | .error fault => .error (.destination (.invalidHashKey hash fault))

/-- Appends a record to the log under the next number, in the first partition that holds its hash. -/
def write (s : InMemory) (record : Record) : Outcome × InMemory :=
  match hash record.routing with
  | .error fault => (.error fault, s)
  | .ok h =>
    match s.partitions.find? (·.holds h) with
    | none => (.error (.destination (.uncovered h)), s)
    | some p =>
      let sequence := s.sequence + 1
      (.ok ⟨p.name, some (toString sequence)⟩,
        { s with log := s.log.push ⟨p.name, sequence, record⟩, sequence })

/-- Takes a record to be acknowledged on its handle. -/
def submit (s : InMemory) (handle : Nat) (record : Record) : Submission × InMemory :=
  if 0 < s.injections.failSubmits then
    (.settled (.error (.destination .injectedSubmit)),
      { s with injections := { s.injections with failSubmits := s.injections.failSubmits - 1 } })
  else match s.write record with
    | (.error fault, s) => (.settled (.error fault), s)
    | (.ok ack, s) =>
      match s.ackPolicy with
      | .immediate => (.settled (.ok ack), s)
      | .delayed d => (.delayed d ack, s)
      | .manual => (.held, { s with held := s.held ++ [⟨handle, ack⟩] })

/-- Writes a record and acknowledges it at once. Throttling is injected before failures. -/
def put (s : InMemory) (record : Record) : Outcome × InMemory :=
  let s := { s with putCalls := s.putCalls + 1 }
  if 0 < s.injections.throttlePuts then
    (.error (.throttled .injectedPut),
      { s with injections := { s.injections with throttlePuts := s.injections.throttlePuts - 1 } })
  else if 0 < s.injections.failPuts then
    (.error (.destination .injectedPut),
      { s with injections := { s.injections with failPuts := s.injections.failPuts - 1 } })
  else s.write record

/-! ### Listing -/

/-- The position that a token stands for. -/
def position (token : Option String) : Except Fault Nat :=
  match token with
  | none => .ok 0
  | some token =>
    match Text.readNumeral positionBound token with
    | .ok n => .ok n
    | .error _ => .error (.destination (.invalidToken token))

/-- The page that starts at a position. None when its end, added up in words, overflows: the call that adds it up
crashes. -/
def page? (s : InMemory) (start : Nat) : Option Page :=
  if start + s.pageSize < positionBound then
    let stop := min (start + s.pageSize) s.partitions.length
    some
      { partitions := ((s.partitions.take stop).drop start).map Partition.descriptor
        next := if stop < s.partitions.length then some (toString stop) else none }
  else none

/-- Lists a page of the partitions. Throttling is injected before failures. A call that crashes has no answer, but is
counted. -/
def list (s : InMemory) (token : Option String) : Option (Except Fault Page) × InMemory :=
  let s := { s with listCalls := s.listCalls + 1 }
  if 0 < s.injections.throttleListings then
    (some (.error (.throttled .injectedListing)),
      { s with injections :=
          { s.injections with throttleListings := s.injections.throttleListings - 1 } })
  else if 0 < s.injections.failListings then
    (some (.error (.destination .injectedListing)),
      { s with injections :=
          { s.injections with failListings := s.injections.failListings - 1 } })
  else match position token with
    | .error fault => (some (.error fault), s)
    | .ok start => ((s.page? start).map .ok, s)

/-! ### Releasing -/

/-- Releases the held acknowledgement at an index, as a success or as a failure; gives the handle and its
outcome. -/
def release (s : InMemory) (index : Nat) (success : Bool) : Option (Nat × Outcome) × InMemory :=
  match s.held[index]? with
  | none => (none, s)
  | some held =>
    let outcome : Outcome :=
      if success then .ok held.ack else .error (.destination .releasedAsFailed)
    (some (held.handle, outcome), { s with held := s.held.eraseIdx index })

/-- Releases all held acknowledgements as successes. -/
def releaseAll (s : InMemory) : List (Nat × Outcome) × InMemory :=
  (s.held.map fun held => (held.handle, .ok held.ack), { s with held := [] })

end InMemory

/-! ### Views of the log -/

/-- The watermark that a payload carries: a JSON object that says so by its type. -/
def watermarkOfPayload? (payload : ByteArray) : Option Timestamp := do
  let text ← String.fromUTF8? payload
  let value ← Json.read? text
  match ← value.member? "type" with
  | .string "watermark" =>
    match ← value.member? "watermark" with
    | .number (.integer z) => Timestamp.ofInt? z
    | _ => none
  | _ => none

namespace LogEntry

/-- The watermark that an entry carries. -/
def watermark? (e : LogEntry) : Option Timestamp :=
  watermarkOfPayload? e.record.payload

end LogEntry

namespace InMemory

def partitionNames (s : InMemory) : List String :=
  s.partitions.map Partition.name

/-- The payloads of the entries that carry no watermark, in the order of writing. -/
def eventPayloads (s : InMemory) : List ByteArray :=
  (s.log.toList.filter (·.watermark?.isNone)).map (·.record.payload)

/-- The entries that carry a watermark, by partition, in the order of writing. -/
def watermarks (s : InMemory) : List (String × Timestamp) :=
  s.log.toList.filterMap fun e => e.watermark?.map (e.partition, ·)

end InMemory

end Tidemark
