import Tidemark.Metrics
import Tidemark.Record
import Tidemark.Time.Span

/-!
# The journal

What a replay reports while it runs, one entry for each thing that happened. An entry has a level, a
message and named fields; they are computed from what happened, so that the rest of the library deals in
entries and never in texts.
-/

namespace Tidemark

/-- Totals of a replay that has ended. -/
structure Summary where
  eventsSent : Nat
  sendFailures : Nat
  watermarksEmitted : Nat
  cyclesSkipped : Nat
  lastWatermark : Option Timestamp
  deriving DecidableEq

/-- How severe an entry is, from the most severe on. -/
inductive Level where
  | error
  | warn
  | info
  | debug
  | trace
  deriving DecidableEq, Repr

namespace Level

def name : Level → String
  | error => "ERROR"
  | warn => "WARN"
  | info => "INFO"
  | debug => "DEBUG"
  | trace => "TRACE"

def rank : Level → Nat
  | error => 0
  | warn => 1
  | info => 2
  | debug => 3
  | trace => 4

end Level

/-- The value of a field of an entry. -/
inductive FieldValue where
  | text (s : String)
  | integer (z : Int)
  | float (x : Binary64)

/-- What happened. -/
inductive Notice where
  | noEvents
  | starting (first : Timestamp) (speedup : Binary64)
  | cancelled
  | outOfOrder (event : Event) (previous : Timestamp)
  | draining (inFlight : Nat)
  | finished (summary : Summary)
  | sent (event : Event)
  | acknowledged (event : Event) (partition : String)
  | sendFailed (event : Event) (fault : Fault)
  | watermarkSent (watermark : Timestamp) (partitions : Nat)
  | watermarkWritten (watermark : Timestamp) (partition ackedBy : String)
  | cycleSkipped (fault : Fault)
  | status (watermark : Option Timestamp) (rate : Binary64) (lag : Int)
  | alreadyShared
  | objectsListed (bucket keyStart : String) (count : Nat)
  | readingObject (bucket key : String)
  | streamActive (name : String)
  | awaitingStream (name status : String) (delay : Span)
  | batchWritten (records failed : Nat)
  | batchFailed (shown : String) (records : Nat)
  | retrying (records : Nat) (delay : Span)
  | producerStopped
  | exposing (text : String)
  | serving (address : String)

namespace Summary

def shown (s : Summary) : String :=
  let last := match s.lastWatermark with
    | some w => "Some(" ++ toString w ++ ")"
    | none => "None"
  "ReplaySummary \x7b events_sent: " ++ toString s.eventsSent
    ++ ", send_failures: " ++ toString s.sendFailures
    ++ ", watermarks_emitted: " ++ toString s.watermarksEmitted
    ++ ", watermark_cycles_skipped: " ++ toString s.cyclesSkipped
    ++ ", last_watermark: " ++ last ++ " \x7d"

end Summary

namespace Notice

def level : Notice → Level
  | outOfOrder .. | sendFailed .. | cycleSkipped .. | alreadyShared => .warn
  | awaitingStream .. | batchFailed .. => .warn
  | noEvents | starting .. | cancelled | draining .. | finished .. | status .. => .info
  | objectsListed .. | streamActive .. | serving .. => .info
  | watermarkSent .. | readingObject .. | batchWritten .. | retrying .. => .debug
  | producerStopped | exposing .. => .debug
  | sent .. | acknowledged .. | watermarkWritten .. => .trace

/-- The rate and the lag as they end a status line. -/
def statusTail (rate : Binary64) (lag : Int) : String :=
  "(" ++ rate.rounded ++ " events/sec, " ++ toString lag ++ " sec replay lag)"

def message : Notice → String
  | noEvents => "No events to replay"
  | starting .. => "Starting replay"
  | cancelled => "Replay cancelled"
  | outOfOrder .. => "source yielded an event older than its predecessor"
  | draining .. => "Draining in-flight events"
  | finished .. => "Replay finished"
  | sent .. => "sent event"
  | acknowledged .. => "event acknowledged"
  | sendFailed .. => "failed to send event"
  | watermarkSent .. => "sent watermark"
  | watermarkWritten .. => "sent watermark to partition"
  | cycleSkipped .. => "skipping watermark due to limit exceeded"
  | status (some w) rate lag =>
    "all events with event time before " ++ Written.write w ++ " have been sent "
      ++ statusTail rate lag
  | status none rate lag => "no watermark yet " ++ statusTail rate lag
  | alreadyShared => "memory stream is already shared, ignoring reconfiguration"
  | objectsListed .. => "Listed objects to replay"
  | readingObject .. => "Reading object"
  | streamActive .. => "Kinesis stream is active"
  | awaitingStream .. => "Waiting for stream to become active"
  | batchWritten .. => "PutRecords completed"
  | batchFailed .. => "PutRecords failed"
  | retrying .. => "Retrying throttled records"
  | producerStopped => "Producer actor stopped"
  | exposing text => "Exposing metrics: " ++ Text.quote text
  | serving .. => "Starting metrics server"

def fields : Notice → List (String × FieldValue)
  | noEvents => []
  | cancelled => []
  | alreadyShared => []
  | producerStopped => []
  | status .. => []
  | exposing .. => []
  | serving address => [("addr", .text address)]
  | starting first speedup =>
    [("first_event", .text (Written.write first)), ("speedup", .float speedup)]
  | outOfOrder event previous =>
    [("event", .text event.shown), ("previous", .text (Written.write previous))]
  | draining inFlight => [("in_flight", .integer inFlight)]
  | finished summary => [("summary", .text summary.shown)]
  | sent event => [("event", .text event.shown)]
  | acknowledged event partition => [("event", .text event.shown), ("partition", .text partition)]
  | sendFailed event fault => [("event", .text event.shown), ("error", .text fault.shown)]
  | watermarkSent watermark partitions =>
    [("watermark", .text (Written.write watermark)), ("partitions", .integer partitions)]
  | watermarkWritten watermark partition ackedBy =>
    [("watermark", .text (Written.write watermark)), ("partition", .text partition),
      ("acked_by", .text ackedBy)]
  | cycleSkipped fault => [("error", .text fault.shown)]
  | objectsListed bucket keyStart count =>
    [("bucket", .text bucket), ("prefix", .text keyStart), ("objects", .integer count)]
  | readingObject bucket key => [("bucket", .text bucket), ("key", .text key)]
  | streamActive name => [("stream", .text name)]
  | awaitingStream name current delay =>
    [("stream", .text name), ("status", .text current), ("delay", .text delay.text)]
  | batchWritten records failed => [("records", .integer records), ("failed", .integer failed)]
  | batchFailed shown records => [("error", .text shown), ("records", .integer records)]
  | retrying records delay => [("records", .integer records), ("delay", .text delay.text)]

end Notice

/-- The metrics of a run and its journal, the newest entry first. -/
structure Instruments where
  metrics : Metrics := {}
  journal : List Notice := []

namespace Instruments

def note (i : Instruments) (n : Notice) : Instruments :=
  { i with journal := n :: i.journal }

/-- The entries at least as severe as the level, oldest first. -/
def entries (i : Instruments) (level : Level) : List Notice :=
  (i.journal.filter fun n => n.level.rank ≤ level.rank).reverse

end Instruments

end Tidemark
