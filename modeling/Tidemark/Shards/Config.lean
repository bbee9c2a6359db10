import Tidemark.Shards.Fault
import Tidemark.Time.Span

/-!
# Configuration of a sharded stream

Where the stream is, and how records are gathered into requests: how long a record waits for others, how
many records a request has, how many requests run at once and how often a record is tried.
-/

namespace Tidemark.Shards

def usualRegion : String := "eu-west-1"

structure StreamConfig where
  region : String := usualRegion
  streamName : String
  endpoint : Option String := none
  maxBufferedTime : Span := Span.ofMillis 100
  maxBatchRecords : Nat := mostRecords
  maxOutstandingBatches : Nat := 16
  maxRecordAttempts : Nat := 5
  deriving DecidableEq, Repr

namespace StreamConfig

/-- The first fault of the configuration. -/
def fault? (c : StreamConfig) : Option StreamConfigFault :=
  if c.region.isEmpty then some .region
  else if c.streamName.isEmpty || longestName < c.streamName.utf8ByteSize then some .streamName
  else if c.maxBufferedTime = Span.zero then some .bufferedTime
  else if c.maxBatchRecords = 0 || mostRecords < c.maxBatchRecords then some .batchRecords
  else if c.maxOutstandingBatches = 0 then some .outstandingBatches
  else if c.maxRecordAttempts = 0 then some .recordAttempts
  else none

def validate (c : StreamConfig) : Except StreamFault Unit :=
  match c.fault? with
  | some fault => .error (.invalidConfig fault)
  | none => .ok ()

end StreamConfig

end Tidemark.Shards
