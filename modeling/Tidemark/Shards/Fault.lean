import Tidemark.Fault
import Tidemark.Refusal

/-!
# Faults of a sharded stream

What can go wrong between the replay and a stream of shards, and the fault that the replay sees: throttling
stays throttling, a configuration stays a configuration, and all else is a fault of the destination. A
refusal counts as throttling by its code alone.
-/

namespace Tidemark.Shards

/-- Why a stream cannot be written to with a configuration. -/
inductive StreamConfigFault where
  | reported (text : String)
  | region
  | streamName
  | bufferedTime
  | batchRecords
  | outstandingBatches
  | recordAttempts

/-- Names of streams are at most this long, in bytes. -/
def longestName : Nat := 128

/-- A request writes at most so many records. -/
def mostRecords : Nat := 500

namespace StreamConfigFault

def message : StreamConfigFault → String
  | reported text => text
  | region => "region is required"
  | streamName => "stream name must be between 1 and " ++ toString longestName ++ " characters"
  | bufferedTime => "max_buffered_time must be greater than zero"
  | batchRecords => "max_batch_records must be between 1 and " ++ toString mostRecords
  | outstandingBatches => "max_outstanding_batches must be greater than zero"
  | recordAttempts => "max_record_attempts must be greater than zero"

end StreamConfigFault

inductive StreamFault where
  /-- The service refused, or the stream is not what it should be. -/
  | service (text : String)
  | throttled (text : String)
  /-- The producer stopped while somebody waited for it. -/
  | terminated
  | invalidConfig (cause : StreamConfigFault)
  /-- The producer has stopped. -/
  | notRunning
  | other (text : String)

namespace StreamFault

/-- The codes that ask to be left alone for a while. -/
def throttlingCodes : List String :=
  ["LimitExceededException", "ProvisionedThroughputExceededException", "ThrottlingException",
    "KMSThrottlingException", "SlowDown", "RequestLimitExceeded"]

def isThrottling (code : String) : Bool :=
  throttlingCodes.contains code

/-- The fault of a refused request. -/
def ofRefusal (r : Refusal) : StreamFault :=
  match r.code? with
  | some code => if isThrottling code then .throttled r.text else .service r.text
  | none => .service r.text

def message : StreamFault → String
  | service text => "Failed with Kinesis error - " ++ text
  | throttled text => "Throttled by Kinesis - " ++ text
  | terminated => "Failed to receive message from channel. Actor task is terminated: RecvError(())"
  | invalidConfig cause => "Invalid configuration: " ++ cause.message
  | notRunning => "producer actor is not running"
  | other text => text

/-- The fault as the replay sees it. -/
def toFault : StreamFault → Fault
  | throttled text => .throttled (.reported text)
  | invalidConfig cause => .config (.reported cause.message)
  | f => .destination (.reported f.message)

/-- The fault as it stands in the journal. -/
def shown : StreamFault → String
  | service text => "Kinesis(" ++ Text.quote text ++ ")"
  | throttled text => "Throttled(" ++ Text.quote text ++ ")"
  | terminated => "ActorTaskTerminated(RecvError(()))"
  | invalidConfig cause => "InvalidConfig(" ++ Text.quote cause.message ++ ")"
  | notRunning => "Other(" ++ Text.quote notRunning.message ++ ")"
  | other text => "Other(" ++ Text.quote text ++ ")"

end StreamFault

end Tidemark.Shards
