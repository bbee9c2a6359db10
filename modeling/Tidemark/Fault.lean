import Tidemark.Binary64.Text
import Tidemark.Json.Value
import Tidemark.Text.Numeral
import Tidemark.Text.Quoted
import Tidemark.Text.Utf8

/-!
# Faults

Everything that can go wrong in a replay, by cause. The kind of a fault says which part of the replay it
belongs to; only faults of the kind `throttled` are recovered from. What a backend reports in words of
its own is kept as `reported`.
-/

namespace Tidemark

/-- The part of a replay that a fault belongs to. -/
inductive FaultKind where
  | source
  | destination
  | throttled
  | config
  | watermark
  | metrics
  deriving DecidableEq, Repr

/-- Why a line is no event. -/
inductive LineFault where
  | invalidJson
  | missingField (name : String)
  | unreadableTime (value : Json.Value) (name : String)

/-- Why a source cannot yield its next event. -/
inductive SourceFault where
  | reported (text : String)
  | notUtf8 (fault : Text.Utf8Fault)
  | line (number : Nat) (fault : LineFault)
  | objectLine (bucket key : String) (number : Nat) (fault : LineFault)
  | opening (path reason : String)

/-- Why a destination did not take a record or give a listing. -/
inductive DestinationFault where
  | reported (text : String)
  | dropped
  | injectedSubmit
  | injectedPut
  | injectedListing
  | releasedAsFailed
  | invalidHashKey (key : String) (fault : Text.NumeralFault)
  | uncovered (hash : Nat)
  | invalidToken (token : String)

/-- Why a destination asked to be left alone for a while. -/
inductive ThrottlingFault where
  | reported (text : String)
  | injectedPut
  | injectedListing

/-- Why a configuration cannot be run. -/
inductive ConfigFault where
  | reported (text : String)
  | speedup (got : Binary64)
  | minSleep
  | statisticsInterval
  | watermarkInterval
  | watermarkEventCount

/-- A fault with its cause. A failed watermark cycle keeps the fault that ended it. -/
inductive Fault where
  | source (cause : SourceFault)
  | destination (cause : DestinationFault)
  | throttled (cause : ThrottlingFault)
  | config (cause : ConfigFault)
  | watermark (text : String)
  | cycle (cause : Fault)
  | metrics (text : String)

namespace LineFault

def message : LineFault → String
  | invalidJson => "invalid JSON"
  | missingField name => "missing timestamp field " ++ name
  | unreadableTime value name => "cannot parse timestamp " ++ value.compact ++ " in field " ++ name

end LineFault

namespace SourceFault

/-- The message of a fault on a line, with the number of the line. -/
def lineMessage (number : Nat) (fault : LineFault) : String :=
  "line " ++ toString number ++ ": " ++ fault.message

def message : SourceFault → String
  | reported text => text
  | notUtf8 fault => fault.message
  | line number fault => lineMessage number fault
  | objectLine bucket key number fault =>
    "s3://" ++ bucket ++ "/" ++ key ++ " " ++ lineMessage number fault
  | opening path reason => "opening " ++ path ++ ": " ++ reason

end SourceFault

namespace DestinationFault

def message : DestinationFault → String
  | reported text => text
  | dropped => "record was dropped before it was acknowledged"
  | injectedSubmit => "injected submit failure"
  | injectedPut => "injected put failure"
  | injectedListing => "injected listing failure"
  | releasedAsFailed => "released as failed"
  | invalidHashKey key fault => "invalid explicit hash key " ++ key ++ ": " ++ fault.message
  | uncovered hash => "no partition covers hash key " ++ toString hash
  | invalidToken token => "invalid next token " ++ token

end DestinationFault

namespace ThrottlingFault

def message : ThrottlingFault → String
  | reported text => text
  | injectedPut => "injected put throttling"
  | injectedListing => "injected listing throttling"

end ThrottlingFault

namespace ConfigFault

def message : ConfigFault → String
  | reported text => text
  | speedup got => "speedup factor must be a positive number, got " ++ got.plain
  | minSleep => "min_sleep must be greater than zero"
  | statisticsInterval => "statistics_interval must be greater than zero"
  | watermarkInterval => "watermark interval must be greater than zero"
  | watermarkEventCount => "watermark event count must be greater than zero"

end ConfigFault

namespace FaultKind

def name : FaultKind → String
  | source => "Source"
  | destination => "Destination"
  | throttled => "Throttled"
  | config => "Config"
  | watermark => "Watermark"
  | metrics => "Metrics"

/-- What stands before the message of a fault of the kind. -/
def heading : FaultKind → String
  | source => "Source Error - "
  | destination => "Destination Error - "
  | throttled => "Throttled - "
  | config => "Config Error - "
  | watermark => "Watermark Error - "
  | metrics => "Metrics Error - "

/-- The fault of a kind that is reported in words. -/
def reported (kind : FaultKind) (text : String) : Fault :=
  match kind with
  | source => .source (.reported text)
  | destination => .destination (.reported text)
  | throttled => .throttled (.reported text)
  | config => .config (.reported text)
  | watermark => .watermark text
  | metrics => .metrics text

end FaultKind

namespace Fault

def kind : Fault → FaultKind
  | source _ => .source
  | destination _ => .destination
  | throttled _ => .throttled
  | config _ => .config
  | watermark _ => .watermark
  | cycle _ => .watermark
  | metrics _ => .metrics

/-- The message without its heading. A failed cycle repeats the whole message of its cause. -/
def detail : Fault → String
  | source cause => cause.message
  | destination cause => cause.message
  | throttled cause => cause.message
  | config cause => cause.message
  | watermark text => text
  | cycle cause => cause.kind.heading ++ cause.detail
  | metrics text => text

def message (f : Fault) : String :=
  f.kind.heading ++ f.detail

/-- The fault as it stands in the journal: its kind around the quoted detail. -/
def shown (f : Fault) : String :=
  f.kind.name ++ "(" ++ Text.quote f.detail ++ ")"

/-- Whether the replay goes on after the fault. -/
def isThrottled (f : Fault) : Bool :=
  f.kind = .throttled

end Fault

end Tidemark
