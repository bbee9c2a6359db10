import Tidemark.Digest.Sha256
import Tidemark.Text.Quoted
import Tidemark.Time.Written

/-!
# Events

An event has a time, a payload, the key that decides on its partition and the number that its source gave
it. Events are ordered by time and, within one time, by number; the pair is the key of the event, by
which the events in flight are told apart.
-/

namespace Tidemark

/-- What identifies and orders an event. -/
structure EventKey where
  timestamp : Timestamp
  sequence : Nat
  deriving DecidableEq

namespace EventKey

/-- By time, then by number. -/
def less (a b : EventKey) : Bool :=
  a.timestamp.millis < b.timestamp.millis
    || (a.timestamp.millis = b.timestamp.millis && a.sequence < b.sequence)

end EventKey

-- payloads are compared the same way where other instances are in scope
attribute [instance (high)] ByteArray.instDecidableEq

structure Event where
  timestamp : Timestamp
  payload : ByteArray
  partitionKey : String
  sequence : Nat
  deriving DecidableEq

namespace Event

/-- The key of a payload: the first four bytes of its SHA-256 digest as a decimal number. -/
def keyOf (payload : ByteArray) : String :=
  toString (Sha256.leading 4 payload)

/-- An event whose partition follows from its payload. -/
def ofPayload (timestamp : Timestamp) (payload : ByteArray) (sequence : Nat) : Event :=
  ⟨timestamp, payload, keyOf payload, sequence⟩

def key (e : Event) : EventKey :=
  ⟨e.timestamp, e.sequence⟩

/-- The event as it stands in the journal. -/
def shown (e : Event) : String :=
  "Event \x7b timestamp: " ++ Text.quote (Written.write e.timestamp)
    ++ ", sequence: " ++ toString e.sequence
    ++ ", partition_key: " ++ Text.quote e.partitionKey
    ++ ", payload_len: " ++ toString e.payload.size ++ " \x7d"

/-- How two events compare: by their keys alone. -/
def compare (a b : Event) : Ordering :=
  if a.key.less b.key then .lt else if b.key.less a.key then .gt else .eq

/-- Whether the events are of one rank. -/
def sameKey (a b : Event) : Bool :=
  a.key = b.key

/-- Sorts events by their keys; equal keys keep their order. -/
def sort (events : List Event) : List Event :=
  events.mergeSort fun a b => !b.key.less a.key

end Event

end Tidemark
