import Tidemark.Event

/-!
# Events from a list

The simplest source: events that are given, or made from their times alone. An event made from its time
has the time's decimal numeral as its payload and is numbered by its position.
-/

namespace Tidemark

/-- The event of a time at a position. -/
def Event.ofTimestamp (timestamp : Timestamp) (sequence : Nat) : Event :=
  Event.ofPayload timestamp (toString timestamp).toUTF8 sequence

/-- The events of a list of times. -/
def Event.ofTimestamps (timestamps : List Timestamp) : List Event :=
  timestamps.mapIdx fun i t => Event.ofTimestamp t i

end Tidemark
