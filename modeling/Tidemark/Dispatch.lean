import Tidemark.Journal
import Tidemark.Tracker

/-!
# Dispatch of events

Sending an event means: it is tracked, then handed to the destination, and its outcome is awaited by a
completion of its own. A completion ends in one step, when the outcome is there and it gets to run: it
notes the outcome, counts a failure and untracks the event. One that is aborted untracks the event and
does nothing else. Failures are counted in a word of 64 bits, which a replay does not exceed
(`Replay.counters_fit`).
-/

namespace Tidemark

/-- An event that was sent, with the number of its completion. -/
structure Send where
  id : Nat
  event : Event
  deriving DecidableEq

/-- The sends whose completion has not ended, and how many ended in a failure. -/
structure Dispatch where
  outstanding : List Send := []
  failures : Nat := 0
  nextId : Nat := 0

namespace Dispatch

/-- Shows the number of tracked events. -/
def gauge (tracker : Tracker) (i : Instruments) : Instruments :=
  { i with metrics := { i.metrics with inFlight := tracker.size } }

/-- Tracks an event that is about to be handed over; its completion is outstanding from then on. -/
def send (d : Dispatch) (event : Event) (tracker : Tracker) (i : Instruments) :
    Dispatch × Tracker × Instruments :=
  let tracker := tracker.add event.key
  ({ d with outstanding := d.outstanding ++ [⟨d.nextId, event⟩], nextId := d.nextId + 1 },
    tracker, (gauge tracker i).note (.sent event))

/-- The outstanding send of a number. -/
def find? (d : Dispatch) (id : Nat) : Option Send :=
  d.outstanding.find? (·.id = id)

/-- The completion of a send ends with an outcome. -/
def complete (d : Dispatch) (id : Nat) (outcome : Outcome) (tracker : Tracker) (i : Instruments) :
    Dispatch × Tracker × Instruments :=
  match d.find? id with
  | none => (d, tracker, i)
  | some send =>
    let tracker := tracker.remove send.event.key
    let d := { d with outstanding := d.outstanding.filter (·.id ≠ id) }
    match outcome with
    | .ok ack =>
      (d, tracker, gauge tracker (i.note (.acknowledged send.event ack.partition)))
    | .error fault =>
      let failures := Metrics.advance i.metrics.sendFailures 1
      let i := { i with metrics := { i.metrics with sendFailures := failures } }
      ({ d with failures := d.failures + 1 }, tracker,
        gauge tracker (i.note (.sendFailed send.event fault)))

/-- The completion of a send is aborted: nothing is counted and the gauge stays. -/
def abort (d : Dispatch) (id : Nat) (tracker : Tracker) : Dispatch × Tracker :=
  match d.find? id with
  | none => (d, tracker)
  | some send =>
    ({ d with outstanding := d.outstanding.filter (·.id ≠ id) }, tracker.remove send.event.key)

end Dispatch

end Tidemark
