import Tidemark.Journal

/-!
# Statistics

How many events were sent since the last report, and a report whenever the interval has passed. A report
starts the next interval at its own instant. Events are counted in words of 64 bits, which a replay does not
exceed (`Replay.counters_fit`).
-/

namespace Tidemark

structure Statistics where
  interval : Span
  lastReport : Instant
  events : Nat := 0
  deriving DecidableEq, Repr

/-- One report: the rate since the last one, the lag and the watermark. -/
structure Report where
  rate : Binary64
  lag : Int
  watermark : Option Timestamp
  deriving DecidableEq

namespace Statistics

/-- Counts events that were sent. -/
def recordEvents (s : Statistics) (count : Nat) : Statistics :=
  { s with events := s.events + count }

/-- The time left until the next report. -/
def timeUntilDue (s : Statistics) (now : Instant) : Span :=
  s.interval.saturatingSub (now.since s.lastReport)

/-- Whether the interval has passed. -/
def isDue (s : Statistics) (now : Instant) : Bool :=
  s.interval ≤ now.since s.lastReport

/-- Reports if the interval has passed. -/
def report? (s : Statistics) (now : Instant) (watermark : Option Timestamp) (lag : Int) :
    Option Report × Statistics :=
  if s.isDue now then
    let rate := Binary64.ofNat s.events / (now.since s.lastReport).toSeconds
    (some ⟨rate, lag, watermark⟩, { s with lastReport := now, events := 0 })
  else (none, s)

/-- Reports if the interval has passed, with its entry in the journal and the lag as a metric. -/
def maybeReport (s : Statistics) (now : Instant) (watermark : Option Timestamp) (lag : Int)
    (i : Instruments) : Option Report × Statistics × Instruments :=
  match s.report? now watermark lag with
  | (none, s) => (none, s, i)
  | (some r, s) =>
    let i := { i with metrics := { i.metrics with lagSeconds := lag } }
    (some r, s, i.note (.status watermark r.rate lag))

end Statistics

end Tidemark
