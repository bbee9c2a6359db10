import Tidemark.Fault
import Tidemark.Time.Span

/-!
# Configuration of a replay

Speed, sleeps and intervals, with their usual values, and the one check that a replay makes before it
starts: a speed that is positive and finite, and nothing else zero.
-/

namespace Tidemark

/-- A watermark is sent after every interval and after every so many events. When disabled the cycles
still run, and write nothing. -/
structure WatermarkConfig where
  enabled : Bool := true
  interval : Span := Span.ofSeconds 10
  eventCount : Nat := 10000
  deriving DecidableEq, Repr

structure ReplayConfig where
  speedup : Binary64 := Binary64.ofNat 1440
  minSleep : Span := Span.ofMillis 10
  statisticsInterval : Span := Span.ofSeconds 60
  watermark : WatermarkConfig := {}
  deriving DecidableEq, Repr

namespace ReplayConfig

/-- The first fault of the configuration. -/
def fault? (c : ReplayConfig) : Option ConfigFault :=
  if !c.speedup.isFinite || c.speedup.atMost Binary64.zero then some (.speedup c.speedup)
  else if c.minSleep = Span.zero then some .minSleep
  else if c.statisticsInterval = Span.zero then some .statisticsInterval
  else if c.watermark.interval = Span.zero then some .watermarkInterval
  else if c.watermark.eventCount = 0 then some .watermarkEventCount
  else none

def validate (c : ReplayConfig) : Except Fault Unit :=
  match c.fault? with
  | some fault => .error (.config fault)
  | none => .ok ()

end ReplayConfig

end Tidemark
