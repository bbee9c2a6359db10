import Tidemark.Time.Span
import Tidemark.Time.Timestamp

/-!
# Pacing

The time that has passed since the start of a replay is mapped onto event time by the speedup factor:

```
gap = elapsed * speedup - (timestamp - origin)        in milliseconds of event time
```

An event is due when its gap is not negative; until then the replay waits for as long as the gap takes to
close. Both are functions of the current instant alone.
-/

namespace Tidemark

/-- The instant and the timestamp that a replay starts from, with its speed. -/
structure Pace where
  wallZero : Instant
  logZero : Timestamp
  speedup : Binary64
  minSleep : Span

/-- What to do with the pending event. -/
inductive Pacing where
  | due (gap : Binary64)
  | wait (d : Span)
  deriving DecidableEq, Repr

namespace Pace

def thousand : Binary64 := Binary64.ofNat 1000

/-- How far the replay is past the event, in milliseconds of event time. -/
def gap (p : Pace) (now : Instant) (t : Timestamp) : Binary64 :=
  let elapsed := (now.since p.wallZero).toSeconds * thousand
  elapsed * p.speedup - (Binary64.ofInt t.millis - Binary64.ofInt p.logZero.millis)

/-- Whether the event is due, and how long to wait for it otherwise: at least the shortest sleep. -/
def decide (p : Pace) (now : Instant) (t : Timestamp) : Pacing :=
  let gap := p.gap now t
  if Binary64.zero.atMost gap then .due gap
  else
    let d := (Span.ofSeconds? (-gap / p.speedup / thousand)).getD Span.longest
    .wait (max d p.minSleep)

/-- The gap in whole seconds of the running time, rounded, within 64 bits. -/
def lagSeconds (p : Pace) (gap : Binary64) : Int :=
  (gap / p.speedup / thousand).roundAway (-9223372036854775808) 9223372036854775807

end Pace

end Tidemark
