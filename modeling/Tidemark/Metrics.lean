/-!
# Metrics

Four counters and three gauges of a replay. Counters start again after `2 ^ 64 - 1`. `exposition` is the
text that a scraper gets, in a fixed order, the counters with their suffix.
-/

namespace Tidemark

structure Metrics where
  eventsSent : Nat := 0
  sendFailures : Nat := 0
  watermarksEmitted : Nat := 0
  cyclesSkipped : Nat := 0
  inFlight : Int := 0
  watermark : Int := 0
  lagSeconds : Int := 0
  deriving DecidableEq, Repr

namespace Metrics

/-- Adds to a counter. -/
def advance (counter amount : Nat) : Nat :=
  (counter + amount) % 2 ^ 64

/-- The four lines of one metric. -/
def family (name help kind suffix value : String) : String :=
  "# HELP " ++ name ++ " " ++ help ++ ".\n# TYPE " ++ name ++ " " ++ kind ++ "\n"
    ++ name ++ suffix ++ " " ++ value ++ "\n"

def counter (name help : String) (value : Nat) : String :=
  family name help "counter" "_total" (toString value)

def gauge (name help : String) (value : Int) : String :=
  family name help "gauge" "" (toString value)

/-- All metrics as text. -/
def exposition (m : Metrics) : String :=
  counter "replay_events_sent" "Total number of events handed to the destination stream" m.eventsSent
    ++ counter "replay_event_send_failures"
      "Total number of events the destination stream failed to accept" m.sendFailures
    ++ counter "replay_watermarks_emitted"
      "Total number of watermark records written, one per partition per cycle" m.watermarksEmitted
    ++ counter "replay_watermark_cycles_skipped"
      "Total number of watermark cycles abandoned because of throttling" m.cyclesSkipped
    ++ gauge "replay_in_flight_events" "Number of events sent but not yet acknowledged" m.inFlight
    ++ gauge "replay_watermark_millis" "Last computed watermark in epoch milliseconds" m.watermark
    ++ gauge "replay_lag_seconds" "Seconds the replay runs behind the target pace" m.lagSeconds
    ++ "# EOF\n"

end Metrics

end Tidemark
