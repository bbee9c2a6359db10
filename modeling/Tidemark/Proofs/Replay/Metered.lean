import Tidemark.Proofs.Replay.Rounds

/-!
# The metrics of a run

The same facts are counted in the replay, in its emitter and in its dispatch, and once more in the
metrics, at different moments. `Metrics.Shows` says that the metrics agree with the totals; counters start
again after `2 ^ 64 - 1`, so they agree up to that. One counter has no counterpart among the totals: the
puts that were acknowledged are counted whether or not their cycle is skipped afterwards.

```
send         sent + 1, in flight        complete     failures + 1 on a fault, in flight
take         written + 1 on an acknowledgement, skipped + 1 on throttling
emitted      watermark                  all other parts of the loop     nothing
```

Each part of the loop keeps the agreement, and so does a run, `metered_after`.
-/

namespace Tidemark

/-- The metrics agree with the totals, the number of events in flight and of puts acknowledged. -/
structure Metrics.Shows (m : Metrics) (s : Summary) (inFlight written : Nat) : Prop where
  eventsSent : m.eventsSent = s.eventsSent % 2 ^ 64
  sendFailures : m.sendFailures = s.sendFailures % 2 ^ 64
  watermarksEmitted : m.watermarksEmitted = written % 2 ^ 64
  cyclesSkipped : m.cyclesSkipped = s.cyclesSkipped % 2 ^ 64
  inFlight : m.inFlight = inFlight
  watermark : ∀ w, s.lastWatermark = some w → m.watermark = w.millis

theorem Metrics.advance_mod (total amount : Nat) :
    advance (total % 2 ^ 64) amount = (total + amount) % 2 ^ 64 :=
  Nat.mod_add_mod ..

/-- How many cycles a stage counts as skipped. -/
def CycleStage.skips : CycleStage → Nat
  | .ended (.ok outcome) => outcome.skips
  | _ => 0

namespace Cycle

variable {i : Instruments} {s : Summary} {inFlight written : Nat} {w : Timestamp}

/-- A cycle that a fault ends shows its skip at once. -/
theorem shows_finish_fault (c : Cycle) (fault : Fault) (hm : i.metrics.Shows s inFlight written) :
    (c.finish (.error fault) i).2.metrics.Shows
      { s with cyclesSkipped := s.cyclesSkipped + CycleStage.skips (.ended (verdict fault)) }
      inFlight written := by
  rw [finish, verdict]
  split
  · refine ⟨hm.eventsSent, hm.sendFailures, hm.watermarksEmitted, ?_, hm.inFlight, hm.watermark⟩
    show Metrics.advance i.metrics.cyclesSkipped 1 = _
    rw [hm.cyclesSkipped, Metrics.advance_mod]
    rfl
  · exact hm

/-- A cycle that goes on shows its skip at once, if it has one. -/
theorem shows_write (c : Cycle) (left : List Descriptor) (listed : Nat)
    (hm : i.metrics.Shows s inFlight written) :
    (c.write left listed i).2.metrics.Shows
      { s with cyclesSkipped := s.cyclesSkipped + (onward left listed).skips } inFlight written := by
  cases left <;> exact hm

/-- An exchange counts what it wrote and what it skipped. -/
theorem Goes.shows {stage next : CycleStage} {x : Exchange} (hx : Goes w stage x next)
    (hm : i.metrics.Shows s inFlight written) :
    ((⟨w, stage⟩ : Cycle).take x i).2.metrics.Shows
      { s with cyclesSkipped := s.cyclesSkipped + next.skips } inFlight
      (written + [x].countP Exchange.isWritten) := by
  cases hx with
  | @paged l page _ hnext =>
    rw [take, listed_of_next w i l hnext]
    exact hm
  | @listed l page hnext =>
    rw [take, listed_of_last w i l hnext]
    exact shows_write _ _ _ hm
  | unlisted => exact shows_finish_fault _ _ hm
  | written =>
    refine shows_write (s := s) _ _ _ ⟨hm.eventsSent, hm.sendFailures, ?_, hm.cyclesSkipped, hm.inFlight,
      hm.watermark⟩
    show Metrics.advance i.metrics.watermarksEmitted 1 = _
    rw [hm.watermarksEmitted, Metrics.advance_mod]
    rfl
  | unwritten => exact shows_finish_fault _ _ hm

end Cycle

/-- A report shows the lag and nothing else. -/
theorem Statistics.maybeReport_metrics (s : Statistics) (now : Instant) (watermark : Option Timestamp)
    (lag : Int) (i : Instruments) :
    ∃ shown, (s.maybeReport now watermark lag i).2.2.metrics = { i.metrics with lagSeconds := shown } := by
  rw [maybeReport]
  split
  · exact ⟨i.metrics.lagSeconds, rfl⟩
  · exact ⟨lag, rfl⟩

namespace Replay

/-- The metrics agree with the totals of the replay. -/
def Metered (r : Replay) (written : Nat) : Prop :=
  r.instruments.metrics.Shows r.summary r.tracker.size written

variable {r : Replay} {n : Nat}

/-! ### The loop -/

theorem metered_send (hm : r.Metered n) (e : Event) (gap : Binary64) : (r.send e gap).1.Metered n := by
  have hsent : Metrics.advance r.instruments.metrics.eventsSent 1 = (r.eventsSent + 1) % 2 ^ 64 := by
    rw [hm.eventsSent]
    exact Metrics.advance_mod _ _
  unfold send
  cases r.previous with
  | none => exact ⟨hsent, hm.sendFailures, hm.watermarksEmitted, hm.cyclesSkipped, rfl, hm.watermark⟩
  | some previous =>
    dsimp only
    by_cases hlt : e.timestamp < previous
    · rw [if_pos hlt]
      exact ⟨hsent, hm.sendFailures, hm.watermarksEmitted, hm.cyclesSkipped, rfl, hm.watermark⟩
    · rw [if_neg hlt]
      exact ⟨hsent, hm.sendFailures, hm.watermarksEmitted, hm.cyclesSkipped, rfl, hm.watermark⟩

theorem metered_turn (hm : r.Metered n) (now : Instant) (cancelled : Bool) (e : Event) :
    (r.turn now cancelled e).1.Metered n := by
  rw [turn]
  split
  · exact hm
  · split
    · exact metered_send hm e _
    · exact hm

theorem metered_report (hm : r.Metered n) (checkedAt now : Instant) (cancelled : Bool) (e : Event) :
    (r.report checkedAt now cancelled e).1.Metered n := by
  obtain ⟨shown, hmetrics⟩ :=
    r.statistics.maybeReport_metrics checkedAt r.emitter.lastWatermark r.lag r.instruments
  rw [report]
  refine metered_turn ?_ now cancelled e
  show Metrics.Shows
    (r.statistics.maybeReport checkedAt r.emitter.lastWatermark r.lag r.instruments).2.2.metrics
    r.summary r.tracker.size n
  rw [hmetrics]
  exact ⟨hm.eventsSent, hm.sendFailures, hm.watermarksEmitted, hm.cyclesSkipped, hm.inFlight,
    hm.watermark⟩

/-- The booking of a cycle makes up for a skip that the metrics show already. -/
theorem metered_emitted {outcome : EmitOutcome}
    (hm : r.instruments.metrics.Shows
      { r.summary with cyclesSkipped := r.summary.cyclesSkipped + outcome.skips } r.tracker.size n)
    (w : Timestamp) (checkedAt now : Instant) (cancelled : Bool) (e : Event) :
    (r.emitted w outcome checkedAt now cancelled e).1.Metered n := by
  rw [emitted, Emitter.complete_eq]
  refine metered_report ?_ checkedAt now cancelled e
  refine ⟨hm.eventsSent, hm.sendFailures, hm.watermarksEmitted, hm.cyclesSkipped, hm.inFlight, ?_⟩
  intro last hlast
  exact congrArg Timestamp.millis (Option.some.inj hlast)

theorem metered_check (hm : r.Metered n) (now : Instant) (cancelled : Bool) (e : Event) :
    (r.check now cancelled e).1.Metered n := by
  rw [check]
  split
  · dsimp only
    split
    · exact hm
    · have hdisabled : r.instruments.metrics.Shows
          { r.summary with cyclesSkipped := r.summary.cyclesSkipped + EmitOutcome.disabled.skips }
          r.tracker.size n := hm
      exact metered_emitted hdisabled _ now now cancelled e
  · exact metered_report hm now now cancelled e

/-- A cycle that goes on keeps the replay metered, if its skip is shown. -/
theorem metered_advance {next : CycleStage} {i : Instruments}
    (hm : i.metrics.Shows { r.summary with cyclesSkipped := r.summary.cyclesSkipped + next.skips }
      r.tracker.size n)
    (w : Timestamp) (checkedAt now : Instant) (cancelled : Bool) (e : Event) :
    (r.advance ⟨w, next⟩ i checkedAt now cancelled e).1.Metered n := by
  rw [advance]
  cases next with
  | ended result =>
    cases result with
    | ok outcome => exact metered_emitted hm w checkedAt now cancelled e
    | error fault => exact hm
  | _ => exact hm

/-! ### The end -/

theorem metered_finish (hm : r.Metered n) (ending drained : Except Fault Unit) :
    (r.finish ending drained).Metered n := by
  cases ending <;> cases drained <;> exact hm

/-- To wait for the last completions shows nothing. -/
theorem metered_settle (hm : r.Metered n) (ending : Except Fault Unit) :
    (r.settle ending).Metered n := by
  rw [settle]
  split
  · exact metered_finish hm ending _
  · exact hm

theorem metered_complete (hm : r.Metered n) (id : Nat) (o : Outcome) : (r.complete id o).Metered n := by
  have hbooked : Metered { r with
      dispatch := (r.dispatch.complete id o r.tracker r.instruments).1
      tracker := (r.dispatch.complete id o r.tracker r.instruments).2.1
      instruments := (r.dispatch.complete id o r.tracker r.instruments).2.2 } n := by
    rw [Dispatch.complete]
    split
    · exact hm
    · cases o with
      | ok ack =>
        exact ⟨hm.eventsSent, hm.sendFailures, hm.watermarksEmitted, hm.cyclesSkipped, rfl, hm.watermark⟩
      | error fault =>
        refine ⟨hm.eventsSent, ?_, hm.watermarksEmitted, hm.cyclesSkipped, rfl, hm.watermark⟩
        show Metrics.advance r.instruments.metrics.sendFailures 1 = _
        rw [hm.sendFailures]
        exact Metrics.advance_mod _ _
  rw [complete]
  dsimp only
  split
  · exact metered_settle hbooked _
  · exact hbooked

/-! ### Runs -/

/-- Outside of cycles an answer changes the totals and the metrics alike. -/
theorem metered_answer (hm : r.Metered n) (hc : r.cycle? = none) (now : Instant) (cancelled : Bool)
    (a : ReplayAnswer) : (r.answer now cancelled a).1.Metered n := by
  unfold answer
  split
  · split
    · exact hm
    · exact hm
    · rw [begin]
      refine metered_turn ?_ now cancelled _
      exact hm
  · split
    · exact hm
    · exact hm
    · exact metered_check hm now cancelled _
  · split
    · exact hm
    · exact metered_check hm now cancelled _
  · rename_i hs
    exact absurd hc (by simp [cycle?, hs])
  · rename_i hs
    exact absurd hc (by simp [cycle?, hs])
  · exact metered_settle hm _
  · exact metered_finish hm _ _
  · exact hm

/-- The puts that are acknowledged in a step are added to those before it. -/
theorem metered_step (hasks : r.IsAsking) (hm : r.Metered n) (h : Happening) :
    (r.step h).1.Metered (n + (r.exchange? h).toList.countP Exchange.isWritten) := by
  cases hx : r.exchange? h with
  | some x =>
    obtain ⟨w, stage, next, e, checkedAt, now, cancelled, hex⟩ := exchanged_of_exchange? hx
    rw [hex.step_eq]
    exact metered_advance (hex.goes.shows hm) w checkedAt now cancelled e
  | none =>
    cases h with
    | completed id o => exact metered_complete hm id o
    | answered now cancelled a =>
      cases hc : r.cycle? with
      | none => exact metered_answer hm hc now cancelled a
      | some c =>
        obtain ⟨e, checkedAt, hs⟩ := cycle?_eq_some_iff.1 hc
        rw [step, answer_of_unasked hs (hasks c hc) hx]
        exact hm

/-- All along a run the metrics agree with the totals and the puts. -/
theorem metered_after (hasks : r.IsAsking) (hm : r.Metered 0) (hs : List Happening) :
    (r.after hs).Metered ((r.observe exchange? hs).countP Exchange.isWritten) := by
  induction hs using List.reverseRecOn with
  | nil => exact hm
  | append_singleton hs h ih =>
    rw [after_concat, observe_concat, List.countP_append]
    exact metered_step (asking_after hasks hs) ih h

end Replay

end Tidemark
