import Tidemark.Proofs.Replay.Exchanged
import Tidemark.Proofs.Replay.Runs

/-!
# The counters of a replay

A replay counts what it sends, what has failed and what its cycles came to. Each count is a word of 64 bits, and
moves on by one at most with everything that happens, but for the partitions that were written to:

```
a send          events sent, events since the last cycle, events since the last report      one more each
a completion    failures                                                                  one more at most
an answer       cycles skipped                                                            one more at most
                partitions written to                       all at once, when a cycle has ended well
```

A cycle has a happening of its own for each partition that it writes to, though (`Cycle.Goes.written_le`). So with
the cycle under way taken in, no count is ahead of what has happened (`Tallied.step`, `tallied_after`), and none
overflows in a run of less than two to the 64th happenings (`counters_fit`).
-/

namespace Tidemark

/-- How many partitions a cycle has written to at a stage. -/
def CycleStage.written : CycleStage → Nat
  | .listing _ => 0
  | .writing left listed => listed - left.length
  | .ended (.ok outcome) => outcome.partitions
  | .ended (.error _) => 0

namespace Cycle

/-- A cycle that a fault ends has written nothing that counts. -/
theorem written_verdict (fault : Fault) : (CycleStage.ended (verdict fault)).written = 0 := by
  rw [verdict]
  split <;> rfl

/-- A cycle that goes on has written to those that are not left. -/
theorem written_onward_le (left : List Descriptor) (listed : Nat) :
    (onward left listed).written ≤ listed - left.length := by
  cases left <;> exact Nat.le_refl _

/-- With an exchange a cycle writes to one more partition at most. -/
theorem Goes.written_le {w : Timestamp} {stage next : CycleStage} {x : Exchange} (h : Goes w stage x next) :
    next.written ≤ stage.written + 1 := by
  cases h with
  | paged => exact Nat.zero_le _
  | listed =>
    refine Nat.le_trans (written_onward_le _ _) ?_
    rw [Nat.sub_self]
    exact Nat.zero_le _
  | unlisted | unwritten =>
    rw [written_verdict]
    exact Nat.zero_le _
  | @written d rest listed =>
    refine Nat.le_trans (written_onward_le _ _) ?_
    show listed - rest.length ≤ listed - (rest.length + 1) + 1
    omega

/-- So it does with any answer. -/
theorem written_listed_le (c : Cycle) (answer : Except Fault Page) (i : Instruments) :
    (c.listed answer i).1.stage.written ≤ c.stage.written + 1 := by
  obtain ⟨w, stage⟩ := c
  cases stage with
  | listing l =>
    obtain ⟨next, hnext, hgoes⟩ := goes_listed w i l answer
    rw [hnext]
    exact hgoes.written_le
  | writing | ended => exact Nat.le_succ _

/-- The answer to a marker counts it, or leaves the count. -/
theorem written_wrote_le (c : Cycle) (answer : Outcome) (i : Instruments) :
    (c.wrote answer i).1.stage.written ≤ c.stage.written + 1 := by
  obtain ⟨w, stage⟩ := c
  cases stage with
  | writing left listed =>
    cases left with
    | nil => exact Nat.le_succ _
    | cons d rest =>
      obtain ⟨next, hnext, hgoes⟩ := goes_wrote w i d rest listed answer
      rw [hnext]
      exact hgoes.written_le
  | listing | ended => exact Nat.le_succ _

end Cycle

/-- A report begins a new count. -/
theorem Statistics.events_maybeReport_le (s : Statistics) (now : Instant) (watermark : Option Timestamp) (lag : Int)
    (i : Instruments) : (s.maybeReport now watermark lag i).2.1.events ≤ s.events := by
  rw [maybeReport, report?]
  by_cases hdue : s.isDue now = true
  · rw [if_pos hdue]
    exact Nat.zero_le _
  · refine Nat.le_of_eq ?_
    rw [if_neg hdue]

/-- The counts of a replay. -/
structure Tally where
  eventsSent : Nat
  eventsSince : Nat
  events : Nat
  failures : Nat
  cyclesSkipped : Nat
  recordsEmitted : Nat

/-- No more was counted than so many sends, and so many completions and answers to cycles. -/
structure Tally.Within (t : Tally) (sends others : Nat) : Prop where
  eventsSent : t.eventsSent ≤ sends
  eventsSince : t.eventsSince ≤ sends
  events : t.events ≤ sends
  failures : t.failures ≤ others
  cyclesSkipped : t.cyclesSkipped ≤ others
  recordsEmitted : t.recordsEmitted ≤ others

theorem Tally.Within.mono {t : Tally} {sends others sends' others' : Nat} (h : t.Within sends others)
    (hsends : sends ≤ sends') (hothers : others ≤ others') : t.Within sends' others' where
  eventsSent := Nat.le_trans h.eventsSent hsends
  eventsSince := Nat.le_trans h.eventsSince hsends
  events := Nat.le_trans h.events hsends
  failures := Nat.le_trans h.failures hothers
  cyclesSkipped := Nat.le_trans h.cyclesSkipped hothers
  recordsEmitted := Nat.le_trans h.recordsEmitted hothers

namespace Replay

/-- What a replay has counted, each count a word of 64 bits. -/
def tally (r : Replay) : Tally where
  eventsSent := r.eventsSent
  eventsSince := r.emitter.eventsSince
  events := r.statistics.events
  failures := r.dispatch.failures
  cyclesSkipped := r.emitter.cyclesSkipped
  recordsEmitted := r.emitter.recordsEmitted

/-- How many partitions the cycle under way has written to. -/
def written (r : Replay) : Nat :=
  match r.stage with
  | .emitting cycle _ _ => cycle.stage.written
  | _ => 0

/-- The counts are within these bounds, also with the cycle under way. -/
structure Tallied (r : Replay) (sends others : Nat) : Prop where
  within : r.tally.Within sends others
  written : r.emitter.recordsEmitted + r.written ≤ others

variable {r : Replay} {sends others : Nat}

theorem Tallied.mono (h : r.Tallied sends others) {sends' others' : Nat} (hsends : sends ≤ sends')
    (hothers : others ≤ others') : r.Tallied sends' others' :=
  ⟨h.within.mono hsends hothers, Nat.le_trans h.written hothers⟩

/-- Without a cycle under way there is nothing more to count. -/
theorem tallied_of_within (h : r.tally.Within sends others) (hnone : r.written = 0) : r.Tallied sends others := by
  refine ⟨h, ?_⟩
  rw [hnone]
  exact h.recordsEmitted

/-! ### The loop -/

section Loop

variable (h : r.tally.Within sends others)
include h

theorem tallied_send (e : Event) (gap : Binary64) : (r.send e gap).1.Tallied (sends + 1) others := by
  have hmore : (⟨r.eventsSent + 1, r.emitter.eventsSince + 1, r.statistics.events + 1, r.dispatch.failures,
      r.emitter.cyclesSkipped, r.emitter.recordsEmitted⟩ : Tally).Within (sends + 1) others :=
    ⟨Nat.succ_le_succ h.eventsSent, Nat.succ_le_succ h.eventsSince, Nat.succ_le_succ h.events, h.failures,
      h.cyclesSkipped, h.recordsEmitted⟩
  rw [send]
  -- the note of an event out of order comes before the send
  cases r.previous with
  | none => exact tallied_of_within hmore rfl
  | some previous =>
    dsimp only
    split <;> exact tallied_of_within hmore rfl

/-- At its head the loop sends one event at most. -/
theorem tallied_turn (now : Instant) (cancelled : Bool) (pending : Event) :
    (r.turn now cancelled pending).1.Tallied (sends + 1) others := by
  have hmore := h.mono (Nat.le_succ sends) (Nat.le_refl others)
  rw [turn]
  split
  · exact tallied_of_within hmore rfl
  · split
    · exact tallied_send h pending _
    · exact tallied_of_within hmore rfl

theorem tallied_report (checkedAt now : Instant) (cancelled : Bool) (pending : Event) :
    (r.report checkedAt now cancelled pending).1.Tallied (sends + 1) others := by
  have hevents := r.statistics.events_maybeReport_le checkedAt r.emitter.lastWatermark r.lag r.instruments
  rw [report]
  generalize r.statistics.maybeReport checkedAt r.emitter.lastWatermark r.lag r.instruments = x at hevents ⊢
  obtain ⟨report?, statistics, instruments⟩ := x
  exact tallied_turn (r := { r with statistics, instruments })
    ⟨h.eventsSent, h.eventsSince, Nat.le_trans hevents h.events, h.failures, h.cyclesSkipped, h.recordsEmitted⟩
    now cancelled pending

/-- A cycle that has ended well is counted with all that it has written. -/
theorem tallied_emitted (watermark : Timestamp) {outcome : EmitOutcome}
    (hwritten : r.emitter.recordsEmitted + outcome.partitions ≤ others + 1) (checkedAt now : Instant)
    (cancelled : Bool) (pending : Event) :
    (r.emitted watermark outcome checkedAt now cancelled pending).1.Tallied (sends + 1) (others + 1) := by
  have hskips : outcome.skips ≤ 1 := by cases outcome <;> simp [EmitOutcome.skips]
  rw [emitted, Emitter.complete_eq]
  refine tallied_report ?_ checkedAt now cancelled pending
  exact ⟨h.eventsSent, Nat.zero_le _, h.events, Nat.le_succ_of_le h.failures,
    Nat.add_le_add h.cyclesSkipped hskips, hwritten⟩

/-- A check that ends a cycle at once counts it as an answer. -/
theorem tallied_check (now : Instant) (cancelled : Bool) (pending : Event) :
    (r.check now cancelled pending).1.Tallied (sends + 1) (others + 1) := by
  rw [check]
  split
  · dsimp only
    split
    · exact tallied_of_within (h.mono (Nat.le_succ sends) (Nat.le_succ others)) rfl
    · have hnone : r.emitter.recordsEmitted + EmitOutcome.disabled.partitions ≤ others + 1 :=
        Nat.le_succ_of_le h.recordsEmitted
      exact tallied_emitted h _ hnone now now cancelled pending
  · exact (tallied_report h now now cancelled pending).mono (Nat.le_refl _) (Nat.le_succ others)

/-- An exchange of the cycle under way counts as one. -/
theorem tallied_advance (next : Cycle) (hwritten : r.emitter.recordsEmitted + next.stage.written ≤ others + 1)
    (i : Instruments) (checkedAt now : Instant) (cancelled : Bool) (pending : Event) :
    (r.advance next i checkedAt now cancelled pending).1.Tallied (sends + 1) (others + 1) := by
  have hmore := h.mono (Nat.le_succ sends) (Nat.le_succ others)
  rw [advance]
  split
  · rename_i outcome hended
    rw [hended] at hwritten
    exact tallied_emitted (r := { r with instruments := i }) h next.watermark hwritten checkedAt now cancelled pending
  · exact tallied_of_within hmore rfl
  · exact ⟨hmore, hwritten⟩

theorem tallied_begin (now : Instant) (cancelled : Bool) (first : Event) :
    (r.begin now cancelled first).1.Tallied (sends + 1) others := by
  rw [begin]
  refine tallied_turn ?_ now cancelled first
  exact ⟨h.eventsSent, h.eventsSince, Nat.zero_le _, h.failures, h.cyclesSkipped, h.recordsEmitted⟩

/-- Nothing is counted at the end. -/
theorem tallied_finish (ending drained : Except Fault Unit) : (r.finish ending drained).Tallied sends others := by
  rcases ending with fault | ⟨⟩
  · exact tallied_of_within h rfl
  · rcases drained with fault | ⟨⟩ <;> exact tallied_of_within h rfl

/-- While the last completions are waited for nothing is counted. -/
theorem tallied_settle (ending : Except Fault Unit) : (r.settle ending).Tallied sends others := by
  rw [settle]
  split
  · exact tallied_finish h ending _
  · exact tallied_of_within h rfl

end Loop

/-! ### Steps and runs -/

/-- An answer counts for one send and one cycle at most. -/
theorem Tallied.answer (h : r.Tallied sends others) (now : Instant) (cancelled : Bool) (a : ReplayAnswer) :
    (r.answer now cancelled a).1.Tallied (sends + 1) (others + 1) := by
  have hmore := h.mono (Nat.le_succ sends) (Nat.le_succ others)
  have hadvance {cycle next : Cycle} {pending : Event} {checkedAt : Instant}
      (hstage : r.stage = .emitting cycle pending checkedAt)
      (hle : next.stage.written ≤ cycle.stage.written + 1) (i : Instruments) :
      (r.advance next i checkedAt now cancelled pending).1.Tallied (sends + 1) (others + 1) := by
    have hunder := h.written
    rw [Replay.written, hstage] at hunder
    exact tallied_advance h.within next
      (Nat.le_trans (Nat.add_le_add_left hle _) (Nat.succ_le_succ hunder)) i checkedAt now cancelled pending
  unfold Replay.answer
  split
  · split
    · exact tallied_of_within hmore.within rfl
    · exact tallied_of_within hmore.within rfl
    · exact (tallied_begin h.within now cancelled _).mono (Nat.le_refl _) (Nat.le_succ others)
  · split
    · exact tallied_of_within hmore.within rfl
    · exact tallied_of_within hmore.within rfl
    · exact tallied_check h.within now cancelled _
  · split
    · exact tallied_of_within hmore.within rfl
    · exact tallied_check h.within now cancelled _
  · exact hadvance ‹_› (Cycle.written_listed_le _ _ _) _
  · exact hadvance ‹_› (Cycle.written_wrote_le _ _ _) _
  · exact tallied_settle hmore.within _
  · exact tallied_finish hmore.within _ _
  · exact hmore

/-- A completion is counted, whether it has failed or not. -/
theorem Tallied.complete (h : r.Tallied sends others) (id : Nat) (outcome : Outcome) :
    (r.complete id outcome).Tallied sends (others + 1) := by
  have hfailures := r.dispatch.complete_failures id outcome r.tracker r.instruments
  rw [Replay.complete]
  generalize r.dispatch.complete id outcome r.tracker r.instruments = x at hfailures ⊢
  obtain ⟨dispatch, tracker, instruments⟩ := x
  have hmore := h.mono (Nat.le_refl sends) (Nat.le_succ others)
  have hone : dispatch.failures ≤ others + 1 := by
    have hle := h.within.failures
    dsimp only [tally] at hle
    dsimp only at hfailures
    split at hfailures <;> omega
  have hbooked : ({ r with dispatch, tracker, instruments } : Replay).tally.Within sends (others + 1) :=
    ⟨hmore.within.eventsSent, hmore.within.eventsSince, hmore.within.events, hone, hmore.within.cyclesSkipped,
      hmore.within.recordsEmitted⟩
  dsimp only
  split
  · exact tallied_settle hbooked _
  · exact ⟨hbooked, hmore.written⟩

/-- Whatever happens counts as one. -/
theorem Tallied.step (h : r.Tallied sends others) (x : Happening) :
    (r.step x).1.Tallied (sends + 1) (others + 1) := by
  cases x with
  | answered now cancelled a => exact h.answer now cancelled a
  | completed id outcome => exact (h.complete id outcome).mono (Nat.le_succ sends) (Nat.le_refl _)

/-- No count is ahead of what has happened. -/
theorem tallied_after (c : ReplayConfig) (t : Tracker) (i : Instruments) (hs : List Happening) :
    ((start c t i).after hs).Tallied hs.length hs.length := by
  induction hs using List.reverseRecOn with
  | nil =>
    refine tallied_of_within ⟨Nat.le_refl _, Nat.le_refl _, Nat.le_refl _, Nat.le_refl _, Nat.le_refl _,
      Nat.le_refl _⟩ ?_
    rw [after_nil, start, written]
    cases c.validate <;> rfl
  | append_singleton hs h ih =>
    rw [after_concat, List.length_append]
    exact ih.step h

/-- No count overflows its word in a run of less than two to the 64th happenings. -/
theorem counters_fit (c : ReplayConfig) (t : Tracker) (i : Instruments) {hs : List Happening}
    (hlength : hs.length < 2 ^ 64) :
    let tally := ((start c t i).after hs).tally
    tally.eventsSent < 2 ^ 64 ∧ tally.eventsSince < 2 ^ 64 ∧ tally.events < 2 ^ 64 ∧
      tally.failures < 2 ^ 64 ∧ tally.cyclesSkipped < 2 ^ 64 ∧ tally.recordsEmitted < 2 ^ 64 :=
  have h := (tallied_after c t i hs).within
  ⟨Nat.lt_of_le_of_lt h.eventsSent hlength, Nat.lt_of_le_of_lt h.eventsSince hlength,
    Nat.lt_of_le_of_lt h.events hlength, Nat.lt_of_le_of_lt h.failures hlength,
    Nat.lt_of_le_of_lt h.cyclesSkipped hlength, Nat.lt_of_le_of_lt h.recordsEmitted hlength⟩

end Replay

end Tidemark
