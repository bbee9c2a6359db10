import Tidemark.Proofs.InFlight.Outstanding
import Tidemark.Replay

/-!
# What one step of a replay can do

`Replay.Move` lists the outcomes of a step, guards included, and `move_step` says that there are no
others. Everything that is later proved along a run looks at a step through this list and does not open
the loop again:

```
ignored             the answer belongs to another request
landed, concluded   the completion of a send has ended, and with it perhaps the replay
stopped             the loop has ended, and the destination is to be flushed       (Stops)
halted              the same at the head of the loop                              (AtHead)
launched, slept     the event at the head of the loop is sent, or waited for       (AtHead)
opened, advanced    a cycle begins, or goes on
ended               the flush has ended, well or with a fault
```

What can be told of a step from outside is read off the state before it and the happening: the answer of
the source (`yield?`), the check for a cycle (`checked?`) and the watermark of the cycle that begins
(`opened?`).
-/

namespace Tidemark

namespace Emitter

/-- The emitter after a cycle that ended. -/
def booked (e : Emitter) (now : Instant) (watermark : Timestamp) (outcome : EmitOutcome) : Emitter :=
  (e.complete now watermark outcome {}).1

end Emitter

namespace Cycle

/-! ### A cycle keeps its watermark -/

@[simp] theorem finish_watermark (c : Cycle) (result : Except Fault Nat) (i : Instruments) :
    (c.finish result i).1.watermark = c.watermark := by
  cases result with
  | ok partitions => rfl
  | error fault =>
    rw [finish]
    split <;> rfl

@[simp] theorem write_watermark (c : Cycle) (left : List Descriptor) (listed : Nat)
    (i : Instruments) : (c.write left listed i).1.watermark = c.watermark := by
  cases left with
  | nil => exact finish_watermark c _ i
  | cons d rest => rfl

@[simp] theorem listed_watermark (c : Cycle) (answer : Except Fault Page) (i : Instruments) :
    (c.listed answer i).1.watermark = c.watermark := by
  rw [listed]
  split
  · split
    · exact finish_watermark c _ i
    · split
      · exact write_watermark c _ _ i
      · rfl
  · rfl

@[simp] theorem wrote_watermark (c : Cycle) (answer : Outcome) (i : Instruments) :
    (c.wrote answer i).1.watermark = c.watermark := by
  rw [wrote]
  split
  · split
    · exact finish_watermark c _ i
    · exact write_watermark c _ _ _
  · rfl

end Cycle

namespace Replay

/-! ### What a step shows -/

/-- The answer is one to what the replay waits for. -/
def heeds (r : Replay) (a : ReplayAnswer) : Bool :=
  match r.request, a with
  | .pull, .pulled _ => true
  | .sleep _, .slept => true
  | .list _, .listed _ => true
  | .put _, .wrote _ => true
  | .flush, .flushed _ => true
  | _, _ => false

/-- What the source answers in a step, and when. A pull that the cancellation cuts short is not
answered by the source. -/
def yield? (r : Replay) : Happening → Option (Instant × Except Fault (Option Event))
  | .answered now false a =>
    match r.stage, a with
    | .opening, .pulled answer => some (now, answer)
    | .pulling, .pulled answer => some (now, answer)
    | _, _ => none
  | _ => none

/-- The event that a step checks for a cycle, and when: the one pulled after a send, or the one that the
replay has slept before. -/
def checked? (r : Replay) : Happening → Option (Instant × Event)
  | .answered now false a =>
    match r.stage, a with
    | .pulling, .pulled (.ok (some next)) => some (now, next)
    | .sleeping pending _, .slept => some (now, pending)
    | _, _ => none
  | _ => none

/-- The watermark of the cycle that begins in a step, whether or not it is to be written. -/
def opened? (r : Replay) (h : Happening) : Option Timestamp :=
  match r.checked? h with
  | some (now, pending) =>
    if r.emitter.isDue now then some (Emitter.compute r.tracker pending.timestamp) else none
  | none => none

/-- The event that the loop holds, neither sent nor given up. -/
def pending? (r : Replay) : Option Event :=
  match r.stage with
  | .sleeping pending _ => some pending
  | .emitting _ pending _ => some pending
  | _ => none

/-- The loop has not ended. -/
def IsLooping (r : Replay) : Prop :=
  match r.stage with
  | .opening => True
  | .pulling => True
  | .sleeping _ _ => True
  | .emitting _ _ _ => True
  | _ => False

/-- The replay waits for its source. -/
def IsPulling (r : Replay) : Prop :=
  r.stage = .opening ∨ r.stage = .pulling

/-! ### The list of moves -/

/-- The ways to the head of the loop: the first event; a check that finds no cycle due, or one that is
not to be written; the good end of a cycle. -/
inductive AtHead (r : Replay) : Happening → Instant → Bool → Event → Replay → Prop where
  | first {now : Instant} {e : Event} {s : Statistics} {i : Instruments} :
      r.stage = .opening →
      AtHead r (.answered now false (.pulled (.ok (some e)))) now false e
        { r with
          pace := ⟨now, e.timestamp, r.config.speedup, r.config.minSleep⟩
          statistics := s, instruments := i }
  | unchecked {h : Happening} {now : Instant} {e : Event} {s : Statistics} {i : Instruments} :
      r.checked? h = some (now, e) → r.opened? h = none →
      AtHead r h now false e { r with statistics := s, instruments := i }
  | disabled {h : Happening} {now : Instant} {e : Event} {w : Timestamp} {s : Statistics}
      {i : Instruments} :
      r.checked? h = some (now, e) → r.opened? h = some w → r.emitter.config.enabled = false →
      AtHead r h now false e
        { r with emitter := r.emitter.booked now w .disabled, statistics := s, instruments := i }
  | emitted {now checkedAt : Instant} {cancelled : Bool} {a : ReplayAnswer} {cycle : Cycle} {e : Event}
      {outcome : EmitOutcome} {s : Statistics} {i : Instruments} :
      r.stage = .emitting cycle e checkedAt →
      AtHead r (.answered now cancelled a) now cancelled e
        { r with
          emitter := r.emitter.booked now cycle.watermark outcome
          statistics := s, instruments := i }

/-- What ends the loop before its head is reached, with what it ends with. -/
inductive Stops (r : Replay) : Happening → Except Fault Unit → Prop where
  | cut {now : Instant} {a : Except Fault (Option Event)} :
      r.IsPulling → Stops r (.answered now true (.pulled a)) (.ok ())
  | exhausted {now : Instant} :
      r.IsPulling → Stops r (.answered now false (.pulled (.ok none))) (.ok ())
  | failed {now : Instant} {fault : Fault} :
      r.IsPulling → Stops r (.answered now false (.pulled (.error fault))) (.error fault)
  | woken {now : Instant} {e : Event} {d : Span} :
      r.stage = .sleeping e d → Stops r (.answered now true .slept) (.ok ())
  | broken {now checkedAt : Instant} {cancelled : Bool} {a : ReplayAnswer} {cycle : Cycle}
      {e : Event} {fault : Fault} :
      r.stage = .emitting cycle e checkedAt →
      Stops r (.answered now cancelled a) (.error (.cycle fault))

/-- Arriving at the head of the loop leaves everything but the pace, the emitter, the statistics and the
instruments as it was. -/
structure AtHead.Kept (r r₁ : Replay) : Prop where
  config : r₁.config = r.config
  eventsSent : r₁.eventsSent = r.eventsSent
  dispatch : r₁.dispatch = r.dispatch
  tracker : r₁.tracker = r.tracker

/-- On the way to the head of the loop the books are kept. -/
theorem AtHead.kept {r r₁ : Replay} {h : Happening} {now : Instant} {cancelled : Bool} {e : Event}
    (ha : r.AtHead h now cancelled e r₁) : AtHead.Kept r r₁ := by
  cases ha <;> exact ⟨rfl, rfl, rfl, rfl⟩

/-- A send of an event: it is tracked under the next number, counted, and the next one is pulled. -/
structure Launched (r r₁ : Replay) (e : Event) : Prop where
  stage : r₁.stage = .pulling
  config : r₁.config = r.config
  pace : r₁.pace = r.pace
  eventsSent : r₁.eventsSent = r.eventsSent + 1
  emitter : r₁.emitter = r.emitter.recordEvents 1
  dispatch : ∃ i, r₁.dispatch = (r.dispatch.send e r.tracker i).1
  tracker : r₁.tracker = r.tracker.add e.key

/-- The end of a replay leaves its books as they are. -/
structure Settled (r r' : Replay) : Prop where
  not_looping : ¬ r'.IsLooping
  config : r'.config = r.config
  eventsSent : r'.eventsSent = r.eventsSent
  emitter : r'.emitter = r.emitter
  dispatch : r'.dispatch = r.dispatch
  tracker : r'.tracker = r.tracker
  summary : ∀ s, r'.stage = .ended (.ok s) → s = r.summary

/-- The replay after the completion of a send was booked. -/
def booked (r : Replay) (id : Nat) (outcome : Outcome) (i : Instruments) : Replay :=
  { r with
    dispatch := (r.dispatch.complete id outcome r.tracker r.instruments).1
    tracker := r.dispatch.untracked id r.tracker
    instruments := i }

/-- What a step can come to. -/
inductive Move (r : Replay) : Happening → Replay × Option Send → Prop where
  | ignored {now : Instant} {cancelled : Bool} {a : ReplayAnswer} :
      r.yield? (.answered now cancelled a) = none → r.checked? (.answered now cancelled a) = none →
      Move r (.answered now cancelled a) (r, none)
  | landed (id : Nat) (outcome : Outcome) (i : Instruments) :
      Move r (.completed id outcome) (r.booked id outcome i, none)
  | concluded {id : Nat} {outcome : Outcome} {i : Instruments} {r' : Replay} :
      ¬ r.IsLooping → Settled (r.booked id outcome i) r' → Move r (.completed id outcome) (r', none)
  | stopped {h : Happening} {ending : Except Fault Unit} {i : Instruments} :
      r.Stops h ending → Move r h ({ r with stage := .flushing ending, instruments := i }, none)
  | halted {h : Happening} {now : Instant} {e : Event} {r₁ : Replay} {i : Instruments} :
      r.AtHead h now true e r₁ →
      Move r h ({ r₁ with stage := .flushing (.ok ()), instruments := i }, none)
  | launched {h : Happening} {now : Instant} {e : Event} {r₁ r' : Replay} {gap : Binary64} :
      r.AtHead h now false e r₁ → r₁.pace.decide now e.timestamp = .due gap → Launched r₁ r' e →
      Move r h (r', some ⟨r.dispatch.nextId, e⟩)
  | slept {h : Happening} {now : Instant} {e : Event} {r₁ : Replay} {d : Span} :
      r.AtHead h now false e r₁ → Move r h ({ r₁ with stage := .sleeping e d }, none)
  | opened {h : Happening} {now : Instant} {e : Event} {w : Timestamp} :
      r.checked? h = some (now, e) → r.opened? h = some w → r.emitter.config.enabled = true →
      Move r h ({ r with stage := .emitting (Cycle.start w) e now }, none)
  | advanced {now checkedAt : Instant} {cancelled : Bool} {a : ReplayAnswer} {cycle next : Cycle}
      {e : Event} {i : Instruments} :
      r.stage = .emitting cycle e checkedAt → next.watermark = cycle.watermark →
      Move r (.answered now cancelled a)
        ({ r with stage := .emitting next e checkedAt, instruments := i }, none)
  | ended {now : Instant} {cancelled : Bool} {a : ReplayAnswer} {ending : Except Fault Unit}
      {r' : Replay} :
      r.stage = .flushing ending → Settled r r' → Move r (.answered now cancelled a) (r', none)

/-! ### There are no other moves -/

/-- To send an event is to launch it, under the next number. -/
theorem launched_send (r : Replay) (e : Event) (gap : Binary64) :
    Launched r (r.send e gap).1 e ∧ (r.send e gap).2 = some ⟨r.dispatch.nextId, e⟩ := by
  unfold send
  -- the note of an event out of order comes before the send
  cases r.previous with
  | none => exact ⟨⟨rfl, rfl, rfl, rfl, rfl, ⟨r.instruments, rfl⟩, rfl⟩, rfl⟩
  | some previous =>
    dsimp only
    by_cases hlt : e.timestamp < previous
    · rw [if_pos hlt]
      exact ⟨⟨rfl, rfl, rfl, rfl, rfl, ⟨r.instruments, rfl⟩, rfl⟩, rfl⟩
    · rw [if_neg hlt]
      exact ⟨⟨rfl, rfl, rfl, rfl, rfl, ⟨r.instruments, rfl⟩, rfl⟩, rfl⟩

/-- An event that is due at the head of the loop is sent. -/
theorem turn_of_due {r : Replay} {now : Instant} {e : Event} {gap : Binary64}
    (h : r.pace.decide now e.timestamp = .due gap) : r.turn now false e = r.send e gap := by
  rw [turn, if_neg Bool.false_ne_true, h]

/-- At its head the loop halts, sends the pending event, or sleeps before it: at least for the shortest
sleep, and at most until the next cycle is due if that is later. -/
theorem turn_cases (r : Replay) (now : Instant) (cancelled : Bool) (e : Event) :
    (∃ i, r.turn now cancelled e = ({ r with stage := .flushing (.ok ()), instruments := i }, none)) ∨
      (Launched r (r.turn now cancelled e).1 e ∧
        (r.turn now cancelled e).2 = some ⟨r.dispatch.nextId, e⟩) ∨
      ∃ d, r.turn now cancelled e = ({ r with stage := .sleeping e d }, none) ∧ r.config.minSleep ≤ d ∧
        d ≤ max r.config.minSleep (r.emitter.timeUntilDue now) := by
  rw [turn]
  split
  · exact Or.inl ⟨_, rfl⟩
  · split
    · exact Or.inr (Or.inl (r.launched_send e _))
    · rename_i d _
      refine Or.inr (Or.inr ⟨_, rfl, Nat.le_max_right _ _, ?_⟩)
      have hmin : min d.nanos (r.emitter.timeUntilDue now).nanos ≤ (r.emitter.timeUntilDue now).nanos :=
        Nat.min_le_right _ _
      exact Nat.max_le.2 ⟨Nat.le_trans hmin (Nat.le_max_right _ _), Nat.le_max_left _ _⟩

/-- At its head the loop halts, sends the pending event, or sleeps before it. -/
theorem move_turn {r r₁ : Replay} {h : Happening} {now : Instant} {cancelled : Bool} {e : Event}
    (ha : r.AtHead h now cancelled e r₁) : r.Move h (r₁.turn now cancelled e) := by
  cases cancelled with
  | true =>
    obtain ⟨i, hturn⟩ : ∃ i, r₁.turn now true e =
        ({ r₁ with stage := .flushing (.ok ()), instruments := i }, none) := ⟨_, rfl⟩
    rw [hturn]
    exact .halted ha
  | false =>
    cases hd : r₁.pace.decide now e.timestamp with
    | due gap =>
      obtain ⟨hl, hsent⟩ := r₁.launched_send e gap
      have hturn : r₁.turn now false e = ((r₁.send e gap).1, some ⟨r.dispatch.nextId, e⟩) := by
        rw [← ha.kept.dispatch, ← hsent, turn, hd]
        rfl
      rw [hturn]
      exact .launched ha hd hl
    | wait d =>
      rw [turn, hd]
      exact .slept ha

/-- A report only changes the statistics and the instruments. -/
theorem report_eq (r : Replay) (checkedAt now : Instant) (cancelled : Bool) (e : Event) :
    ∃ s i, r.report checkedAt now cancelled e =
      turn { r with statistics := s, instruments := i } now cancelled e :=
  ⟨_, _, rfl⟩

/-- The first event sets the origin, and comes to the head of the loop. -/
theorem begin_eq (r : Replay) (now : Instant) (cancelled : Bool) (first : Event) :
    ∃ s i, r.begin now cancelled first =
      turn { r with
        pace := ⟨now, first.timestamp, r.config.speedup, r.config.minSleep⟩
        statistics := s, instruments := i } now cancelled first :=
  ⟨_, _, rfl⟩

/-- A cycle that ends is booked, and the loop comes to its head. -/
theorem emitted_eq (r : Replay) (w : Timestamp) (outcome : EmitOutcome) (checkedAt now : Instant)
    (cancelled : Bool) (e : Event) :
    ∃ s i, r.emitted w outcome checkedAt now cancelled e =
      turn { r with
        emitter := r.emitter.booked now w outcome
        statistics := s, instruments := i } now cancelled e :=
  ⟨_, _, rfl⟩

theorem move_check {r : Replay} {h : Happening} {now : Instant} {e : Event}
    (hc : r.checked? h = some (now, e)) : r.Move h (r.check now false e) := by
  rw [check]
  split
  · rename_i hdue
    have ho : r.opened? h = some (Emitter.compute r.tracker e.timestamp) := by
      rw [opened?, hc]
      exact if_pos hdue
    cases hen : r.emitter.config.enabled with
    | true => exact .opened hc ho hen
    | false =>
      obtain ⟨s, i, hs⟩ := r.emitted_eq (Emitter.compute r.tracker e.timestamp) .disabled now now false e
      rw [if_neg (by decide), hs]
      exact move_turn (.disabled hc ho hen)
  · rename_i hdue
    have ho : r.opened? h = none := by
      rw [opened?, hc]
      exact if_neg hdue
    obtain ⟨s, i, hs⟩ := r.report_eq now now false e
    rw [hs]
    exact move_turn (.unchecked hc ho)

theorem move_advance {r : Replay} {cycle next : Cycle} {e : Event} {checkedAt now : Instant}
    {cancelled : Bool} {a : ReplayAnswer} (hs : r.stage = .emitting cycle e checkedAt)
    (hw : next.watermark = cycle.watermark) (i : Instruments) :
    r.Move (.answered now cancelled a) (r.advance next i checkedAt now cancelled e) := by
  rw [advance]
  split
  · rename_i outcome hend
    obtain ⟨s, j, he⟩ :=
      Replay.emitted_eq { r with instruments := i } next.watermark outcome checkedAt now cancelled e
    rw [he, hw]
    exact move_turn (.emitted hs)
  · exact .stopped (.broken hs)
  · exact .advanced hs hw

/-- To finish leaves the books as they are. -/
theorem settled_finish (r : Replay) (ending drained : Except Fault Unit) :
    Settled r (r.finish ending drained) := by
  rcases ending with fault | u
  · exact ⟨id, rfl, rfl, rfl, rfl, rfl, by simp [finish]⟩
  · rcases drained with fault | v
    · exact ⟨id, rfl, rfl, rfl, rfl, rfl, by simp [finish]⟩
    · refine ⟨id, rfl, rfl, rfl, rfl, rfl, ?_⟩
      intro s hs
      simp only [finish, ReplayStage.ended.injEq, Except.ok.injEq] at hs
      exact hs.symm

theorem settled_settle (r : Replay) (ending : Except Fault Unit) : Settled r (r.settle ending) := by
  rw [settle]
  split
  · exact settled_finish r ending _
  · exact ⟨id, rfl, rfl, rfl, rfl, rfl, by simp⟩

/-- A completion is booked with the dispatch alone. -/
theorem dispatch_complete (r : Replay) (id : Nat) (o : Outcome) :
    (r.complete id o).dispatch = (r.dispatch.complete id o r.tracker r.instruments).1 := by
  cases hs : r.stage with
  | settling ending =>
    simp only [complete, hs]
    exact (settled_settle _ ending).dispatch
  | _ => simp only [complete, hs]

/-- The completion of a send is booked; the last one ends a replay that waits for it. -/
theorem move_complete (r : Replay) (id : Nat) (outcome : Outcome) :
    r.Move (.completed id outcome) (r.complete id outcome, none) := by
  let i := (r.dispatch.complete id outcome r.tracker r.instruments).2.2
  have hbooked : r.booked id outcome i =
      { r with
        dispatch := (r.dispatch.complete id outcome r.tracker r.instruments).1
        tracker := (r.dispatch.complete id outcome r.tracker r.instruments).2.1
        instruments := i } := by
    rw [booked, Dispatch.complete_tracker]
  cases hs : r.stage with
  | settling ending =>
    refine .concluded (i := i) (by simp [IsLooping, hs]) ?_
    rw [hbooked]
    simp only [complete, hs]
    exact settled_settle _ ending
  | _ =>
    have he : r.complete id outcome = r.booked id outcome i := by
      rw [hbooked]
      simp only [complete, hs]
      rfl
    rw [he]
    exact .landed id outcome i

theorem move_pulled {r : Replay} (hs : r.IsPulling) (now : Instant) (cancelled : Bool)
    (result : Except Fault (Option Event)) :
    r.Move (.answered now cancelled (.pulled result)) (r.answer now cancelled (.pulled result)) := by
  rcases hs with ho | hp
  · simp only [answer, ho]
    cases cancelled with
    | true => exact .stopped (.cut (.inl ho))
    | false =>
      rcases result with fault | _ | e
      · exact .stopped (.failed (.inl ho))
      · exact .stopped (.exhausted (.inl ho))
      · exact move_turn (.first ho)
  · simp only [answer, hp]
    cases cancelled with
    | true => exact .stopped (.cut (.inr hp))
    | false =>
      rcases result with fault | _ | e
      · exact .stopped (.failed (.inr hp))
      · exact .stopped (.exhausted (.inr hp))
      · exact move_check (by simp only [checked?, hp])

/-- Every step is one of the moves. -/
theorem move_step (r : Replay) (h : Happening) : r.Move h (r.step h) := by
  cases h with
  | completed id outcome => exact r.move_complete id outcome
  | answered now cancelled a =>
    show r.Move _ (r.answer now cancelled a)
    -- in every stage the answers to other requests are ignored
    cases hs : r.stage with
    | opening =>
      cases a with
      | pulled result => exact move_pulled (.inl hs) now cancelled result
      | _ =>
        simp only [answer, hs]
        refine .ignored ?_ ?_ <;> cases cancelled <;> simp [yield?, checked?, hs]
    | pulling =>
      cases a with
      | pulled result => exact move_pulled (.inr hs) now cancelled result
      | _ =>
        simp only [answer, hs]
        refine .ignored ?_ ?_ <;> cases cancelled <;> simp [yield?, checked?, hs]
    | sleeping e d =>
      cases a with
      | slept =>
        simp only [answer, hs]
        cases cancelled with
        | true =>
          rw [if_pos rfl]
          exact .stopped (.woken hs)
        | false =>
          rw [if_neg (by decide)]
          exact move_check (by simp only [checked?, hs])
      | _ =>
        simp only [answer, hs]
        refine .ignored ?_ ?_ <;> cases cancelled <;> simp [yield?, checked?, hs]
    | emitting cycle e checkedAt =>
      cases a with
      | listed result =>
        simp only [answer, hs]
        exact move_advance hs (cycle.listed_watermark result r.instruments) _
      | wrote result =>
        simp only [answer, hs]
        exact move_advance hs (cycle.wrote_watermark result r.instruments) _
      | _ =>
        simp only [answer, hs]
        refine .ignored ?_ ?_ <;> cases cancelled <;> simp [yield?, checked?, hs]
    | flushing ending =>
      cases a with
      | flushed drained =>
        cases drained with
        | ok u =>
          simp only [answer, hs]
          exact .ended hs (r.settled_settle ending)
        | error fault =>
          simp only [answer, hs]
          exact .ended hs (r.settled_finish ending _)
      | _ =>
        simp only [answer, hs]
        refine .ignored ?_ ?_ <;> cases cancelled <;> simp [yield?, checked?, hs]
    | settling ending =>
      simp only [answer, hs]
      refine .ignored ?_ ?_ <;> cases cancelled <;> cases a <;> simp [yield?, checked?, hs]
    | ended result =>
      simp only [answer, hs]
      refine .ignored ?_ ?_ <;> cases cancelled <;> cases a <;> simp [yield?, checked?, hs]

end Replay

end Tidemark
