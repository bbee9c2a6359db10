import Tidemark.Proofs.Replay.Drained
import Tidemark.Proofs.Replay.Exchanged

/-!
# How a replay shuts down

Whatever ends the driving loop, the destination is flushed once after it, and that is the last call of the
run. The result is the first of the faults that may have come up, or else the totals:

```
fault of a pull ──────────────┐
fatal fault of a cycle ───────┤
the end, or a cancellation ───┴──> flush ──> completions ──> verdict
```

`Winds` says where a replay stands with this, given the faults, the answers to the flush and the calls so far.
The loop is left in one step, which calls for the flush (`step_of_looping`); `winds_step` carries the
invariant over every step, and `flushed_once_and_last` reads it off. Throttling is no fatal fault of a cycle.
-/

namespace Tidemark

open Rehearsal (Call)

/-- The fault of an exchange that breaks its cycle off. Throttling does not. -/
def Exchange.fatal? : Exchange → Option Fault
  | .list call => (faultOf? call.answer).filter fun fault ↦ !fault.isThrottled
  | .put call => (faultOf? call.answer).filter fun fault ↦ !fault.isThrottled

/-- The call of the destination that comes with a request. -/
def ReplayRequest.call? : ReplayRequest → Option Call
  | .list token => some (.list token)
  | .put record => some (.put record)
  | .flush => some .flush
  | _ => none

namespace Cycle

/-- The verdict on a fault breaks the cycle off exactly if the fault is fatal. -/
theorem verdict_eq_error_iff {fault fault' : Fault} :
    verdict fault = .error fault' ↔ (some fault).filter (fun f ↦ !f.isThrottled) = some fault' := by
  rw [verdict, Option.filter_some]
  by_cases ht : fault.isThrottled <;> simp [ht]

/-- A cycle is broken off by exactly the fatal faults. -/
theorem Goes.ended_error_iff {w : Timestamp} {stage next : CycleStage} {x : Exchange}
    (hx : Goes w stage x next) (fault : Fault) :
    next = .ended (.error fault) ↔ x.fatal? = some fault := by
  have honward : ∀ left listed, onward left listed ≠ .ended (.error fault) := by
    intro left listed
    cases left <;> simp [onward]
  cases hx with
  | paged _ => simp [Exchange.fatal?, faultOf?]
  | listed _ => simp [Exchange.fatal?, faultOf?, honward]
  | unlisted =>
    rw [CycleStage.ended.injEq]
    exact verdict_eq_error_iff
  | written => simp [Exchange.fatal?, faultOf?, honward]
  | unwritten =>
    rw [CycleStage.ended.injEq]
    exact verdict_eq_error_iff

end Cycle

namespace Replay

/-! ### Calls and faults -/

/-- The call of the destination that a step comes to: the event that it sends is submitted, or else the
replay calls for what it waits for next. -/
def call? (r : Replay) : Happening → Option Call
  | .completed _ _ => none
  | .answered now cancelled a =>
    match r.answer now cancelled a with
    | (_, some s) => some (.submit (Record.ofEvent s.event))
    | (r', none) => if r.heeds a then r'.request.call? else none

/-- The answer to the flush. -/
def flushed? (r : Replay) : Happening → Option (Except Fault Unit)
  | .completed _ _ => none
  | .answered _ _ a =>
    match r.request, a with
    | .flush, .flushed answer => some answer
    | _, _ => none

/-- The first fault that the source has answered with. -/
def sourceFault? (r : Replay) (hs : List Happening) : Option Fault :=
  (r.yields hs).findSome? fun y ↦ faultOf? y.2

/-- The first fault that has broken a cycle off. -/
def cycleFault? (r : Replay) (hs : List Happening) : Option Fault :=
  (r.observe exchange? hs).findSome? Exchange.fatal?

/-- What the loop ends with, given the faults of its source and of a cycle. -/
def endingOf (source cycle : Option Fault) : Except Fault Unit :=
  match source, cycle with
  | some fault, _ => .error fault
  | none, some fault => .error (.cycle fault)
  | none, none => .ok ()

/-- What a replay comes to: the fault of its source, else that of a cycle, else that of the flush, else its
totals. -/
def verdict (source cycle : Option Fault) (flushed : Except Fault Unit) (s : Summary) :
    Except Fault Summary :=
  match source, cycle, flushed with
  | some fault, _, _ => .error fault
  | none, some fault, _ => .error (.cycle fault)
  | none, none, .error fault => .error fault
  | none, none, .ok () => .ok s

/-- What the loop has ended with and the flush decide the verdict. -/
theorem stage_finish (r : Replay) (source cycle : Option Fault) (flushed : Except Fault Unit) :
    (r.finish (endingOf source cycle) flushed).stage = .ended (verdict source cycle flushed r.summary) := by
  rcases source with _ | fault <;> rcases cycle with _ | fault <;> rcases flushed with fault | u <;> rfl

/-- The fault of the source that a step shows. -/
def pullFault? (r : Replay) (h : Happening) : Option Fault :=
  (r.yield? h).bind fun y ↦ faultOf? y.2

/-- The fault that breaks a cycle off in a step. -/
def exchangeFault? (r : Replay) (h : Happening) : Option Fault :=
  (r.exchange? h).bind Exchange.fatal?

theorem findSome?_concat_toList {α β : Type} (f : α → Option β) (l : List α) (o : Option α) :
    (l ++ o.toList).findSome? f = (l.findSome? f).or (o.bind f) := by
  cases o <;> simp [List.findSome?_append]

theorem sourceFault?_concat (r : Replay) (hs : List Happening) (h : Happening) :
    r.sourceFault? (hs ++ [h]) = (r.sourceFault? hs).or ((r.after hs).pullFault? h) := by
  rw [sourceFault?, yields_concat]
  exact findSome?_concat_toList _ _ _

theorem cycleFault?_concat (r : Replay) (hs : List Happening) (h : Happening) :
    r.cycleFault? (hs ++ [h]) = (r.cycleFault? hs).or ((r.after hs).exchangeFault? h) := by
  rw [cycleFault?, observe_concat]
  exact findSome?_concat_toList _ _ _

/-! ### Leaving the loop -/

variable {r : Replay} {h : Happening}

/-- An answer to anything else than what a loop waits for changes nothing. -/
theorem answer_of_unheeded (hr : r.IsLooping) (hasks : r.IsAsking) {a : ReplayAnswer}
    (ha : r.heeds a = false) (now : Instant) (cancelled : Bool) :
    r.answer now cancelled a = (r, none) := by
  cases hs : r.stage with
  | emitting c e checkedAt =>
    refine answer_of_unasked hs (hasks c (cycle?_eq_some_iff.2 ⟨e, checkedAt, hs⟩)) ?_
    simp only [exchange?]
    split
    · rename_i hq
      simp [heeds, hq] at ha
    · rename_i hq
      simp [heeds, hq] at ha
    · rfl
  | opening => cases a <;> simp [heeds, request, hs] at ha <;> simp only [answer, hs]
  | pulling => cases a <;> simp [heeds, request, hs] at ha <;> simp only [answer, hs]
  | sleeping e d => cases a <;> simp [heeds, request, hs] at ha <;> simp only [answer, hs]
  | _ => simp [IsLooping, hs] at hr

/-- An exchange goes on with the loop, or ends it with the fault that breaks the cycle off. -/
theorem step_of_exchange {x : Exchange} (hx : r.exchange? h = some x) :
    ((r.step h).1.IsLooping ∧ x.fatal? = none) ∨
      (r.step h).1.stage = .flushing (endingOf none x.fatal?) := by
  obtain ⟨w, stage, next, e, checkedAt, now, cancelled, hex⟩ := exchanged_of_exchange? hx
  have hfatal := hex.goes.ended_error_iff
  have hnone (hne : ∀ fault, next ≠ .ended (.error fault)) : x.fatal? = none :=
    Option.eq_none_iff_forall_ne_some.2 fun fault hf ↦ hne fault ((hfatal fault).2 hf)
  cases next with
  | ended result =>
    cases result with
    | error fault =>
      rw [hex.step_eq, (hfatal fault).1 rfl]
      exact Or.inr rfl
    | ok outcome =>
      rw [hnone (by simp)]
      exact hex.closed.2.2.imp (fun hl ↦ ⟨hl, rfl⟩) And.left
  | _ =>
    rw [hex.step_eq]
    exact Or.inl ⟨trivial, hnone (by simp)⟩

/-- A loop without a cycle under way goes on, or ends with the fault of its source if there is one. -/
theorem Move.of_looping {x : Replay × Option Send} (hm : r.Move h x) (hr : r.IsLooping)
    (hc : r.cycle? = none) :
    (x.1.IsLooping ∧ r.pullFault? h = none) ∨ x.1.stage = .flushing (endingOf (r.pullFault? h) none) := by
  have hemit : ∀ {cycle e checkedAt}, r.stage ≠ .emitting cycle e checkedAt := by
    intro cycle e checkedAt hs
    exact absurd hc (by simp [cycle?, hs])
  have hpull : ∀ {now e}, r.checked? h = some (now, e) → r.pullFault? h = none := by
    intro now e hchecked
    rcases checked?_cases hchecked with ⟨hs, rfl⟩ | ⟨d, hs, rfl⟩ <;> simp [pullFault?, yield?, hs, faultOf?]
  have hhead : ∀ {now cancelled e r₁}, r.AtHead h now cancelled e r₁ →
      cancelled = false ∧ r.pullFault? h = none := by
    intro now cancelled e r₁ ha
    cases ha with
    | first hs => exact ⟨rfl, by simp [pullFault?, yield?, hs, faultOf?]⟩
    | unchecked hchecked _ => exact ⟨rfl, hpull hchecked⟩
    | disabled hchecked _ _ => exact ⟨rfl, hpull hchecked⟩
    | emitted hs => exact absurd hs hemit
  cases hm with
  | ignored hy _ => exact Or.inl ⟨hr, by rw [pullFault?, hy]; rfl⟩
  | landed id outcome i => exact Or.inl ⟨hr, rfl⟩
  | concluded hnot _ => exact absurd hr hnot
  | stopped hst =>
    cases hst with
    | cut _ => exact Or.inr rfl
    | exhausted hp => rcases hp with hs | hs <;> simp [pullFault?, yield?, hs, faultOf?, endingOf]
    | failed hp => rcases hp with hs | hs <;> simp [pullFault?, yield?, hs, faultOf?, endingOf]
    | woken _ => exact Or.inr rfl
    | broken hs => exact absurd hs hemit
  | halted ha => exact absurd (hhead ha).1 (by simp)
  | launched ha _ hl => exact Or.inl ⟨by simp [IsLooping, hl.stage], (hhead ha).2⟩
  | slept ha => exact Or.inl ⟨trivial, (hhead ha).2⟩
  | opened hchecked _ _ => exact Or.inl ⟨trivial, hpull hchecked⟩
  | advanced hs _ => exact absurd hs hemit
  | ended hs _ => simp [IsLooping, hs] at hr

/-- A step goes on with the loop, or ends it with the first fault that it shows. -/
theorem step_of_looping (hr : r.IsLooping) (hasks : r.IsAsking) (h : Happening) :
    ((r.step h).1.IsLooping ∧ r.pullFault? h = none ∧ r.exchangeFault? h = none) ∨
      (r.step h).1.stage = .flushing (endingOf (r.pullFault? h) (r.exchangeFault? h)) := by
  cases hc : r.cycle? with
  | none =>
    rw [exchangeFault?, exchange?_eq_none hc h]
    exact ((r.move_step h).of_looping hr hc).imp_left fun hl ↦ ⟨hl.1, hl.2, rfl⟩
  | some c =>
    obtain ⟨e, checkedAt, hs⟩ := cycle?_eq_some_iff.1 hc
    have hpull : r.pullFault? h = none := by
      rw [pullFault?, yield?_eq_none (by simp [IsPulling, hs]) h]
      rfl
    rw [exchangeFault?, hpull]
    cases hx : r.exchange? h with
    | some x => exact (step_of_exchange hx).imp_left fun hl ↦ ⟨hl.1, rfl, hl.2⟩
    | none =>
      refine Or.inl ⟨?_, rfl, rfl⟩
      cases h with
      | completed id outcome =>
        have hstage : (r.complete id outcome).stage = r.stage := stage_complete (by simp [hs]) id outcome
        rw [step, IsLooping, hstage, hs]
        trivial
      | answered now cancelled a =>
        rw [step, answer_of_unasked hs (hasks c hc) hx]
        exact hr

theorem request_ne_flush (hr : r.IsLooping) : r.request ≠ .flush := by
  intro hq
  cases hs : r.stage with
  | emitting cycle e checkedAt =>
    simp only [request, hs] at hq
    split at hq <;> exact absurd hq (by simp)
  | flushing ending => simp [IsLooping, hs] at hr
  | _ => simp [request, hs] at hq

/-- As long as the loop goes on the destination is not called for a flush. -/
theorem call?_ne_flush (hl : (r.step h).1.IsLooping) : r.call? h ≠ some .flush := by
  intro hcall
  cases h with
  | completed id outcome => exact absurd hcall (by simp [call?])
  | answered now cancelled a =>
    have hflush := request_ne_flush hl
    rw [step] at hflush
    rw [call?] at hcall
    split at hcall
    · exact absurd hcall (by simp)
    · rename_i r' hanswer
      rw [hanswer] at hflush
      split at hcall
      · cases hq : r'.request <;> simp_all [ReplayRequest.call?]
      · exact absurd hcall (by simp)

/-- The step that ends the loop calls for the flush. -/
theorem call?_of_left (hr : r.IsLooping) (hasks : r.IsAsking) {ending : Except Fault Unit}
    (hs : (r.step h).1.stage = .flushing ending) : r.call? h = some .flush := by
  have hleft : ¬ (r.step h).1.IsLooping := by simp [IsLooping, hs]
  cases h with
  | completed id outcome =>
    have hstage := stage_complete (r := r) (by rintro e he; simp [IsLooping, he] at hr) id outcome
    have hs' : (r.complete id outcome).stage = .flushing ending := hs
    simp [IsLooping, hstage.symm.trans hs'] at hr
  | answered now cancelled a =>
    have hheeds : r.heeds a = true := by
      cases ha : r.heeds a with
      | true => rfl
      | false =>
        rw [step, answer_of_unheeded hr hasks ha] at hleft
        exact absurd hr hleft
    have hsent : (r.step (.answered now cancelled a)).2 = none := by
      refine Option.eq_none_iff_forall_ne_some.2 fun s hsend ↦ ?_
      have hm := r.move_step (.answered now cancelled a)
      generalize r.step (.answered now cancelled a) = x at hm hsend hs
      cases hm with
      | launched _ _ hl => exact absurd (hl.stage.symm.trans hs) (by simp)
      | _ => exact absurd hsend (by simp)
    rw [step] at hs hsent
    rw [call?]
    generalize r.answer now cancelled a = x at hs hsent
    obtain ⟨r', sent⟩ := x
    obtain rfl : sent = none := hsent
    have hs' : r'.stage = .flushing ending := hs
    simp [hheeds, request, hs', ReplayRequest.call?]

/-! ### After the loop -/

theorem shows_nothing (hr : ¬ r.IsLooping) (h : Happening) :
    r.pullFault? h = none ∧ r.exchangeFault? h = none := by
  constructor
  · rw [pullFault?, yield?_eq_none (mt IsPulling.isLooping hr)]
    rfl
  · rw [exchangeFault?, exchange?_eq_none (cycle?_eq_none_of_not_looping hr)]
    rfl

/-- The last completions are waited for without any call. -/
theorem request_settle (r : Replay) (ending : Except Fault Unit) :
    (r.settle ending).request.call? = none := by
  rw [settle]
  split
  · rcases ending with fault | u <;> rfl
  · rfl

/-- Once the loop has ended the destination is not called any more. -/
theorem call?_eq_none (hr : ¬ r.IsLooping) (h : Happening) : r.call? h = none := by
  cases h with
  | completed id outcome => rfl
  | answered now cancelled a =>
    cases hs : r.stage with
    | flushing ending =>
      cases a with
      | flushed drained =>
        rcases drained with fault | u
        · rcases ending with fault' | v <;> simp [call?, answer, hs, finish, request, ReplayRequest.call?]
        · simp [call?, answer, hs, request_settle]
      | _ => simp [call?, answer, hs, heeds, request]
    | settling ending => simp [call?, answer, hs, heeds, request]
    | ended result => simp [call?, answer, hs, heeds, request]
    | _ => simp [IsLooping, hs] at hr

/-! ### The invariant -/

/-- Where a replay stands with its end, given the faults, the answers to the flush and the calls so far. -/
inductive Winds (r : Replay) (source cycle : Option Fault) :
    List (Except Fault Unit) → List Call → Prop where
  | looping {calls : List Call} (hl : r.IsLooping) (hsource : source = none) (hcycle : cycle = none)
      (hcalls : .flush ∉ calls) : Winds r source cycle [] calls
  | flushing {earlier : List Call} (hs : r.stage = .flushing (endingOf source cycle))
      (hcalls : .flush ∉ earlier) : Winds r source cycle [] (earlier ++ [.flush])
  | settling {earlier : List Call} (hs : r.stage = .settling (endingOf source cycle))
      (hwaits : r.dispatch.outstanding ≠ []) (hcalls : .flush ∉ earlier) :
      Winds r source cycle [.ok ()] (earlier ++ [.flush])
  | ended {answer : Except Fault Unit} {earlier : List Call}
      (hs : r.stage = .ended (verdict source cycle answer r.summary))
      (hdone : answer = .ok () → r.dispatch.outstanding = []) (hcalls : .flush ∉ earlier) :
      Winds r source cycle [answer] (earlier ++ [.flush])

variable {source cycle : Option Fault} {earlier : List Call}

/-- A flush that has ended well leaves the completions to wait for. -/
theorem winds_settle (r : Replay) (hcalls : .flush ∉ earlier) :
    (r.settle (endingOf source cycle)).Winds source cycle [.ok ()] (earlier ++ [.flush]) := by
  rw [settle]
  split
  · rename_i hnone
    have hfinish := r.stage_finish source cycle (.ok ())
    have hsettled := r.settled_finish (endingOf source cycle) (.ok ())
    have hsummary : (r.finish (endingOf source cycle) (.ok ())).summary = r.summary := by
      rw [summary, summary, hsettled.eventsSent, hsettled.dispatch, hsettled.emitter]
    refine .ended (hsummary ▸ hfinish) (fun _ ↦ ?_) hcalls
    rw [hsettled.dispatch]
    exact List.isEmpty_iff.1 hnone
  · rename_i hsome
    exact .settling rfl (by simpa using hsome) hcalls

theorem winds_finish (r : Replay) (fault : Fault) (hcalls : .flush ∉ earlier) :
    (r.finish (endingOf source cycle) (.error fault)).Winds source cycle [.error fault]
      (earlier ++ [.flush]) := by
  have hsettled := r.settled_finish (endingOf source cycle) (.error fault)
  have hsummary : (r.finish (endingOf source cycle) (.error fault)).summary = r.summary := by
    rw [summary, summary, hsettled.eventsSent, hsettled.dispatch, hsettled.emitter]
  exact .ended (hsummary ▸ r.stage_finish source cycle (.error fault)) (by simp) hcalls

/-- The result that a replay has ended with stands. -/
theorem winds_ended {answer : Except Fault Unit}
    (hs : r.stage = .ended (verdict source cycle answer r.summary))
    (hdone : answer = .ok () → r.dispatch.outstanding = []) (hcalls : .flush ∉ earlier) (h : Happening) :
    (r.step h).1.Winds source cycle [answer] (earlier ++ [.flush]) := by
  cases h with
  | answered now cancelled a =>
    simp only [step, Replay.answer, hs]
    exact .ended hs hdone hcalls
  | completed id outcome =>
    have hstage : (r.complete id outcome).stage = r.stage := stage_complete (by simp [hs]) id outcome
    have hdispatch := r.dispatch_complete id outcome
    have hout := Dispatch.complete_outstanding r.dispatch id outcome r.tracker r.instruments
    refine .ended ?_ ?_ hcalls
    · -- the totals are looked at only if nothing was outstanding, and then nothing is booked
      show (r.complete id outcome).stage = _
      rw [hstage, hs]
      rcases source with _ | fault <;> rcases cycle with _ | fault' <;> try rfl
      rcases answer with fault'' | u
      · rfl
      · have hnone : r.dispatch.find? id = none := by rw [Dispatch.find?, hdone rfl]; rfl
        have hsame : (r.complete id outcome).summary = r.summary := by
          simp only [complete, hs, summary, Dispatch.complete, hnone]
        show ReplayStage.ended (.ok r.summary) = .ended (.ok (r.complete id outcome).summary)
        rw [hsame]
    · intro hanswer
      show (r.complete id outcome).dispatch.outstanding = []
      rw [hdispatch, hout, hdone hanswer]
      rfl

/-- Every step keeps the invariant. -/
theorem winds_step {flushes : List (Except Fault Unit)} {calls : List Call} (hasks : r.IsAsking)
    (hw : r.Winds source cycle flushes calls) (h : Happening) :
    (r.step h).1.Winds (source.or (r.pullFault? h)) (cycle.or (r.exchangeFault? h))
      (flushes ++ (r.flushed? h).toList) (calls ++ (r.call? h).toList) := by
  have hnoflush (hq : r.request ≠ .flush) : r.flushed? h = none := by
    cases h with
    | completed id outcome => rfl
    | answered now cancelled a =>
      simp only [flushed?]
      split
      · rename_i hq'
        exact absurd hq' hq
      · rfl
  by_cases hl : r.IsLooping
  · have hnone := hnoflush (request_ne_flush hl)
    cases hw with
    | looping _ hsource hcycle hcalls =>
      subst hsource hcycle
      rw [hnone, Option.none_or, Option.none_or]
      rcases step_of_looping hl hasks h with ⟨hgoes, hpull, hexchange⟩ | hleft
      · refine .looping hgoes hpull hexchange fun hmem ↦ ?_
        rcases List.mem_append.1 hmem with hmem | hmem
        · exact hcalls hmem
        · exact call?_ne_flush hgoes (Option.mem_toList.1 hmem)
      · rw [call?_of_left hl hasks hleft]
        exact .flushing hleft hcalls
    | flushing hs _ => simp [IsLooping, hs] at hl
    | settling hs _ _ => simp [IsLooping, hs] at hl
    | ended hs _ _ => simp [IsLooping, hs] at hl
  · obtain ⟨hpull, hexchange⟩ := shows_nothing hl h
    rw [hpull, hexchange, Option.or_none, Option.or_none, call?_eq_none hl h, Option.toList_none,
      List.append_nil]
    cases hw with
    | looping hl' _ _ _ => exact absurd hl' hl
    | flushing hs hcalls =>
      cases h with
      | completed id outcome =>
        have hstage : (r.complete id outcome).stage = r.stage := stage_complete (by simp [hs]) id outcome
        exact .flushing (hstage.trans hs) hcalls
      | answered now cancelled a =>
        cases a with
        | flushed drained =>
          rcases drained with fault | u
          · simp only [step, answer, hs, flushed?, request]
            exact winds_finish r fault hcalls
          · simp only [step, answer, hs, flushed?, request]
            exact winds_settle r hcalls
        | _ =>
          simp only [step, answer, hs, flushed?, request]
          exact .flushing hs hcalls
    | settling hs hwaits hcalls =>
      rw [hnoflush (by simp [request, hs]), Option.toList_none, List.append_nil]
      cases h with
      | completed id outcome =>
        simp only [step, complete, hs]
        exact winds_settle _ hcalls
      | answered now cancelled a =>
        simp only [step, answer, hs]
        exact .settling hs hwaits hcalls
    | ended hs hdone hcalls =>
      rw [hnoflush (by simp [request, hs]), Option.toList_none, List.append_nil]
      exact winds_ended hs hdone hcalls h

/-- All that follows winds the replay up further. -/
theorem Winds.after {flushes : List (Except Fault Unit)} {calls : List Call} (hasks : r.IsAsking)
    (hw : r.Winds source cycle flushes calls) (hs : List Happening) :
    (r.after hs).Winds (source.or (r.sourceFault? hs)) (cycle.or (r.cycleFault? hs))
      (flushes ++ r.observe flushed? hs) (calls ++ r.observe call? hs) := by
  induction hs using List.reverseRecOn with
  | nil =>
    have hsource : r.sourceFault? [] = none := rfl
    have hcycle : r.cycleFault? [] = none := rfl
    rw [after_nil, hsource, hcycle, Option.or_none, Option.or_none, observe, observe, List.append_nil,
      List.append_nil]
    exact hw
  | append_singleton hs h ih =>
    rw [after_concat, sourceFault?_concat, cycleFault?_concat, observe_concat, observe_concat,
      ← Option.or_assoc, ← Option.or_assoc, ← List.append_assoc, ← List.append_assoc]
    exact winds_step (asking_after hasks hs) ih h

theorem winds_after (hr : r.IsLooping) (hasks : r.IsAsking) (hs : List Happening) :
    (r.after hs).Winds (r.sourceFault? hs) (r.cycleFault? hs) (r.observe flushed? hs)
      (r.observe call? hs) :=
  Winds.after hasks (.looping hr rfl rfl List.not_mem_nil) hs

/-! ### The shutdown -/

/-- A replay that has ended stays as it is as long as nothing of it is outstanding. -/
theorem after_of_ended {result : Except Fault Summary} (hr : r.stage = .ended result)
    (hs : List Happening) : (r.after hs).stage = .ended result := by
  induction hs using List.reverseRecOn with
  | nil => exact hr
  | append_singleton hs h ih =>
    rw [after_concat]
    cases h with
    | completed id outcome => exact (stage_complete (by simp [ih]) id outcome).trans ih
    | answered now cancelled a =>
      simp only [step, answer, ih]

theorem observe_call?_of_not_looping (hr : ¬ r.IsLooping) (hs : List Happening) :
    r.observe call? hs = [] := by
  induction hs generalizing r with
  | nil => rfl
  | cons h hs ih =>
    rw [observe, call?_eq_none hr h, ih ((r.move_step h).of_not_looping hr).1]
    rfl

theorem isThrottled_of_cycleFault? {hs : List Happening} {fault : Fault}
    (hf : r.cycleFault? hs = some fault) : fault.isThrottled = false := by
  obtain ⟨x, -, hx⟩ := List.exists_of_findSome?_eq_some hf
  cases x <;> simpa using (Option.filter_eq_some_iff.1 hx).2

/-- With a faulty configuration a replay ends at once with that fault, and asks neither the source nor the
destination for anything. Otherwise, whatever ends the loop, the destination is called for a flush once, and
for nothing after it. The replay has ended as soon as the flush has failed or nothing is outstanding after
it: with the fault of the source unchanged, else with the message of the fault that broke a cycle off, else
with the fault of the flush, else with the totals. Throttling breaks no cycle off. -/
theorem flushed_once_and_last (c : ReplayConfig) (t : Tracker) (i : Instruments) (hs : List Happening) :
    let r := start c t i
    let calls := r.observe call? hs
    (match c.validate with
      | .error fault =>
        (∃ cause, fault = .config cause) ∧ (r.after hs).stage = .ended (.error fault) ∧
          (r.after hs).request = .nothing ∧ r.yields hs = [] ∧ calls = []
      | .ok () =>
        ((r.after hs).IsLooping ∧ .flush ∉ calls) ∨
          ∃ earlier, calls = earlier ++ [.flush] ∧ .flush ∉ earlier ∧
            match r.observe flushed? hs with
            | [] => (r.after hs).request = .flush
            | [answer] =>
              (r.after hs).stage = .ended
                  (verdict (r.sourceFault? hs) (r.cycleFault? hs) answer (r.after hs).summary) ∨
                (answer = .ok () ∧ (r.after hs).request = .settle ∧
                  (r.after hs).dispatch.outstanding ≠ [])
            | _ => False) ∧
      ∀ fault, r.cycleFault? hs = some fault →
        fault.isThrottled = false ∧ (Fault.cycle fault).kind = .watermark ∧
          (Fault.cycle fault).detail = fault.message := by
  intro r calls
  refine ⟨?_, fun fault hf ↦ ⟨isThrottled_of_cycleFault? hf, rfl, rfl⟩⟩
  cases hv : c.validate with
  | error fault =>
    have hstage : r.stage = .ended (.error fault) := by
      show (start c t i).stage = _
      rw [start, hv]
    have hcause : ∃ cause, fault = .config cause := by
      rw [ReplayConfig.validate] at hv
      split at hv
      · exact ⟨_, (Except.error.inj hv).symm⟩
      · exact absurd hv (by simp)
    have hended := after_of_ended hstage hs
    have hnot : ¬ r.IsLooping := by simp [IsLooping, hstage]
    exact ⟨hcause, hended, by rw [request, hended], (run_of_not_looping hnot hs).2.2,
      observe_call?_of_not_looping hnot hs⟩
  | ok u =>
    have hstage : r.stage = .opening := by
      show (start c t i).stage = _
      rw [start, hv]
    have hlooping : r.IsLooping := by
      rw [IsLooping, hstage]
      trivial
    have hw : (r.after hs).Winds (r.sourceFault? hs) (r.cycleFault? hs) (r.observe flushed? hs) calls :=
      winds_after hlooping (asking_start c t i) hs
    clear_value calls
    dsimp only
    generalize r.observe flushed? hs = flushes at hw
    cases hw with
    | looping hl _ _ hcalls => exact Or.inl ⟨hl, hcalls⟩
    | @flushing earlier hs' hcalls => exact Or.inr ⟨earlier, rfl, hcalls, by rw [request, hs']⟩
    | @settling earlier hs' hwaits hcalls =>
      exact Or.inr ⟨earlier, rfl, hcalls, Or.inr ⟨rfl, by rw [request, hs'], hwaits⟩⟩
    | @ended answer earlier hs' _ hcalls => exact Or.inr ⟨earlier, rfl, hcalls, Or.inl hs'⟩

/-- A listing fails, and so does the flush after it: the replay ends with the fault of the cycle. -/
example :
    let refused : Fault := .destination .injectedListing
    let r := (start everyEvent {} {}).after
      [.answered Instant.start false (.pulled (.ok threeEvents[0]?)),
        .answered tenSeconds false (.pulled (.ok threeEvents[1]?)),
        .answered tenSeconds false (.listed (.error refused)),
        .answered tenSeconds false (.flushed (.error (.destination .dropped)))]
    (match r.stage with
      | .ended (.error fault) => fault.message
      | _ => "") = (Fault.cycle refused).message := by
  decide +kernel

end Replay

end Tidemark
