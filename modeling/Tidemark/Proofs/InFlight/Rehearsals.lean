import Tidemark.Proofs.InFlight.Tracked
import Tidemark.Proofs.Rehearsal.Waiting

/-!
# Rehearsals as runs

While a rehearsed dispatcher waits, what ends on the stage piles up, and the books take notice of it all
when the wait is over. A run of `Flow` takes notice of every ending at once. Both come to the same books,
since no task looks at what has piled up (`perform_withUnseen`):

```
a task, then all endings   =   the endings so far, then the task and its own one       (absorb_perform)
a wait                     =   some acts                                               (Leads.kept)
a step of a rehearsal      =   some acts                                               (Stands.step)
```

So every rehearsal is a run, and what holds of every run holds of it (`rehearsal_run`). A drain is a run as well:
when it returns without a fault, the completions of all sends have ended (`finished_of_drain`).
-/

namespace Tidemark.Rehearsal

/-- The event that a step sends. -/
def DispatchingStep.event? : DispatchingStep → Option Event
  | .send event => some event
  | _ => none

/-! ### What has piled up on a stage -/

namespace Stage

/-- The stage with older endings that the lead has not seen yet. -/
def withUnseen (s : Stage) (older : List Ending) : Stage :=
  { s with state := { s.state with endings := s.state.endings ++ older } }

@[simp] theorem withUnseen_handles (s : Stage) (older : List Ending) :
    (s.withUnseen older).state.handles = s.state.handles :=
  rfl

@[simp] theorem withUnseen_completions (s : Stage) (older : List Ending) :
    (s.withUnseen older).state.completions = s.state.completions :=
  rfl

@[simp] theorem withUnseen_stream (s : Stage) (older : List Ending) :
    (s.withUnseen older).state.stream = s.state.stream :=
  rfl

/-- A handle resolves the same whatever has not been seen yet. -/
theorem resolve_withUnseen (s : Stage) (older : List Ending) (handle : Nat) (outcome : Outcome) :
    (s.withUnseen older).resolve handle outcome = (s.resolve handle outcome).withUnseen older := by
  simp only [resolve, withUnseen_handles]
  split
  · rfl
  · split
    · rfl
    · simp only [withUnseen_completions]
      split <;> rfl

theorem resolveAll_withUnseen (s : Stage) (older : List Ending) (outcomes : List (Nat × Outcome)) :
    (s.withUnseen older).resolveAll outcomes = (s.resolveAll outcomes).withUnseen older := by
  induction outcomes generalizing s with
  | nil => rfl
  | cons o rest ih =>
    show resolveAll ((s.withUnseen older).resolve o.1 o.2) rest = _
    rw [resolve_withUnseen, ih]
    rfl

/-- A step on the stream does the same whatever has not been seen yet. -/
theorem stream_withUnseen (s : Stage) (older : List Ending) (step : StreamStep) :
    ((s.withUnseen older).stream step).2 = (s.stream step).2.withUnseen older := by
  cases step with
  | release index success =>
    simp only [stream, withUnseen_stream]
    split
    · rfl
    · rename_i handle outcome m _
      exact (s.onStream fun _ ↦ m).resolve_withUnseen older handle outcome
  | releaseAll =>
    let released := s.state.stream.releaseAll
    exact (s.onStream fun _ ↦ released.2).resolveAll_withUnseen older released.1
  | _ => rfl

/-- An acknowledgement arrives the same whatever has not been seen yet. -/
theorem acknowledge_withUnseen (s : Stage) (older : List Ending) (handle : Nat) (ack : Ack) :
    (s.withUnseen older).acknowledge handle ack = (s.acknowledge handle ack).withUnseen older := by
  rw [acknowledge, resolve_withUnseen]
  rfl

/-- A completion runs the same whatever has not been seen yet. -/
theorem runCompletion_withUnseen (s : Stage) (older : List Ending) (id : Nat) :
    (s.withUnseen older).runCompletion id = (s.runCompletion id).withUnseen older := by
  simp only [runCompletion, withUnseen_completions]
  split
  · rfl
  · rfl
  · simp only [withUnseen_handles]
    split
    · rfl
    · split <;> rfl
  · rfl

/-- A task does the same whatever has not been seen yet. -/
theorem perform_withUnseen (s : Stage) (older : List Ending) (task : StageTask) :
    (s.withUnseen older).perform task = (s.perform task).withUnseen older := by
  cases task with
  | complete id => exact s.runCompletion_withUnseen older id
  | acknowledge handle ack => exact s.acknowledge_withUnseen older handle ack
  | delay handle ack d =>
    rw [perform, perform]
    by_cases hdue : s.agenda.wakeTime d ≤ s.now
    · have hdue' : (s.withUnseen older).agenda.wakeTime d ≤ World.now (s.withUnseen older) := hdue
      rw [if_pos hdue, if_pos hdue']
      exact s.acknowledge_withUnseen older handle ack
    · have hdue' : ¬ (s.withUnseen older).agenda.wakeTime d ≤ World.now (s.withUnseen older) := hdue
      rw [if_neg hdue, if_neg hdue']
      rfl
  | cue due c =>
    unfold perform
    by_cases hdue : due ≤ s.now
    · have hdue' : due ≤ World.now (s.withUnseen older) := hdue
      dsimp only
      rw [if_pos hdue, if_pos hdue']
      cases c with
      | cancel => rfl
      | stream step => exact s.stream_withUnseen older step
    · have hdue' : ¬ due ≤ World.now (s.withUnseen older) := hdue
      dsimp only
      rw [if_neg hdue, if_neg hdue']
      rfl

end Stage

/-! ### Taking notice -/

namespace Dispatching

/-- The dispatcher on another stage, with other completions at hand. -/
def placed (d : Dispatching) (stage : Stage) (joined : List Nat) : Dispatching :=
  { d with stage, joined }

/-- Takes notice of endings, the newest first. -/
def told (d : Dispatching) (endings : List Ending) : Dispatching :=
  endings.reverse.foldl absorbOne d

theorem told_append (d : Dispatching) (newer older : List Ending) :
    d.told (newer ++ older) = (d.told older).told newer := by
  rw [told, List.reverse_append, List.foldl_append]
  rfl

/-- The books do not depend on the stage and on what is at hand. -/
theorem told_placed (d : Dispatching) (endings : List Ending) (stage : Stage) (joined : List Nat) :
    (d.placed stage joined).told endings = (d.told endings).placed stage joined := by
  induction endings with
  | nil => rfl
  | cons e older ih =>
    have hone : ∀ d : Dispatching, d.told [e] = d.absorbOne e := fun _ ↦ rfl
    rw [← List.singleton_append, told_append, told_append, ih, hone, hone]
    cases e <;> rfl

theorem absorb_eq (d : Dispatching) (s : Stage) :
    d.absorb s = (d.told s.state.endings).placed s.seen d.joined :=
  d.told_placed s.state.endings s.seen d.joined

/-- Taking notice of the endings of a task at once, or together with those before. -/
theorem absorb_perform (d : Dispatching) (s : Stage) (joined : List Nat) (task : StageTask) :
    ((d.told s.state.endings).placed s.seen joined).absorb (s.seen.perform task) =
      (d.told (s.perform task).state.endings).placed (s.perform task).seen joined := by
  have hperform : s.perform task = (s.seen.perform task).withUnseen s.state.endings :=
    s.seen.perform_withUnseen s.state.endings task
  rw [absorb_eq, told_placed, ← told_append, hperform]
  rfl

/-- A drain returns with the fault of the flush, or when no completion is counted any more. -/
theorem drain_finished {d : Dispatching} {result : Except Fault Unit} (h : d.drain.1 = .finished result) :
    (∃ fault, (d.stage.flush d.stage.deadline).1 = some (.error fault) ∧ result = .error fault) ∨
      result = .ok () ∧ d.drain.2.stage.state.outstanding = 0 := by
  rw [drain] at h ⊢
  generalize d.stage.flush d.stage.deadline = x at h ⊢
  obtain ⟨answer, s⟩ := x
  match answer with
  | none => exact nomatch h
  | some (.error fault) => exact Or.inl ⟨fault, rfl, (Reply.finished.inj h).symm⟩
  | some (.ok ()) =>
    refine Or.inr ?_
    dsimp only at h ⊢
    by_cases hsettled : (s.settle d.stage.deadline).1 = true
    · rw [if_pos hsettled] at h
      refine ⟨(Reply.finished.inj h).symm, ?_⟩
      rw [absorb_eq]
      exact of_decide_eq_true (World.holds_of_waitFor hsettled)
    · rw [if_neg hsettled] at h
      exact nomatch h

end Dispatching

namespace Flow

theorem run_append (f : Flow) (acts more : List Act) : f.run (acts ++ more) = (f.run acts).run more :=
  List.foldl_append

/-! ### Waits -/

/-- Some acts lead to where a dispatcher stands when it takes notice of a stage; nothing is sent on the
way. -/
def Leads (f : Flow) (d : Dispatching) (s : Stage) : Prop :=
  ∃ acts, (f.run acts).books = (d.told s.state.endings).placed s.seen [] ∧
    (f.run acts).entering = none ∧ (f.run acts).sent = f.sent

namespace Leads

variable {f : Flow} {d : Dispatching} {s : Stage}

/-- One act more. -/
theorem act (h : f.Leads d s) {s' : Stage} (a : Act)
    (ha : ∀ g : Flow, g.books = (d.told s.state.endings).placed s.seen [] → g.entering = none →
      (g.act a).books = (d.told s'.state.endings).placed s'.seen [] ∧
        (g.act a).entering = none ∧ (g.act a).sent = g.sent) :
    f.Leads d s' := by
  obtain ⟨acts, hbooks, hentering, hsent⟩ := h
  obtain ⟨hbooks', hentering', hsent'⟩ := ha (f.run acts) hbooks hentering
  refine ⟨acts ++ [a], ?_⟩
  rw [run_append]
  exact ⟨hbooks', hentering', hsent'.trans hsent⟩

/-- What the completions do not depend on changes. -/
theorem around (h : f.Leads d s) {s' : Stage} (he : s.seen.around s'.seen = s'.seen)
    (hunseen : s'.state.endings = s.state.endings) : f.Leads d s' := by
  refine h.act (.around s'.seen) fun g hbooks hentering ↦ ⟨?_, hentering, rfl⟩
  rw [hunseen, ← he]
  simp only [Flow.act, onStage, hbooks]
  rfl

theorem perform (h : f.Leads d s) (task : StageTask) : f.Leads d (s.perform task) := by
  refine h.act (.perform task) fun g hbooks hentering ↦ ⟨?_, hentering, rfl⟩
  rw [← d.absorb_perform s [] task, ← hbooks]
  simp only [Flow.act, hbooks]
  rfl

/-- To call for a flush leads on, for no completion looks at the calls. -/
theorem flush (h : f.Leads d s) : f.Leads d (s.record .flush) := by
  refine h.act .flush fun g hbooks hentering ↦ ⟨?_, hentering, rfl⟩
  simp only [Flow.act, onStage, hbooks]
  rfl

/-- Waits and flushes are some acts. -/
theorem kept (f : Flow) (d : Dispatching) : Stage.Kept (f.Leads d) where
  perform task h := h.perform task
  agenda _ h := h.around rfl rfl
  script _ h := h.around rfl rfl
  flush h := h.flush

end Leads

/-! ### Steps -/

/-- Between two steps of a rehearsal the dispatcher stands where a run has led. -/
structure Stands (f : Flow) (d : Dispatching) : Prop where
  books : f.books = d.placed d.stage []
  entering : f.entering = none
  seen : d.stage.state.endings = []

/-- Some acts lead to a dispatcher, and the events are sent on the way. -/
def Arrives (f : Flow) (d : Dispatching) (sent : List Event) : Prop :=
  ∃ acts, (f.run acts).Stands d ∧ (f.run acts).sent = f.sent ++ sent

theorem Arrives.trans {f : Flow} {d d' : Dispatching} {sent more : List Event}
    (h : f.Arrives d sent) (h' : ∀ g : Flow, g.Stands d → g.Arrives d' more) :
    f.Arrives d' (sent ++ more) := by
  obtain ⟨acts, hd, hsent⟩ := h
  obtain ⟨acts', hd', hsent'⟩ := h' _ hd
  refine ⟨acts ++ acts', ?_⟩
  rw [run_append]
  refine ⟨hd', ?_⟩
  rw [hsent', hsent, List.append_assoc]

/-- A run does not tell what is at hand. -/
theorem Arrives.joined {f : Flow} {d : Dispatching} {sent : List Event} (h : f.Arrives d sent)
    (joined : List Nat) : f.Arrives { d with joined } sent := by
  obtain ⟨acts, hstands, hsent⟩ := h
  exact ⟨acts, ⟨hstands.books, hstands.entering, hstands.seen⟩, hsent⟩

/-- When a wait is over the books take notice of what has ended. -/
theorem Leads.arrives {f : Flow} {d : Dispatching} {s : Stage} (h : f.Leads d s) :
    f.Arrives (d.absorb s) [] := by
  obtain ⟨acts, hbooks, hentering, hsent⟩ := h
  refine ⟨acts, ⟨?_, hentering, ?_⟩, ?_⟩
  · rw [hbooks, Dispatching.absorb_eq]
    rfl
  · -- nothing is left unseen
    rw [Dispatching.absorb_eq]
    rfl
  · rw [hsent, List.append_nil]

namespace Stands

variable {f : Flow} {d : Dispatching}

theorem refl (h : f.Stands d) : f.Arrives d [] :=
  ⟨[], h, (List.append_nil _).symm⟩

/-- Where a dispatcher stands it has seen everything. -/
theorem leads (h : f.Stands d) : f.Leads d d.stage := by
  have hseen : d.stage.seen = d.stage := by
    rw [Stage.seen, Stage.takeEndings, ← h.seen]
  refine ⟨[], ?_, h.entering, rfl⟩
  rw [h.seen, hseen]
  exact h.books

/-- An act that changes nothing but the stage. -/
theorem onStage (h : f.Stands d) {a : Act} {stage : Stage}
    (ha : f.act a = f.onStage stage) (hseen : stage.state.endings = []) :
    f.Arrives { d with stage } [] := by
  refine ⟨[a], ⟨?_, ?_, hseen⟩, ?_⟩
  · show (f.act a).books = _
    rw [ha, Flow.onStage, h.books]
    rfl
  · show (f.act a).entering = _
    rw [ha]
    exact h.entering
  · show (f.act a).sent = _
    rw [ha, List.append_nil]
    rfl

theorem resolve (h : f.Stands d) (handle : Nat) (outcome : Outcome) :
    f.Arrives { d with stage := d.stage.resolve handle outcome } [] := by
  refine h.onStage (a := .resolve handle outcome) ?_ ?_
  · rw [Flow.act, h.books]
    rfl
  · exact (d.stage.quiet_resolve handle outcome).endings.trans h.seen

theorem abort (h : f.Stands d) (id : Nat) : f.Arrives { d with stage := d.stage.abort id } [] := by
  refine h.onStage (a := .abort id) ?_ ?_
  · rw [Flow.act, h.books]
    rfl
  · exact (d.stage.quiet_abort id).endings.trans h.seen

theorem onStream (h : f.Stands d) (change : InMemory → InMemory) :
    f.Arrives { d with stage := d.stage.onStream change } [] := by
  refine h.onStage (a := .around (d.stage.onStream change)) ?_ h.seen
  rw [Flow.act, h.books]
  rfl

/-- Handles that resolve together are as many acts. -/
theorem resolveAll (h : f.Stands d) (outcomes : List (Nat × Outcome)) :
    f.Arrives { d with stage := d.stage.resolveAll outcomes } [] := by
  induction outcomes generalizing f d with
  | nil => exact h.refl
  | cons o rest ih => exact (h.resolve o.1 o.2).trans fun g hg ↦ ih hg

/-- A step on the stream is a few acts. -/
theorem stream (h : f.Stands d) (step : StreamStep) :
    f.Arrives { d with stage := (d.stage.stream step).2 } [] := by
  cases step with
  | release index success =>
    rw [Stage.stream]
    split
    · exact h.refl
    · rename_i handle outcome m _
      exact (h.onStream fun _ ↦ m).trans fun g hg ↦ hg.resolve handle outcome
  | releaseAll =>
    let released := d.stage.state.stream.releaseAll
    exact (h.onStream fun _ ↦ released.2).trans fun g hg ↦ hg.resolveAll released.1
  | reshard n => exact h.onStream (·.reshard n)
  | inject changes =>
    rw [Stage.stream]
    dsimp only
    exact h.onStream _
  | _ => exact h.refl

/-- A send is two acts. -/
theorem send (h : f.Stands d) (e : Event) : f.Arrives ((d.register e).submit e) [e] := by
  let f₁ := f.step (.register e)
  have hregister := act_register h.entering e
  have hbooks : f₁.books = f.books.register e := congrArg Flow.books hregister
  have hsent : f₁.sent = f.sent ++ [e] := congrArg Flow.sent hregister
  have hsubmit := act_submit (f := f₁) (congrArg Flow.entering hregister)
  refine ⟨[.register e, .submit], ⟨?_, ?_, ?_⟩, ?_⟩
  · show (f₁.act .submit).books = _
    rw [hsubmit, hbooks, h.books]
    rfl
  · show (f₁.act .submit).entering = none
    rw [hsubmit]
  · exact (d.stage.dispatch_begins (Record.ofEvent e)).endings.trans h.seen
  · show (f₁.act .submit).sent = f.sent ++ [e]
    rw [hsubmit, hsent]

theorem await (h : f.Stands d) (index : Nat) : f.Arrives (d.await index).2 [] := by
  rw [Dispatching.await]
  split
  · have hwait := (Leads.kept f d).lasting.waitFor (fun s ↦ (endedOf s index).isSome) d.stage.deadline h.leads
    dsimp only
    split
    · exact hwait.arrives
    · exact hwait.arrives.joined _
  · exact h.refl

theorem drain (h : f.Stands d) : f.Arrives d.drain.2 [] := by
  have hflush := (Leads.kept f d).lasting.flushed d.stage.deadline h.leads
  rw [Dispatching.drain]
  generalize d.stage.flush d.stage.deadline = x at hflush ⊢
  obtain ⟨answer, s⟩ := x
  match answer with
  | none => exact hflush.arrives
  | some (.error _) => exact hflush.arrives
  | some (.ok ()) =>
    have hsettle := (Leads.kept f d).lasting.waitFor (fun t ↦ t.outstanding = 0) d.stage.deadline hflush
    exact Leads.arrives hsettle

/-- A step of a rehearsal is a few acts. -/
theorem step (h : f.Stands d) (step : DispatchingStep) :
    f.Arrives (d.step step).2 step.event?.toList := by
  cases step with
  | send e => exact h.send e
  | await index => exact h.await index
  | abort index =>
    rw [Dispatching.step]
    split
    · exact h.abort index
    · exact h.refl
  | settle ms => exact ((Leads.kept f d).lasting.toLasting.sleep (Span.ofMillis ms) h.leads).arrives
  | drain => exact h.drain
  | stream step => exact h.stream step

/-- A rehearsal is a run. -/
theorem rehearsal (h : f.Stands d) (steps : List DispatchingStep) :
    f.Arrives (rehearseDispatch d steps).2 (steps.filterMap DispatchingStep.event?) := by
  induction steps generalizing f d with
  | nil => exact h.refl
  | cons step rest ih =>
    have hrest := (h.step step).trans fun g hg ↦ ih hg
    rw [List.filterMap_cons]
    cases he : step.event? <;> rw [he] at hrest <;> exact hrest

end Stands

theorem stands_start (stream : InMemory) (script : Script) (i : Instruments) :
    (start stream script i).Stands
      { stage := Stage.ofStream stream script, instruments := i } where
  books := rfl
  entering := rfl
  seen := rfl

/-! ### Drains -/

/-- What is at hand does not change with an act. -/
theorem joined_act (f : Flow) (a : Act) : (f.act a).books.joined = f.books.joined := by
  cases a with
  | register e =>
    simp only [act]
    split <;> rfl
  | submit =>
    simp only [act]
    split <;> rfl
  | perform task =>
    simp only [act, Dispatching.absorb_eq]
    rfl
  | _ => rfl

theorem joined_run (f : Flow) (acts : List Act) : (f.run acts).books.joined = f.books.joined := by
  induction acts using List.reverseRecOn with
  | nil => rfl
  | append_singleton acts a ih =>
    rw [run_concat]
    exact (joined_act _ a).trans ih

/-- A run stands at its own books, unless a send is under way. -/
theorem stands_run (stream : InMemory) (script : Script) (i : Instruments) {acts : List Act}
    (hentering : ((start stream script i).run acts).entering = none) :
    ((start stream script i).run acts).Stands ((start stream script i).run acts).books where
  books := by
    have hjoined := (start stream script i).joined_run acts
    rw [Dispatching.placed, ← show _ = [] from hjoined]
  entering := hentering
  seen := (booked_run stream script i acts).seen

/-- The completion of every send has ended, no send is outstanding, and nothing is tracked. -/
structure Finished (f : Flow) (d : Dispatching) : Prop where
  ended : ∀ id < f.sent.length, (endedOf d.stage.state id).isSome
  outstanding : d.dispatch.outstanding = []
  tracker : d.tracker = {}

/-- When no completion is counted as outstanding, all have ended. -/
theorem Booked.finished {f : Flow} (h : f.Booked) (hentering : f.entering = none)
    (hnone : f.books.stage.state.outstanding = 0) : f.Finished f.books := by
  have hsize : f.books.stage.state.completions.size = f.sent.length := by
    have hsize := h.size
    rw [hentering] at hsize
    exact hsize
  have hended : ∀ id < f.sent.length, (f.ended id).isSome := fun id hid ↦
    h.counted.isSome_of_zero hnone (hid.trans_eq hsize.symm)
  have hout : f.books.dispatch.outstanding = [] := by
    rw [List.eq_nil_iff_forall_not_mem]
    intro s hs
    obtain ⟨hsent, hopen⟩ := (h.outstanding s.id s.event).1 hs
    have hsome := hended s.id (List.getElem?_eq_some_iff.1 hsent).1
    rw [hopen] at hsome
    exact nomatch hsome
  exact ⟨hended, hout, h.covered.eq_empty hout⟩

/-- A drain that returns has failed with the fault of the flush, or the completions of all sends have ended. -/
theorem finished_of_drain (stream : InMemory) (script : Script) (i : Instruments) {acts : List Act}
    (hentering : ((start stream script i).run acts).entering = none) :
    let f := (start stream script i).run acts
    ∀ result, f.books.drain.1 = .finished result →
      (∃ fault, (f.books.stage.flush f.books.stage.deadline).1 = some (.error fault) ∧
        result = .error fault) ∨
      result = .ok () ∧ f.Finished f.books.drain.2 := by
  intro f result hresult
  refine (Dispatching.drain_finished hresult).imp_right fun ⟨hok, hnone⟩ ↦ ⟨hok, ?_⟩
  obtain ⟨acts', hstands, hsent⟩ := (stands_run stream script i hentering).drain
  -- the drain is a run as well, so the books are in order at its end
  have hbooked := booked_run stream script i (acts ++ acts')
  rw [run_append] at hbooked
  have hstage : (f.run acts').books.stage = f.books.drain.2.stage := by
    rw [hstands.books]
    rfl
  have hfinished := hbooked.finished hstands.entering (hstage ▸ hnone)
  rw [hstands.books] at hfinished
  refine ⟨fun id hid ↦ hfinished.ended id ?_, hfinished.outstanding, hfinished.tracker⟩
  rw [hsent, List.append_nil]
  exact hid

/-! ### Whole rehearsals -/

/-- Whatever is rehearsed with a dispatcher, it is left where a run leaves it that sends the same events.
So the tracker holds exactly what is in flight, if no two of the events share a key. -/
theorem rehearsal_run (stream : InMemory) (script : Script) (i : Instruments)
    (steps : List DispatchingStep) :
    ∃ acts, let f := (start stream script i).run acts
      let d := (rehearseDispatch { stage := Stage.ofStream stream script, instruments := i } steps).2
      f.books = d.placed d.stage [] ∧ f.sent = steps.filterMap DispatchingStep.event? ∧
        ((f.sent.map Event.key).Nodup → f.Exact) := by
  obtain ⟨acts, hstands, hsent⟩ := (stands_start stream script i).rehearsal steps
  exact ⟨acts, hstands.books, hsent, fun hkeys ↦ ((sound_start stream script i).run hkeys).exact⟩

end Flow

end Tidemark.Rehearsal
