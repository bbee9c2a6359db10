import Tidemark.Proofs.Destination.Settling
import Tidemark.Proofs.InFlight.Endings
import Tidemark.Proofs.Rehearsal.Waiting
import Tidemark.Rehearsal.Streaming

/-!
# Streams that are rehearsed

A stage whose script says nothing shows a traffic (`Shows`): its stream is the traffic's, what its handles have
resolved to are the traffic's answers, and the acknowledgements under way are among its tasks. Whatever happens
on it, it then shows what some acts lead to (`GoesOn`):

```
a delayed acknowledgement arrives       arrive
a step on the stream, as cue or not     reshard, inject, release, releaseAll
submit, put, list                       the act of this name
flush                                   flush, look, look; or abandon, at the limit
```

A flush of the stage waits twice. Tasks run meanwhile, and they may clear a flush, but else leave it where it
stands; so what it stands at is lasting (`stands_lasting`). When the first wait comes to its end, no
acknowledgement is under way, and when the second does, none is held: it is answered as the flush of a traffic
is (`Stands.finish`).
-/

namespace Tidemark.Rehearsal

open InMemory (Traffic Caller Flush)
open InMemory.Traffic (mem_pending_of_held mem_pending_of_delayed)

/-- The acknowledgement that a task brings. -/
def StageTask.ack? : StageTask → Option (Nat × Ack)
  | .delay handle ack _ => some (handle, ack)
  | .acknowledge handle ack => some (handle, ack)
  | _ => none

namespace Stage

/-- What a handle has resolved to. -/
def outcome? (s : Stage) (handle : Nat) : Option Outcome :=
  s.state.handles[handle]?.bind (·.outcome)

/-- The acknowledgements that are under way. -/
def due (s : Stage) : List (Nat × Ack) :=
  s.agenda.tasks.filterMap StageTask.ack?

/-! ### Handles -/

/-- The stages show the same of their stream and its handles, but that the handles have these outcomes. -/
structure Shifts (s s' : Stage) (outcome? : Nat → Option Outcome) : Prop where
  stream : s'.state.stream = s.state.stream
  script : s'.state.script = s.state.script
  delayed : s'.state.delayed = s.state.delayed
  size : s'.state.handles.size = s.state.handles.size
  outcome : ∀ handle, s'.outcome? handle = outcome? handle
  due : s'.due.Perm s.due

/-- No handle has a new outcome. -/
abbrev Alike (s s' : Stage) : Prop :=
  s.Shifts s' s.outcome?

/-- One handle has a new outcome. -/
abbrev Settles (s s' : Stage) (handle : Nat) (outcome : Outcome) : Prop :=
  s.Shifts s' fun i ↦ if i = handle then some outcome else s.outcome? i

theorem due_wake_complete (s : Stage) (id : Nat) :
    (due { s with agenda := s.agenda.wake (.complete id) }).Perm s.due :=
  (s.agenda.tasks_wake (.complete id)).filterMap StageTask.ack?

/-- A handle that is changed keeps its place. -/
theorem outcome?_set {s s' : Stage} {handle : Nat} {h : Handle} (hlt : handle < s.state.handles.size)
    (hhandles : s'.state.handles = s.state.handles.setIfInBounds handle h) (i : Nat) :
    s'.outcome? i = if i = handle then h.outcome else s.outcome? i := by
  rw [outcome?, hhandles, Array.getElem?_setIfInBounds]
  by_cases hi : i = handle
  · subst hi
    rw [if_pos rfl, if_pos rfl, if_pos hlt]
    rfl
  · rw [if_neg (Ne.symm hi), if_neg hi]
    rfl

/-- It is the same for all to see if its outcome is. -/
theorem outcome?_set_same {s s' : Stage} {handle : Nat} {h : Handle} (hlt : handle < s.state.handles.size)
    (hhandles : s'.state.handles = s.state.handles.setIfInBounds handle h) (hsame : h.outcome = s.outcome? handle)
    (i : Nat) : s'.outcome? i = s.outcome? i := by
  rw [outcome?_set hlt hhandles, hsame, ite_eq_right_iff]
  rintro rfl
  rfl

/-- A handle settles when its outcome is set and nothing else is. -/
theorem settles_of_set {s s' : Stage} {handle : Nat} {h : Handle} {outcome : Outcome}
    (hlt : handle < s.state.handles.size) (houtcome : h.outcome = some outcome)
    (hhandles : s'.state.handles = s.state.handles.setIfInBounds handle h)
    (hstream : s'.state.stream = s.state.stream) (hscript : s'.state.script = s.state.script)
    (hdelayed : s'.state.delayed = s.state.delayed) (hdue : s'.due.Perm s.due) :
    s.Settles s' handle outcome where
  stream := hstream
  script := hscript
  delayed := hdelayed
  size := by rw [hhandles, Array.size_setIfInBounds]
  outcome i := houtcome ▸ outcome?_set hlt hhandles i
  due := hdue

theorem settles_resolve {s : Stage} {handle : Nat} (hlt : handle < s.state.handles.size) (outcome : Outcome) :
    s.Settles (s.resolve handle outcome) handle outcome := by
  rw [resolve, Array.getElem?_eq_getElem hlt]
  dsimp only
  split
  · exact settles_of_set hlt rfl rfl rfl rfl rfl (.refl _)
  · split
    · exact settles_of_set hlt rfl rfl rfl rfl rfl (due_wake_complete s _)
    · exact settles_of_set hlt rfl rfl rfl rfl rfl (.refl _)

/-- To run a completion gives no handle an outcome. -/
theorem alike_runCompletion (s : Stage) (id : Nat) : s.Alike (s.runCompletion id) := by
  rw [runCompletion]
  split
  · exact ⟨rfl, rfl, rfl, rfl, fun _ ↦ rfl, .refl _⟩
  · exact ⟨rfl, rfl, rfl, rfl, fun _ ↦ rfl, .refl _⟩
  · split
    · exact ⟨rfl, rfl, rfl, rfl, fun _ ↦ rfl, .refl _⟩
    · rename_i handle _ _ h hget
      split
      · exact ⟨rfl, rfl, rfl, rfl, fun _ ↦ rfl, .refl _⟩
      · obtain ⟨hlt, -⟩ := Array.getElem?_eq_some_iff.1 hget
        have hsame : h.outcome = s.outcome? handle := by
          rw [outcome?, hget]
          rfl
        exact ⟨rfl, rfl, rfl, Array.size_setIfInBounds .., outcome?_set_same hlt rfl hsame, .refl _⟩
  · exact ⟨rfl, rfl, rfl, rfl, fun _ ↦ rfl, .refl _⟩

/-- The outcome of a handle is taken. -/
theorem alike_taken {s : Stage} {index : Nat} {outcome : Outcome} (houtcome : s.outcome? index = some outcome) :
    s.Alike { s with state := { s.state with
      handles := s.state.handles.setIfInBounds index { outcome := some outcome, taken := true } } } := by
  obtain ⟨h, hget, -⟩ := Option.bind_eq_some_iff.1 houtcome
  obtain ⟨hlt, -⟩ := Array.getElem?_eq_some_iff.1 hget
  exact ⟨rfl, rfl, rfl, Array.size_setIfInBounds .., outcome?_set_same hlt rfl houtcome.symm, .refl _⟩

/-! ### What a stage shows -/

/-- The stage is at this traffic. -/
structure Shows (s : Stage) (t : Traffic) : Prop where
  stream : s.state.stream = t.stream
  script : s.state.script = {}
  submitted : s.state.handles.size = t.submitted
  resolves : ∀ handle o, s.outcome? handle = some o ↔ (Caller.submission handle, o) ∈ t.answers
  delayed : s.state.delayed = t.delayed.length
  due : s.due.Perm t.delayed

variable {s s' : Stage} {t : Traffic}

/-- Stages that are alike are at the same traffic. -/
theorem Shows.alike (h : s.Shows t) (hs : s.Alike s') : s'.Shows t where
  stream := hs.stream.trans h.stream
  script := hs.script.trans h.script
  submitted := hs.size.trans h.submitted
  resolves handle o := hs.outcome handle ▸ h.resolves handle o
  delayed := hs.delayed.trans h.delayed
  due := hs.due.trans h.due

/-- A handle that has not resolved has no outcome on the stage. -/
theorem Shows.outcome?_eq_none {handle : Nat} (h : s.Shows t) (hnew : ¬ t.HasResolved handle) :
    s.outcome? handle = none := by
  refine Option.eq_none_iff_forall_ne_some.2 fun o ho ↦ hnew ?_
  exact List.mem_map_of_mem (f := Prod.fst) ((h.resolves handle o).1 ho)

/-- An outcome is new, and so is an answer. -/
theorem Shows.resolves_answer {handle : Nat} {outcome : Outcome} (h : s.Shows t) (hnone : s.outcome? handle = none)
    (houtcome : ∀ i, s'.outcome? i = if i = handle then some outcome else s.outcome? i) (i : Nat) (o : Outcome) :
    s'.outcome? i = some o ↔ (Caller.submission i, o) ∈ t.answers ++ [(.submission handle, outcome)] := by
  rw [houtcome, List.mem_append, List.mem_singleton, ← h.resolves i o]
  by_cases hi : i = handle
  · subst hi
    simp [hnone, eq_comm]
  · simp [hi]

/-- A handle that has not resolved resolves. -/
theorem Shows.settles {handle : Nat} {outcome : Outcome} (h : s.Shows t) (hs : s.Settles s' handle outcome)
    (hnew : ¬ t.HasResolved handle) : s'.Shows (t.answer (.submission handle) outcome) where
  stream := hs.stream.trans h.stream
  script := hs.script.trans h.script
  submitted := hs.size.trans h.submitted
  resolves := h.resolves_answer (h.outcome?_eq_none hnew) hs.outcome
  delayed := hs.delayed.trans h.delayed
  due := hs.due.trans h.due

/-- A handle that resolves on the stage resolves in the traffic. -/
theorem Shows.resolve {handle : Nat} (h : s.Shows t) (hlt : handle < t.submitted)
    (hnew : ¬ t.HasResolved handle) (outcome : Outcome) :
    (s.resolve handle outcome).Shows (t.answer (.submission handle) outcome) :=
  h.settles (settles_resolve (h.submitted ▸ hlt) outcome) hnew

theorem Shows.resolveAll {outcomes : List (Nat × Outcome)} (h : s.Shows t)
    (hlt : ∀ x ∈ outcomes, x.1 < t.submitted) (hnew : ∀ x ∈ outcomes, ¬ t.HasResolved x.1)
    (honce : (outcomes.map Prod.fst).Nodup) :
    (s.resolveAll outcomes).Shows
      { t with answers := t.answers ++ outcomes.map fun x ↦ (Caller.submission x.1, x.2) } := by
  induction outcomes generalizing s t with
  | nil =>
    rw [List.map_nil, List.append_nil]
    exact h
  | cons x rest ih =>
    obtain ⟨hfirst, hothers⟩ := List.nodup_cons.1 honce
    have hresolved := h.resolve (hlt x List.mem_cons_self) (hnew x List.mem_cons_self) x.2
    have hrest := ih hresolved (fun y hy ↦ hlt y (List.mem_cons_of_mem _ hy)) (fun y hy ↦ ?_) hothers
    · rw [Traffic.answer, List.append_assoc] at hrest
      exact hrest
    · -- the handles are different from the first one
      intro hold
      rw [Traffic.HasResolved, Traffic.answer, List.map_append, List.mem_append] at hold
      rcases hold with hold | hlast
      · exact hnew y (List.mem_cons_of_mem _ hy) hold
      · have hsame : y.1 = x.1 := Caller.submission.inj (List.mem_singleton.1 hlast)
        exact hfirst (hsame ▸ List.mem_map_of_mem hy)

/-! ### Steps on the stream -/

/-- The stream is different, and so is the traffic. -/
theorem Shows.onStream (h : s.Shows t) (m : InMemory) : (s.onStream fun _ ↦ m).Shows { t with stream := m } :=
  ⟨rfl, h.script, h.submitted, h.resolves, h.delayed, h.due⟩

/-- An acknowledgement that is released resolves its handle. -/
theorem Shows.release (h : s.Shows t) (ha : t.Accounted) (index : Nat) (success : Bool) :
    (s.stream (.release index success)).2.Shows (t.act (.release index success)) := by
  rw [Stage.stream, Traffic.act, h.stream]
  rcases t.stream.release_cases index success with ⟨-, hrelease⟩ | ⟨x, hget, hrelease⟩
  · rw [hrelease]
    exact h
  · rw [hrelease]
    have hx : x ∈ t.stream.held := List.mem_of_getElem? hget
    refine (h.onStream { t.stream with held := t.stream.held.eraseIdx index }).resolve ?_ ?_ _
    · exact ha.lt_of_pending (mem_pending_of_held hx)
    · exact ha.not_resolved_of_pending (mem_pending_of_held hx)

/-- To release all resolves every handle that is held. -/
theorem Shows.releaseAll (h : s.Shows t) (ha : t.Accounted) (ho : t.Orderly) :
    (s.stream .releaseAll).2.Shows (t.act .releaseAll) := by
  rw [Stage.stream, Traffic.act, h.stream]
  refine (h.onStream _).resolveAll (fun y hy ↦ ?_) (fun y hy ↦ ?_) ?_
  · obtain ⟨x, hx, rfl⟩ := List.mem_map.1 hy
    exact ha.lt_of_pending (mem_pending_of_held hx)
  · obtain ⟨x, hx, rfl⟩ := List.mem_map.1 hy
    exact ha.not_resolved_of_pending (mem_pending_of_held hx)
  · rw [InMemory.releaseAll, List.map_map]
    exact List.pairwise_map.2 (ho.ascending.imp fun hlt ↦ Nat.ne_of_lt hlt)

/-- To have calls fail only changes the stream. -/
theorem run_inject (t : Traffic) (changes : List (Injection × Nat)) :
    t.run (changes.map fun x ↦ .inject x.1 x.2) =
      { t with stream := changes.foldl (fun m x ↦ m.inject x.1 x.2) t.stream } := by
  induction changes generalizing t with
  | nil => rfl
  | cons x rest ih => exact ih _

/-- The stage goes on to what some acts lead to. They may have acknowledgements arrive, but else leave a flush
where it stands. -/
def GoesOn (t : Traffic) (s : Stage) : Prop :=
  ∃ acts last, s.Shows (t.run acts) ∧ (t.run acts).flush = t.flush.arrived last

/-- Without any acts a stage goes on where it is. -/
theorem Shows.goesOn (h : s.Shows t) : GoesOn t s :=
  ⟨[], false, h, t.flush.arrived_false.symm⟩

/-- A step of the stream goes on with the traffic. -/
theorem Shows.onStep (h : s.Shows t) (ht : t.Arises) (step : StreamStep) : GoesOn t (s.stream step).2 := by
  cases step with
  | reshard n =>
    refine ⟨[.reshard n], false, ?_, t.flush.arrived_false.symm⟩
    show (s.onStream fun _ ↦ s.state.stream.reshard n).Shows { t with stream := t.stream.reshard n }
    rw [← h.stream]
    exact h.onStream _
  | inject changes =>
    refine ⟨changes.map fun x ↦ .inject x.1 x.2, false, ?_⟩
    rw [run_inject, ← h.stream]
    exact ⟨h.onStream _, t.flush.arrived_false.symm⟩
  | release index success =>
    refine ⟨[.release index success], false, h.release ht.accounted index success, ?_⟩
    rw [Flush.arrived_false]
    show (t.act (.release index success)).flush = t.flush
    rw [Traffic.act]
    split <;> rfl
  | releaseAll => exact ⟨[.releaseAll], false, h.releaseAll ht.accounted ht.orderly, t.flush.arrived_false.symm⟩
  | _ => exact h.goesOn

/-! ### Tasks -/

/-- The acknowledgements under way are that of the task that is taken and those of the others. -/
theorem due_of_pop? {task : StageTask} {agenda : Agenda StageTask}
    (hpop : s.agenda.pop? = some (task, agenda)) :
    s.due = task.ack?.toList ++ due { s with agenda } := by
  rw [due, Agenda.tasks_of_pop? hpop, List.filterMap_cons]
  cases task <;> rfl

/-- A task that brings no acknowledgement is taken. -/
theorem alike_of_pop? {task : StageTask} {agenda : Agenda StageTask}
    (hpop : s.agenda.pop? = some (task, agenda)) (hack : task.ack? = none) : s.Alike { s with agenda } := by
  refine ⟨rfl, rfl, rfl, rfl, fun _ ↦ rfl, .of_eq ?_⟩
  rw [due_of_pop? hpop, hack]
  rfl

/-- A task is taken, and one that brings the same acknowledgement goes to sleep. -/
theorem alike_sleepUntil {task later : StageTask} {agenda : Agenda StageTask}
    (hpop : s.agenda.pop? = some (task, agenda)) (hack : later.ack? = task.ack?) (time : Instant) :
    s.Alike { s with agenda := agenda.sleepUntil time later } := by
  refine ⟨rfl, rfl, rfl, rfl, fun _ ↦ rfl, ?_⟩
  rw [due, due, Agenda.tasks_of_pop? hpop, List.filterMap_cons, ← hack, ← List.filterMap_cons]
  exact (agenda.tasks_sleepUntil time later).filterMap StageTask.ack?

/-- An acknowledgement that is under way arrives. -/
theorem Shows.acknowledge {agenda : Agenda StageTask} {handle : Nat} {ack : Ack} (h : s.Shows t)
    (ht : t.Arises) (hdue : s.due = (handle, ack) :: Stage.due { s with agenda }) :
    GoesOn t (Stage.acknowledge { s with agenda } handle ack) := by
  have hmem : (handle, ack) ∈ t.delayed := h.due.subset (hdue ▸ List.mem_cons_self)
  obtain ⟨index, hlt, hget⟩ := List.getElem_of_mem hmem
  have hget? : t.delayed[index]? = some (handle, ack) := List.getElem?_eq_some_iff.2 ⟨hlt, hget⟩
  have harrive : t.act (.arrive index) =
      ({ t with
        delayed := t.delayed.eraseIdx index
        flush := t.flush.arrived (t.delayed.eraseIdx index).isEmpty }).answer (.submission handle) (.ok ack) := by
    rw [Traffic.act, hget?]
  refine ⟨[.arrive index], (t.delayed.eraseIdx index).isEmpty, ?_, congrArg Traffic.flush harrive⟩
  show Shows _ (t.act (.arrive index))
  rw [harrive]
  -- what is left under way is what is left of the tasks
  have hleft : (Stage.due { s with agenda }).Perm (t.delayed.eraseIdx index) := by
    have hout := List.getElem_cons_eraseIdx_perm hlt
    rw [hget] at hout
    exact (List.perm_cons _).1 ((hdue ▸ h.due).trans hout.symm)
  have hpending := mem_pending_of_delayed hmem
  have hresolved : Settles { s with agenda } (Stage.resolve { s with agenda } handle (.ok ack)) handle (.ok ack) :=
    settles_resolve (h.submitted.symm ▸ ht.accounted.lt_of_pending hpending) (.ok ack)
  exact {
    stream := hresolved.stream.trans h.stream
    script := hresolved.script.trans h.script
    submitted := hresolved.size.trans h.submitted
    resolves := h.resolves_answer (h.outcome?_eq_none (ht.accounted.not_resolved_of_pending hpending))
      hresolved.outcome
    delayed := by
      show (Stage.resolve { s with agenda } handle (.ok ack)).state.delayed - 1 = (t.delayed.eraseIdx index).length
      rw [hresolved.delayed, h.delayed, List.length_eraseIdx_of_lt hlt]
    due := hresolved.due.trans hleft }

/-- A task that is ready runs. -/
theorem Shows.perform {task : StageTask} {agenda : Agenda StageTask} (h : s.Shows t) (ht : t.Arises)
    (hpop : s.agenda.pop? = some (task, agenda)) : GoesOn t (Stage.perform task { s with agenda }) := by
  rw [Stage.perform.eq_def]
  cases task with
  | delay handle ack d =>
    dsimp only
    split
    · exact h.acknowledge ht (due_of_pop? hpop)
    · exact Shows.goesOn (h.alike (alike_sleepUntil hpop (by rfl) _))
  | acknowledge handle ack => exact h.acknowledge ht (due_of_pop? hpop)
  | complete id => exact Shows.goesOn ((h.alike (alike_of_pop? hpop rfl)).alike (alike_runCompletion _ id))
  | cue time c =>
    have htaken := h.alike (alike_of_pop? hpop rfl)
    dsimp only
    split
    · cases c with
      | cancel => exact Shows.goesOn (htaken.alike ⟨rfl, rfl, rfl, rfl, fun _ ↦ rfl, .refl _⟩)
      | stream step => exact htaken.onStep ht step
    · exact Shows.goesOn (h.alike (alike_sleepUntil hpop (by rfl) _))

/-! ### Waits -/

/-- The stage is at a traffic that arises, and a flush stands so. -/
def Stands (F : Flush → Prop) (s : Stage) : Prop :=
  ∃ t : Traffic, t.Arises ∧ s.Shows t ∧ F t.flush

variable {F : Flush → Prop}

/-- Where the stage goes on to, a traffic that arises stands. -/
theorem GoesOn.stands (h : GoesOn t s) (ht : t.Arises) (hF : ∀ last, F (t.flush.arrived last)) : Stands F s := by
  obtain ⟨acts, last, hshows, hflush⟩ := h
  exact ⟨t.run acts, ht.run acts, hshows, hflush ▸ hF last⟩

/-- What tasks and the clock do lets the flush stand as it may. -/
theorem stands_lasting (hF : ∀ f last, F f → F (Flush.arrived f last)) : World.Lasting Stage.perform (Stands F) where
  task hpop := by
    rintro ⟨t, ht, hshows, hflush⟩
    exact (hshows.perform ht hpop).stands ht fun last ↦ hF _ last hflush
  clock now hready := by
    rintro ⟨t, ht, hshows, hflush⟩
    refine ⟨t, ht, hshows.alike ⟨rfl, rfl, rfl, rfl, fun _ ↦ rfl, .of_eq ?_⟩, hflush⟩
    exact congrArg (List.filterMap StageTask.ack?) (Agenda.tasks_moveTo ..)

theorem Stands.waitFor (hF : ∀ f last, F f → F (Flush.arrived f last)) (h : Stands F s)
    (holds : StageState → Bool) (limit : Instant) : Stands F (s.waitFor holds limit).2 := by
  rw [Stage.waitFor]
  exact (stands_lasting hF).waitFor _ limit h

/-- A wait that is over in time has come to what it waits for. -/
theorem holds_of_waitFor (s : Stage) (holds : StageState → Bool) (limit : Instant)
    (h : (s.waitFor holds limit).1 = true) : holds (s.waitFor holds limit).2.state = true :=
  World.holds_of_waitFor h

/-! ### Calls -/

theorem Shows.record (h : s.Shows t) (c : Call) : (s.record c).Shows t :=
  h.alike ⟨rfl, rfl, rfl, rfl, fun _ ↦ rfl, .refl _⟩

/-- A new handle has the outcome that it is given, and the others keep theirs. -/
theorem outcome?_newHandle (s : Stage) (outcome : Option Outcome) (i : Nat) :
    (s.newHandle outcome).2.outcome? i = if i = s.state.handles.size then outcome else s.outcome? i := by
  rw [newHandle, outcome?, Array.getElem?_push]
  split
  · rfl
  · rfl

/-- The handle that is given out next has no outcome yet. -/
theorem outcome?_size (s : Stage) : s.outcome? s.state.handles.size = none := by
  rw [outcome?, Array.getElem?_eq_none (Nat.le_refl _)]
  rfl

/-- A handle is given out that resolves later. -/
theorem Shows.called (h : s.Shows t) (record : Record) (m : InMemory) :
    ((s.onStream fun _ ↦ m).newHandle none).2.Shows (t.called (.submission t.submitted) record m) where
  stream := rfl
  script := h.script
  submitted := (Array.size_push _).trans (congrArg (· + 1) h.submitted)
  resolves i o := by
    rw [outcome?_newHandle]
    split
    · rename_i hi
      subst hi
      exact iff_of_false nofun ((h.resolves _ o).not.1 (s.outcome?_size ▸ nofun))
    · exact h.resolves i o
  delayed := h.delayed
  due := h.due

/-- A record that is submitted is one more call of the traffic. -/
theorem Shows.submitOwn (h : s.Shows t) (record : Record) :
    (s.submitOwn record).2.Shows (t.act (.submit record)) := by
  rw [Stage.submitOwn, Traffic.act, h.submitted, h.stream]
  generalize t.stream.submit t.submitted record = x
  obtain ⟨submission, m⟩ := x
  have hcalled := h.called record m
  cases submission with
  | settled outcome =>
    dsimp only
    exact {
      stream := rfl
      script := h.script
      submitted := (Array.size_push _).trans (congrArg (· + 1) h.submitted)
      resolves := h.resolves_answer (h.submitted ▸ s.outcome?_size) fun i ↦
        h.submitted ▸ outcome?_newHandle _ (some outcome) i
      delayed := h.delayed
      due := h.due }
  | delayed d ack =>
    dsimp only
    exact {
      stream := rfl
      script := h.script
      submitted := hcalled.submitted
      resolves := hcalled.resolves
      delayed := by
        show s.state.delayed + 1 = (t.delayed ++ [(t.submitted, ack)]).length
        rw [h.delayed, List.length_append]
        rfl
      due := by
        have hwoken := (s.agenda.tasks_wake (.delay s.state.handles.size ack d)).filterMap StageTask.ack?
        have hmore := (h.due.cons (s.state.handles.size, ack)).trans (List.perm_append_singleton ..).symm
        exact h.submitted ▸ hwoken.trans hmore }
  | held => exact hcalled

/-! Where a script has nothing left to say, the answers are the stream's own. -/

/-- Without a script a submit is the stream's own. -/
theorem submit_eq_own (h : s.state.script = {}) (record : Record) :
    (s.submit record).2 = ((s.record (.submit record)).submitOwn record).2 := by
  rw [submit]
  dsimp only
  rw [show (s.record (.submit record)).state.script = {} from h]

theorem put_eq_own (h : s.state.script = {}) (record : Record) (limit : Instant) :
    s.put record limit = (some (s.state.stream.put record).1,
      (s.record (.put record)).onStream fun _ ↦ (s.state.stream.put record).2) := by
  obtain ⟨state, agenda⟩ := s
  cases state
  cases h
  rfl

/-- Without a script a listing is the stream's own. -/
theorem list_eq_own (h : s.state.script = {}) (token : Option String) (limit : Instant) :
    s.list token limit = (s.record (.list token)).listOwn token := by
  obtain ⟨state, agenda⟩ := s
  cases state
  cases h
  rfl

/-- Without a script a flush is the stream's own. -/
theorem flush_eq_own (h : s.state.script = {}) (limit : Instant) :
    s.flush limit = (s.record .flush).flushOwn limit := by
  obtain ⟨state, agenda⟩ := s
  cases state
  cases h
  rfl

theorem Shows.submit (h : s.Shows t) (record : Record) : GoesOn t (s.submit record).2 := by
  rw [submit_eq_own h.script]
  refine ⟨[.submit record], false, (h.record (.submit record)).submitOwn record, ?_⟩
  show (t.act (.submit record)).flush = _
  rw [Traffic.act, Flush.arrived_false]
  generalize t.stream.submit t.submitted record = x
  obtain ⟨submission, m⟩ := x
  cases submission <;> rfl

theorem Shows.put (h : s.Shows t) (record : Record) (limit : Instant) : GoesOn t (s.put record limit).2 := by
  rw [put_eq_own h.script, h.stream]
  refine ⟨[.put record], false, ?_, t.flush.arrived_false.symm⟩
  exact {
    stream := rfl
    script := h.script
    submitted := h.submitted
    -- the answer to a put is none of a handle's
    resolves := fun i o ↦ by
      show s.outcome? i = some o ↔ (Caller.submission i, o) ∈ t.answers ++ [_]
      rw [h.resolves, List.mem_append, List.mem_singleton]
      exact (or_iff_left nofun).symm
    delayed := h.delayed
    due := h.due }

theorem Shows.list (h : s.Shows t) (token : Option String) (limit : Instant) :
    GoesOn t (s.list token limit).2 := by
  obtain ⟨crashed, hown⟩ := (s.record (.list token)).listOwn_snd token
  have hshows := (h.record (.list token)).onStream (t.stream.list token).2
  rw [list_eq_own h.script, hown, show (s.record (.list token)).state.stream = t.stream from h.stream]
  exact ⟨[.list token], false, ⟨rfl, hshows.script, hshows.submitted, hshows.resolves, hshows.delayed, hshows.due⟩,
    t.flush.arrived_false.symm⟩

/-! ### A flush -/

/-- An act leaves all as it is but for the flush. -/
theorem Shows.onFlush (h : s.Shows t) (ht : t.Arises) (a : InMemory.Act) (flush : Flush) (flushed : List Nat)
    (hact : t.act a = { t with flush, flushed }) (hF : F flush) : Stands F s := by
  have harises : (t.act a).Arises := ht.run [a]
  rw [hact] at harises
  exact ⟨_, harises, ⟨h.stream, h.script, h.submitted, h.resolves, h.delayed, h.due⟩, hF⟩

namespace Stands

variable {before : Nat}

/-- A flush that is called first waits for the delayed acknowledgements. -/
theorem call (h : Stands (· = .idle) s) :
    Stands (fun f ↦ ∃ cleared, f = .delayed s.state.handles.size cleared) s := by
  obtain ⟨t, ht, hshows, hidle⟩ := h
  refine hshows.onFlush ht .flush (.delayed t.submitted t.delayed.isEmpty) t.flushed ?_ ⟨_, by rw [hshows.submitted]⟩
  rw [Traffic.act, hidle]

/-- It is cleared when there are none, and waits for the held ones. -/
theorem clear (h : Stands (fun f ↦ ∃ cleared, f = .delayed before cleared) s) (hnone : s.state.delayed = 0) :
    Stands (· = .held before) s := by
  obtain ⟨t, ht, hshows, cleared, hflush⟩ := h
  have hnil : t.delayed = [] := List.eq_nil_of_length_eq_zero (hshows.delayed.symm.trans hnone)
  have hwaits := ht.orderly.waits
  rw [hflush] at hwaits
  obtain rfl : cleared = true := hwaits.2.2 hnil
  refine hshows.onFlush ht .look (.held before) t.flushed ?_ rfl
  rw [Traffic.act, hflush]

/-- It is answered when none is held, and every handle that was given out before it has resolved. -/
theorem finish (h : Stands (· = .held before) s) (hheld : s.state.stream.held.isEmpty) :
    Stands (· = .idle) s ∧ ∀ handle < before, (s.outcome? handle).isSome := by
  obtain ⟨t, ht, hshows, hflush⟩ := h
  rw [hshows.stream] at hheld
  refine ⟨hshows.onFlush ht .look .idle (t.flushed ++ [before]) ?_ rfl, fun handle hlt ↦ ?_⟩
  · rw [Traffic.act, hflush]
    exact if_pos hheld
  · have hresolved := ht.orderly.hasResolved ht.accounted hflush (List.isEmpty_iff.1 hheld) hlt
    obtain ⟨⟨caller, o⟩, hmem, rfl⟩ := List.mem_map.1 hresolved
    exact Option.isSome_iff_exists.2 ⟨o, (hshows.resolves handle o).2 hmem⟩

theorem abandon (h : Stands F s) : Stands (· = .idle) s := by
  obtain ⟨t, ht, hshows, -⟩ := h
  exact hshows.onFlush ht .abandon .idle t.flushed rfl rfl

/-- A flush comes to its end with every handle resolved that was given out before, or it is given up. -/
theorem flushOwn (h : Stands (· = .idle) s) (limit : Instant) :
    Stands (· = .idle) (s.flushOwn limit).2 ∧
      ((s.flushOwn limit).1 = some (.ok ()) →
        ∀ handle < s.state.handles.size, ((s.flushOwn limit).2.outcome? handle).isSome) := by
  have hdelayed := h.call.waitFor (F := fun f ↦ ∃ cleared, f = .delayed s.state.handles.size cleared)
    (by rintro _ last ⟨cleared, rfl⟩; exact ⟨cleared || last, rfl⟩) (fun t ↦ t.delayed = 0) limit
  have hnone := s.holds_of_waitFor (fun t ↦ t.delayed = 0) limit
  rw [Stage.flushOwn]
  generalize s.waitFor (fun t ↦ t.delayed = 0) limit = x at hdelayed hnone ⊢
  obtain ⟨came, s₁⟩ := x
  cases came with
  | false => exact ⟨hdelayed.abandon, fun hflushed ↦ by cases hflushed⟩
  | true =>
    have hcleared := hdelayed.clear (of_decide_eq_true (hnone rfl))
    have hwaited := hcleared.waitFor (fun f last hf ↦ by rw [hf]; rfl) (fun t ↦ t.stream.held.isEmpty) limit
    have hempty := s₁.holds_of_waitFor (fun t ↦ t.stream.held.isEmpty) limit
    dsimp only
    generalize s₁.waitFor (fun t ↦ t.stream.held.isEmpty) limit = x at hwaited hempty ⊢
    obtain ⟨came, s₂⟩ := x
    cases came with
    | false => exact ⟨hwaited.abandon, fun hflushed ↦ by cases hflushed⟩
    | true =>
      have hfinished := hwaited.finish (hempty rfl)
      exact ⟨hfinished.1, fun _ ↦ hfinished.2⟩

/-- After a flush that is answered, every handle has resolved that was given out before. -/
theorem flush (h : Stands (· = .idle) s) (limit : Instant) :
    Stands (· = .idle) (s.flush limit).2 ∧
      ((s.flush limit).1 = some (.ok ()) →
        ∀ handle < s.state.handles.size, ((s.flush limit).2.outcome? handle).isSome) := by
  obtain ⟨t, ht, hshows, hidle⟩ := h
  rw [flush_eq_own hshows.script]
  exact flushOwn (s := s.record .flush) ⟨t, ht, hshows.record .flush, hidle⟩ limit

/-! ### What a client does -/

theorem alike (h : Stands F s) (hs : s.Alike s') : Stands F s' := by
  obtain ⟨t, ht, hshows, hflush⟩ := h
  exact ⟨t, ht, hshows.alike hs, hflush⟩

/-- Whatever goes on with a traffic stands idle, for it asks for no flush. -/
theorem goesOn (h : Stands (· = .idle) s) (hgo : ∀ {t : Traffic}, t.Arises → s.Shows t → GoesOn t s') :
    Stands (· = .idle) s' := by
  obtain ⟨t, ht, hshows, hidle⟩ := h
  exact (hgo ht hshows).stands ht fun last ↦ by rw [hidle]; rfl

/-- Without a flush, tasks and the clock leave it idle. -/
theorem idle_lasting : World.Lasting Stage.perform (Stands (· = .idle)) :=
  stands_lasting fun f last hf ↦ by rw [hf]; rfl

theorem await (h : Stands (· = .idle) s) (index : Nat) : Stands (· = .idle) (clientele.await s index).2 := by
  rw [Clientele.await]
  split
  · exact h
  · split
    · exact h
    · have hwaited := idle_lasting.waitFor (fun w ↦ (clientele.outcome? w.state index).isSome) s.deadline h
      dsimp only
      split
      · exact hwaited
      · exact hwaited.alike (alike_taken ‹_›)

theorem awaitEach (h : Stands (· = .idle) s) (indices : List Nat) :
    Stands (· = .idle) (clientele.awaitEach s indices).2 := by
  induction indices generalizing s with
  | nil => exact h
  | cons index rest ih =>
    have hnext := ih (h.await index)
    rw [Clientele.awaitEach]
    split <;> rename_i hawait <;> rw [hawait] at hnext <;> exact hnext

theorem submitMany (h : Stands (· = .idle) s) (name : String) (numbers : List Nat) :
    Stands (· = .idle) (numbers.foldl (fun s i ↦ (s.submit (numberedRecord name i)).2) s) := by
  induction numbers generalizing s with
  | nil => exact h
  | cons i rest ih => exact ih (h.goesOn fun _ hshows ↦ hshows.submit _)

/-- A step of the client leaves no flush waiting. -/
theorem client (h : Stands (· = .idle) s) (step : ClientStep) : Stands (· = .idle) (s.client step).2 := by
  cases step with
  | submit record => exact h.goesOn fun _ hshows ↦ hshows.submit record
  | submitMany count name => exact h.submitMany name (List.range count)
  | await index => exact h.await index
  | awaitAll => exact h.awaitEach _
  | put record => exact h.goesOn fun _ hshows ↦ hshows.put record _
  | list token => exact h.goesOn fun _ hshows ↦ hshows.list token _
  | flush => exact (h.flush _).1
  | sleep ms => exact idle_lasting.sleep (Span.ofMillis ms) h

/-- A step that is played leaves no flush waiting. -/
theorem streaming (h : Stands (· = .idle) s) (step : StreamingStep) :
    Stands (· = .idle) (s.streaming step).2 := by
  cases step with
  | client step => exact h.client step
  | stream step => exact h.goesOn fun ht hshows ↦ hshows.onStep ht step

end Stands

/-! ### A rehearsal -/

/-- What is configured is configured, or it is as before. -/
theorem exists_of_configure {α : Type} (spec : StreamSpec) (asked : Option α) (set : InMemory → α → InMemory)
    (m : InMemory × Instruments) (usual : α) (husual : set m.1 usual = m.1) :
    ∃ a, (spec.configure asked set m).1 = set m.1 a := by
  rw [StreamSpec.configure.eq_def]
  split
  · exact ⟨usual, husual.symm⟩
  · split
    · exact ⟨usual, husual.symm⟩
    · exact ⟨_, rfl⟩

/-- A stream that is asked for is at the start of some course. -/
theorem arises_build (spec : StreamSpec) (i : Instruments) : Traffic.Arises { stream := (spec.build i).1 } := by
  obtain ⟨pageSize, hpage⟩ := exists_of_configure spec spec.pageSize InMemory.withPageSize
    (InMemory.create spec.partitions, i) 100 rfl
  obtain ⟨policy, hpolicy⟩ := exists_of_configure spec spec.acks InMemory.withAckPolicy
    (spec.configure spec.pageSize InMemory.withPageSize (InMemory.create spec.partitions, i)) _ rfl
  refine ⟨spec.partitions, pageSize, policy, spec.injections.map fun x ↦ .inject x.1 x.2, ?_⟩
  rw [run_inject, StreamSpec.build, hpolicy, hpage]
  rfl

/-- The stage after some steps. The cues are prepared before the first one. -/
def played (stream : InMemory) (cues : List (Instant × Cue)) (steps : List StreamingStep) : Stage :=
  steps.foldl (fun s step ↦ (s.streaming step).2)
    (cues.foldl (fun s c ↦ s.schedule c.1 c.2) (ofStream stream {}))

theorem alike_schedule (s : Stage) (time : Instant) (c : Cue) : s.Alike (s.schedule time c) :=
  ⟨rfl, rfl, rfl, rfl, fun _ ↦ rfl, (s.agenda.tasks_wake (.cue time c)).filterMap StageTask.ack?⟩

/-- Whatever is played comes to stand with no flush waiting. -/
theorem stands_played (spec : StreamSpec) (i : Instruments) (cues : List (Instant × Cue))
    (steps : List StreamingStep) : Stands (· = .idle) (played (spec.build i).1 cues steps) := by
  have hstart : Stands (· = .idle) (ofStream (spec.build i).1 {}) := by
    refine ⟨_, arises_build spec i, ⟨rfl, rfl, rfl, fun handle o ↦ ?_, rfl, .refl _⟩, rfl⟩
    exact iff_of_false nofun List.not_mem_nil
  have hcues : Stands (· = .idle) (cues.foldl (fun s c ↦ s.schedule c.1 c.2) (ofStream (spec.build i).1 {})) :=
    List.foldlRecOn cues _ hstart fun s hs c _ ↦ hs.alike (alike_schedule s c.1 c.2)
  exact List.foldlRecOn steps _ hcues fun s hs step _ ↦ hs.streaming step

/-- Handles settle, whatever happens to a stream and in whatever order (`Traffic.Settling`). What is played on a
stage is such a course; and when a flush has come to its end there, every handle that was given out before it
was called has its outcome. -/
theorem handles_settle :
    (∀ (partitions pageSize : Nat) (policy : AckPolicy) (acts : List InMemory.Act),
      let t := (Traffic.start partitions pageSize policy).run acts
      t.stream.ackPolicy = policy ∧ t.Settling) ∧
    ∀ (spec : StreamSpec) (i : Instruments) (cues : List (Instant × Cue)) (steps : List StreamingStep),
      let s := played (spec.build i).1 cues steps
      (∃ t : Traffic, t.Arises ∧ s.Shows t) ∧
      ∀ limit : Instant, (s.flush limit).1 = some (.ok ()) →
        ∀ handle < s.state.handles.size, ((s.flush limit).2.outcome? handle).isSome := by
  refine ⟨fun partitions pageSize policy acts ↦ ?_, fun spec i cues steps ↦ ?_⟩
  · have ht : ((Traffic.start partitions pageSize policy).run acts).Arises := ⟨_, _, _, _, rfl⟩
    exact ⟨Traffic.ackPolicy_run partitions pageSize policy acts, ht.settling⟩
  · have hstands := stands_played spec i cues steps
    have ⟨t, ht, hshows, _⟩ := hstands
    exact ⟨⟨t, ht, hshows⟩, fun limit ↦ (hstands.flush limit).2⟩

/-- A flush waits for the held acknowledgement until a cue releases it. -/
theorem handles_settle_released :
    let released : Instant × Cue := (Instant.start.after (Span.ofMillis 5), .stream .releaseAll)
    let spec : StreamSpec := { partitions := 1, acks := some .manual }
    let s := played (spec.build {}).1 [released] [.client (.submit ⟨.empty, .byHash "" "7"⟩)]
    (s.outcome? 0).isNone ∧ (s.flush s.deadline).1 = some (.ok ()) ∧ s.now < (s.flush s.deadline).2.now ∧
      ((s.flush s.deadline).2.outcome? 0).isSome := by
  intro released spec s
  have hok : (s.flush s.deadline).1.any (·.isOk) = true := by decide +kernel
  have hflushed : (s.flush s.deadline).1 = some (.ok ()) := by
    obtain ⟨result, hresult, hend⟩ := (Option.any_eq_true ..).1 hok
    cases result with
    | error fault => exact absurd hend Bool.false_ne_true
    | ok => exact hresult
  exact ⟨by decide +kernel, hflushed, by decide +kernel,
    (handles_settle.2 spec {} [released] _).2 s.deadline hflushed 0 (by decide +kernel)⟩

end Stage

end Tidemark.Rehearsal
