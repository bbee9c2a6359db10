import Mathlib.Logic.Function.Basic
import Tidemark.Proofs.Rehearsal.Waiting
import Tidemark.Proofs.Shards.Progress
import Tidemark.Rehearsal.Sharding

/-!
# Sharded streams that are rehearsed

A rehearsal of a sharded stream that is connected to is one of the courses of `Traffic.after`
(`rehearsed_course`). A world `Shows` the traffic that it is at: the producer and the batches that run, how many
handles and flushes were given out, and what has resolved. A task that runs is one act, or one for each step of the
producer:

```
the client submits, flushes      submit, flush
the client is gone               close
the producer gets to run         proceed, again and again, until it waits
a batch gets to run              answer
```

A batch runs while it has a task in the agenda, and has one task at a time. So a batch that has ended does
not run again. What holds of every course thereby holds of what is rehearsed: when the producer has stopped,
every handle that was given out has its outcome (`outcome_of_rehearsed`).
-/

namespace Tidemark.Shards.Traffic

theorem after_congr {c : StreamConfig} {acts acts' : Nat → Act} {n : Nat} (h : ∀ m < n, acts m = acts' m) :
    after c acts n = after c acts' n := by
  induction n with
  | zero => rfl
  | succ n ih =>
    rw [after, after, ih fun m hm ↦ h m (Nat.lt_succ_of_lt hm), h n (Nat.lt_succ_self n)]

/-- A course goes on with any act. -/
theorem exists_after_act (c : StreamConfig) (acts : Nat → Act) (n : Nat) (a : Act) :
    ∃ acts', after c acts' (n + 1) = (after c acts n).act a := by
  refine ⟨Function.update acts n a, ?_⟩
  have hbefore : after c (Function.update acts n a) n = after c acts n :=
    after_congr fun m hm ↦ Function.update_of_ne (Nat.ne_of_lt hm) a acts
  rw [after, hbefore, Function.update_self]

/-- The handles that have resolved were given out. -/
theorem Accounted.lt_of_mem_resolved {c : StreamConfig} {t : Traffic} {done : List Message}
    (h : t.Accounted c done) (hs : t.Sound c done) {x : Nat × Outcome} (hx : x ∈ t.resolved) :
    x.1 < (submits t.said).length := by
  have hmem : x.1 ∈ (submits t.said).map (·.handle) := by
    refine h.handles.subset (List.mem_append_left _ (List.mem_append_left _ ?_))
    exact List.mem_map_of_mem hx
  rw [hs.handles] at hmem
  exact List.mem_range.1 hmem

end Tidemark.Shards.Traffic

namespace Tidemark.Rehearsal

open Shards

/-- The batch that a task runs. -/
def ShardingTask.batch? : ShardingTask → Option Nat
  | producer => none
  | batch id => some id

/-! ### Handles -/

/-- The outcomes of handles are those that have resolved. -/
def Resolves (handles : Array Handle) (resolved : List (Nat × Outcome)) : Prop :=
  ∀ handle o, handles[handle]?.bind (·.outcome) = some o ↔ (handle, o) ∈ resolved

theorem Resolves.push {handles : Array Handle} {resolved : List (Nat × Outcome)} (h : Resolves handles resolved) :
    Resolves (handles.push {}) resolved := by
  intro handle o
  rw [← h handle o, Array.getElem?_push]
  split
  · rename_i hsize
    simp [hsize]
  · exact Iff.rfl

/-- A handle resolves when its outcome is set. -/
theorem Resolves.modify {handles : Array Handle} {resolved : List (Nat × Outcome)} (h : Resolves handles resolved)
    {handle : Nat} (hlt : handle < handles.size) (hnew : handle ∉ resolved.map Prod.fst) (outcome : Outcome) :
    Resolves (handles.modify handle fun x ↦ { x with outcome := some outcome })
      (resolved ++ [(handle, outcome)]) := by
  intro other o
  rw [Array.getElem?_modify, List.mem_append, ← h other o, List.mem_singleton, Prod.mk.injEq]
  by_cases hsame : handle = other
  · subst hsame
    have hnone : ¬ handles[handle]?.bind (·.outcome) = some o := by
      rw [h handle o]
      exact fun hmem ↦ hnew (List.mem_map_of_mem hmem)
    rw [if_pos rfl, Array.getElem?_eq_getElem hlt]
    rw [Array.getElem?_eq_getElem hlt] at hnone
    rw [or_iff_right hnone]
    simp [eq_comm]
  · rw [if_neg hsame]
    simp [Ne.symm hsame]

namespace Sharding

/-- Resolves some handles, one after another. -/
def resolveAll (w : Sharding) (outcomes : List (Nat × Outcome)) : Sharding :=
  outcomes.foldl (fun w x ↦ w.resolve x.1 x.2) w

/-- Resolving handles changes nothing but the handles. -/
theorem resolveAll_eq (w : Sharding) (outcomes : List (Nat × Outcome)) :
    ∃ handles : Array Handle, handles.size = w.state.handles.size ∧
      w.resolveAll outcomes = { w with state := { w.state with handles } } := by
  induction outcomes generalizing w with
  | nil => exact ⟨w.state.handles, rfl, rfl⟩
  | cons x rest ih =>
    obtain ⟨handles, hsize, he⟩ := ih (w.resolve x.1 x.2)
    refine ⟨handles, hsize.trans ?_, he⟩
    exact Array.size_modify ..

/-- Handles resolve together if none of them had resolved. -/
theorem resolves_resolveAll {w : Sharding} {resolved outcomes : List (Nat × Outcome)}
    (h : Resolves w.state.handles resolved) (hlt : ∀ x ∈ outcomes, x.1 < w.state.handles.size)
    (honce : ((resolved ++ outcomes).map Prod.fst).Nodup) :
    Resolves (w.resolveAll outcomes).state.handles (resolved ++ outcomes) := by
  induction outcomes generalizing w resolved with
  | nil =>
    rw [List.append_nil]
    exact h
  | cons x rest ih =>
    rw [List.append_cons resolved x rest] at honce ⊢
    refine ih (h.modify (hlt x List.mem_cons_self) ?_ x.2) ?_ honce
    · rw [List.map_append, List.map_append] at honce
      have hnodup := (List.nodup_append.1 (List.nodup_append.1 honce).1).2.2
      exact fun hmem ↦ hnodup _ hmem _ (by simp) rfl
    · intro y hy
      refine Nat.lt_of_lt_of_eq (hlt y (List.mem_cons_of_mem _ hy)) ?_
      exact (Array.size_modify ..).symm

/-! ### What a world shows -/

/-- The batches that are yet to run, as often as they are. -/
def due (w : Sharding) : List Nat :=
  w.agenda.tasks.filterMap ShardingTask.batch?

/-- The world is at this traffic. -/
structure Shows (w : Sharding) (t : Traffic) : Prop where
  producer : w.state.producer = t.producer
  most : w.state.maxAttempts = t.maxAttempts
  flushed : w.state.flushed = t.flushed.reverse
  nextFlush : w.state.nextFlush = (flushes t.said).length
  handles : w.state.handles.size = (submits t.said).length
  resolves : Resolves w.state.handles t.resolved
  launched : w.state.batches.size = t.batches.length
  batches : ∀ (id : Nat) b, t.batches[id]? = some (some b) → w.state.batches[id]? = some b
  once : w.due.Nodup
  running : ∀ id ∈ w.due, ∃ b, t.batches[id]? = some (some b)

/-- The worlds differ in nothing that is shown of traffic. -/
structure Quiet (w w' : Sharding) : Prop where
  producer : w'.state.producer = w.state.producer
  most : w'.state.maxAttempts = w.state.maxAttempts
  flushed : w'.state.flushed = w.state.flushed
  nextFlush : w'.state.nextFlush = w.state.nextFlush
  handles : w'.state.handles = w.state.handles
  batches : w'.state.batches = w.state.batches
  due : w'.due.Perm w.due

theorem Quiet.trans {w w' w'' : Sharding} (h : Quiet w w') (h' : Quiet w' w'') : Quiet w w'' where
  producer := h'.producer.trans h.producer
  most := h'.most.trans h.most
  flushed := h'.flushed.trans h.flushed
  nextFlush := h'.nextFlush.trans h.nextFlush
  handles := h'.handles.trans h.handles
  batches := h'.batches.trans h.batches
  due := h'.due.trans h.due

/-- A quiet world shows the traffic that it showed before. -/
theorem Shows.quiet {w w' : Sharding} {t : Traffic} (h : Shows w t) (hq : Quiet w w') : Shows w' t where
  producer := hq.producer.trans h.producer
  most := hq.most.trans h.most
  flushed := hq.flushed.trans h.flushed
  nextFlush := hq.nextFlush.trans h.nextFlush
  handles := hq.handles ▸ h.handles
  resolves := hq.handles ▸ h.resolves
  launched := hq.batches ▸ h.launched
  batches := hq.batches ▸ h.batches
  once := hq.due.nodup_iff.2 h.once
  running id hid := h.running id (hq.due.subset hid)

theorem due_wake_batch (w : Sharding) (id : Nat) :
    (due { w with agenda := w.agenda.wake (.batch id) }).Perm (id :: w.due) :=
  (w.agenda.tasks_wake (.batch id)).filterMap ShardingTask.batch?

theorem due_sleep_batch (w : Sharding) (wakes : Instant) (id : Nat) :
    (due { w with agenda := w.agenda.sleepUntil wakes (.batch id) }).Perm (id :: w.due) :=
  (w.agenda.tasks_sleepUntil wakes (.batch id)).filterMap ShardingTask.batch?

theorem quiet_note (w : Sharding) (n : Notice) : Quiet w (w.note n) :=
  ⟨rfl, rfl, rfl, rfl, rfl, rfl, .refl _⟩

theorem quiet_request (w : Sharding) (r : ServiceRequest) : Quiet w (w.request r) :=
  ⟨rfl, rfl, rfl, rfl, rfl, rfl, .refl _⟩

/-- To wake the producer shows nothing of traffic. -/
theorem quiet_wakeProducer (w : Sharding) : Quiet w w.wakeProducer := by
  rw [wakeProducer]
  split
  · exact ⟨rfl, rfl, rfl, rfl, rfl, rfl, .refl _⟩
  · exact ⟨rfl, rfl, rfl, rfl, rfl, rfl, (w.agenda.tasks_wake .producer).filterMap ShardingTask.batch?⟩

/-- To answer a batch shows nothing of traffic by itself. -/
theorem quiet_batchAnswer (w : Sharding) (count : Nat) : Quiet w (w.batchAnswer count).2 := by
  rw [batchAnswer]
  dsimp only
  split <;> exact ⟨rfl, rfl, rfl, rfl, rfl, rfl, .refl _⟩

theorem quiet_put (w : Sharding) (record : Record) : Quiet w (w.put record).2 := by
  rw [put]
  dsimp only
  split <;> exact ⟨rfl, rfl, rfl, rfl, rfl, rfl, .refl _⟩

theorem quiet_list (w : Sharding) (token : Option String) : Quiet w (w.list token).2 := by
  rw [list]
  dsimp only
  split <;> exact ⟨rfl, rfl, rfl, rfl, rfl, rfl, .refl _⟩

section Acts

variable {c : StreamConfig} {w : Sharding} {t : Traffic} {done : List Message}

/-- What resolves in the world resolves in its traffic. -/
theorem Shows.resolveAll {outcomes : List (Nat × Outcome)} (h : Shows w t)
    (hlt : ∀ x ∈ outcomes, x.1 < (submits t.said).length)
    (honce : ((t.resolved ++ outcomes).map Prod.fst).Nodup) :
    Shows (w.resolveAll outcomes) { t with resolved := t.resolved ++ outcomes } := by
  have hresolves := resolves_resolveAll h.resolves (fun x hx ↦ h.handles ▸ hlt x hx) honce
  obtain ⟨handles, hsize, hw⟩ := w.resolveAll_eq outcomes
  rw [hw] at hresolves ⊢
  exact { h with
    handles := hsize.trans h.handles
    resolves := hresolves }

/-! ### Steps of the producer -/

theorem Shows.perform {producer : Producer} {act : ProducerAct} {now : Instant} (h : Shows w t)
    (hs : t.Sound c done) (ha : t.Accounted c done) (hmove : t.producer.Move now producer act) :
    Shows (Sharding.act { w with state := { w.state with producer } } act) (t.perform producer act) := by
  have hs' := hs.perform hmove
  have ha' := ha.perform hs hmove
  cases act with
  | quiet =>
    have he : t.perform producer .quiet = { t with producer } := by
      simp [Traffic.perform, ProducerAct.batches, ProducerAct.lost, ProducerAct.done, flushes]
    rw [he]
    exact { h with producer := rfl }
  | stop =>
    have he : t.perform producer .stop = { t with producer } := by
      simp [Traffic.perform, ProducerAct.batches, ProducerAct.lost, ProducerAct.done, flushes]
    rw [he]
    exact { h with producer := rfl }
  | flushed id =>
    have he : t.perform producer (.flushed id) = { t with producer, flushed := t.flushed ++ [id] } := by
      simp [Traffic.perform, ProducerAct.batches, ProducerAct.lost, ProducerAct.done, flushes]
    rw [he]
    exact { h with
      producer := rfl
      flushed := by
        rw [List.reverse_append]
        exact congrArg (id :: ·) h.flushed }
  | spawn records =>
    have he : t.perform producer (.spawn records) =
        { t with
          producer
          launched := t.launched ++ [records]
          batches := t.batches ++ [some (Batch.start records t.maxAttempts)] } := by
      simp [Traffic.perform, ProducerAct.batches, ProducerAct.lost, ProducerAct.done]
    rw [he]
    have hdue := due_wake_batch w w.state.batches.size
    exact { h with
      producer := rfl
      launched := by
        rw [List.length_append, ← h.launched]
        exact Array.size_push _
      batches := by
        intro id b hb
        show (w.state.batches.push (Batch.start records w.state.maxAttempts))[id]? = some b
        rw [Array.getElem?_push, h.launched, h.most]
        rcases Nat.lt_or_ge id t.batches.length with hlt | hge
        · rw [List.getElem?_append_left hlt] at hb
          rw [if_neg (Nat.ne_of_lt hlt)]
          exact h.batches id b hb
        · rw [List.getElem?_append_right hge, List.getElem?_singleton] at hb
          split at hb
          · rename_i hzero
            rw [if_pos (by omega), Option.some.inj hb]
          · exact absurd hb (by simp)
      once := by
        refine hdue.nodup_iff.2 (List.nodup_cons.2 ⟨?_, h.once⟩)
        intro hmem
        obtain ⟨b, hb⟩ := h.running _ hmem
        rw [h.launched, List.getElem?_eq_none (Nat.le_refl _)] at hb
        exact absurd hb (by simp)
      running := by
        intro id hid
        rcases List.mem_cons.1 (hdue.subset hid) with rfl | hid
        · exact ⟨_, by rw [h.launched, List.getElem?_concat_length]⟩
        · obtain ⟨b, hb⟩ := h.running id hid
          exact ⟨b, by rw [List.getElem?_append_left (List.getElem?_eq_some_iff.1 hb).1, hb]⟩ }
  | crash lost =>
    have he : t.perform producer (.crash lost) =
        { t with producer, resolved := t.resolved ++ lost.map (·, .error (.destination .dropped)) } := by
      simp [Traffic.perform, ProducerAct.batches, ProducerAct.lost, ProducerAct.done, flushes]
    rw [he] at hs' ha' ⊢
    have hlost : Sharding.act { w with state := { w.state with producer } } (.crash lost) =
        Sharding.resolveAll { w with state := { w.state with producer } }
          (lost.map (·, .error (.destination .dropped))) := by
      rw [Sharding.resolveAll, List.foldl_map]
      rfl
    have hset : Shows { w with state := { w.state with producer } } { t with producer } :=
      { h with producer := rfl }
    rw [hlost]
    exact hset.resolveAll (fun x hx ↦ ha'.lt_of_mem_resolved hs' (List.mem_append_right _ hx))
      (ha'.reliable hs').once

/-! ### Answers to batches -/

/-- A batch that ends gives its permit back and is due no more. -/
theorem Shows.batchEnded (h : Shows w t) {id : Nat} (hid : id ∉ w.due) :
    Shows { w with state := { w.state with producer := w.state.producer.batchEnded } }
      { t with producer := t.producer.batchEnded, batches := t.batches.set id none } :=
  { h with
    producer := congrArg Producer.batchEnded h.producer
    launched := h.launched.trans List.length_set.symm
    batches := by
      intro id' b hb
      by_cases hsame : id = id'
      · subst hsame
        rw [List.getElem?_set_self'] at hb
        cases hlt : t.batches[id]? <;> simp [hlt] at hb
      · rw [List.getElem?_set_ne hsame] at hb
        exact h.batches id' b hb
    running := by
      intro id' hid'
      have hne : id ≠ id' := fun he ↦ hid (he ▸ hid')
      rw [List.getElem?_set_ne hne]
      exact h.running id' hid' }

/-- A batch that goes on is put down with what is left of it, and sleeps. -/
theorem Shows.batchAgain (h : Shows w t) {id : Nat} (hid : id ∉ w.due) (hlt : id < t.batches.length)
    (b : Batch) (wakes : Instant) :
    Shows
      { state := { w.state with batches := w.state.batches.setIfInBounds id b }
        agenda := w.agenda.sleepUntil wakes (.batch id) }
      { t with batches := t.batches.set id (some b) } :=
  have hdue := due_sleep_batch w wakes id
  { h with
    launched := (Array.size_setIfInBounds ..).trans (h.launched.trans List.length_set.symm)
    batches := by
      intro id' b' hb
      by_cases hsame : id = id'
      · subst hsame
        rw [List.getElem?_set_self hlt, Option.some.injEq] at hb
        rw [Array.getElem?_setIfInBounds_self_of_lt (h.launched ▸ hlt)]
        exact hb
      · rw [List.getElem?_set_ne hsame] at hb
        rw [Array.getElem?_setIfInBounds_ne hsame]
        exact h.batches id' b' hb
    once := hdue.nodup_iff.2 (List.nodup_cons.2 ⟨hid, h.once⟩)
    running := by
      intro id' hid'
      by_cases hsame : id = id'
      · exact ⟨b, by rw [← hsame, List.getElem?_set_self hlt]⟩
      · rw [List.getElem?_set_ne hsame]
        exact h.running id' ((List.mem_cons.1 (hdue.subset hid')).resolve_left (Ne.symm hsame)) }

/-- A task that is taken leaves the others. -/
theorem due_of_pop? {task : ShardingTask} {agenda : Agenda ShardingTask}
    (hpop : w.agenda.pop? = some (task, agenda)) :
    w.due = task.batch?.toList ++ due { w with agenda } := by
  rw [due, Agenda.tasks_of_pop? hpop, List.filterMap_cons]
  cases task <;> rfl

/-- The world goes on showing its traffic when a task is taken off the agenda. -/
theorem Shows.pop {task : ShardingTask} {agenda : Agenda ShardingTask} (h : Shows w t)
    (hpop : w.agenda.pop? = some (task, agenda)) : Shows { w with agenda } t :=
  have hdue := due_of_pop? hpop
  { h with
    once := by
      have honce := h.once
      rw [hdue] at honce
      exact (List.nodup_append.1 honce).2.1
    running := fun id hid ↦ h.running id (by rw [hdue]; exact List.mem_append_right _ hid) }

/-- A batch that gets to run is answered. -/
theorem Shows.runBatch {id : Nat} {agenda : Agenda ShardingTask} (h : Shows w t) (hs : t.Sound c done)
    (ha : t.Accounted c done) (hpop : w.agenda.pop? = some (.batch id, agenda)) :
    ∃ answer, Shows (runBatch { w with agenda } id) (t.act (.answer id evenDraw answer)) := by
  have hdue := due_of_pop? hpop
  obtain ⟨b, hb⟩ := h.running id (by rw [hdue]; simp [ShardingTask.batch?])
  have hid : id ∉ due { w with agenda } := by
    have honce := h.once
    rw [hdue] at honce
    exact (List.nodup_cons.1 honce).1
  have hpopped := h.pop hpop
  have hbatch : w.state.batches[id]? = some b := h.batches id b hb
  have hanswer := quiet_batchAnswer
    (request { w with agenda } (.write w.state.streamName (b.records.map (·.record)))) b.records.length
  rw [Sharding.runBatch]
  simp only [hbatch]
  generalize batchAnswer _ _ = x at hanswer ⊢
  obtain ⟨answer, w₁⟩ := x
  refine ⟨answer, ?_⟩
  have hact : t.act (.answer id evenDraw answer) = t.take id b evenDraw answer := by
    rw [Traffic.act, hb]
  have hs' := hs.act (.answer id evenDraw answer)
  have ha' := ha.act hs (.answer id evenDraw answer)
  rw [hact] at hs' ha' ⊢
  -- what is asked and noted shows nothing of the traffic
  have hquiet : Quiet { w with agenda } (w₁.note (batchNotice answer b.records.length)) :=
    ((quiet_request _ _).trans hanswer).trans (quiet_note _ _)
  have hresolved := (hpopped.quiet hquiet).resolveAll
    (fun x hx ↦ ha'.lt_of_mem_resolved hs' (List.mem_append_right _ hx)) (ha'.reliable hs').once
  have hid' : id ∉ (Sharding.resolveAll (w₁.note (batchNotice answer b.records.length))
      (b.answered answer).1).due := by
    obtain ⟨handles, -, hw⟩ := resolveAll_eq (w₁.note (batchNotice answer b.records.length))
      (b.answered answer).1
    rw [hw]
    exact fun hmem ↦ hid (hquiet.due.subset hmem)
  by_cases hagain : (b.answered answer).2.isEmpty = true
  · have hnext : b.next? evenDraw answer = none := if_pos hagain
    rw [if_pos hagain, Traffic.take, hnext]
    exact (hresolved.batchEnded hid').quiet (quiet_wakeProducer _)
  · have hnext : b.next? evenDraw answer = some (b.retry evenDraw (b.answered answer).2).2 := if_neg hagain
    rw [if_neg hagain, Traffic.take, hnext]
    have hnoted := hresolved.quiet (quiet_note _ (.retrying (b.answered answer).2.length
      (b.retry evenDraw (b.answered answer).2).1))
    exact hnoted.batchAgain hid' (List.getElem?_eq_some_iff.1 hb).1 _ _

/-! ### What the client says -/

/-- What the client says is heard as long as the producer is alive. -/
theorem Shows.tell (h : Shows w t) (hclosed : t.producer.closed = false) (m : Message) :
    (∃ w', w.tell m = .ok w' ∧ Quiet { w with state := { w.state with producer := t.producer.tell m } } w' ∧
        t.say m = { t with producer := t.producer.tell m, said := t.said ++ [m] }) ∨
      ∃ fault, w.tell m = .error fault ∧ t.say m = t := by
  rw [Sharding.tell, Traffic.say, Traffic.isOpen, hclosed, h.producer]
  cases t.producer.isAlive with
  | true => exact Or.inl ⟨_, rfl, quiet_wakeProducer _, rfl⟩
  | false => exact Or.inr ⟨_, rfl, rfl⟩

/-- What was heard is all that changes, but for the handles and flushes that are given out with it. -/
theorem Shows.heard {m : Message} {w' : Sharding} (h : Shows w t)
    (hq : Quiet { w with state := { w.state with producer := t.producer.tell m } } w')
    {handles : Array Handle} {nextFlush : Nat} (hnext : nextFlush = (flushes (t.said ++ [m])).length)
    (hsize : handles.size = (submits (t.said ++ [m])).length) (hresolves : Resolves handles t.resolved) :
    Shows { w' with state := { w'.state with handles, nextFlush } }
      { t with producer := t.producer.tell m, said := t.said ++ [m] } where
  producer := hq.producer
  most := hq.most.trans h.most
  flushed := hq.flushed.trans h.flushed
  nextFlush := hnext
  handles := hsize
  resolves := hresolves
  launched := hq.batches ▸ h.launched
  batches := hq.batches ▸ h.batches
  once := hq.due.nodup_iff.2 h.once
  running id hid := h.running id (hq.due.subset hid)

/-- A record that is submitted gets the next handle. -/
theorem Shows.submit (h : Shows w t) (hclosed : t.producer.closed = false) (record : Record) :
    Shows (w.submit record).2 (t.act (.submit record)) := by
  have hact : t.act (.submit record) = t.say (.submit ⟨w.state.handles.size, record⟩) := by
    rw [h.handles]
    rfl
  rw [Sharding.submit, hact]
  rcases h.tell hclosed (.submit ⟨w.state.handles.size, record⟩) with
    ⟨w', htell, hquiet, hsay⟩ | ⟨fault, htell, hsay⟩
  · rw [hsay]
    simp only [htell]
    refine h.heard hquiet ?_ ?_ (Resolves.push (hquiet.handles ▸ h.resolves))
    · simp [hquiet.nextFlush, h.nextFlush, flushes]
    · simp [hquiet.handles, h.handles, submits]
  · rw [hsay]
    simp only [htell]
    exact h

/-- A flush that is asked for has the next number. -/
theorem Shows.flush (h : Shows w t) (hclosed : t.producer.closed = false) :
    (∃ w', w.tell (.flush w.state.nextFlush) = .ok w' ∧
        Shows { w' with state := { w'.state with nextFlush := w.state.nextFlush + 1 } } (t.act .flush)) ∨
      ∃ fault, w.tell (.flush w.state.nextFlush) = .error fault := by
  have hact : t.act .flush = t.say (.flush w.state.nextFlush) := by
    rw [h.nextFlush]
    rfl
  rcases h.tell hclosed (.flush w.state.nextFlush) with ⟨w', htell, hquiet, hsay⟩ | ⟨fault, htell, -⟩
  · rw [hact, hsay]
    refine Or.inl ⟨w', htell, h.heard hquiet ?_ ?_ (hquiet.handles ▸ h.resolves)⟩
    · simp [h.nextFlush, flushes]
    · simp [hquiet.handles, h.handles, submits]
  · exact Or.inr ⟨fault, htell⟩

theorem Shows.close (h : Shows w t) :
    Shows { w with state := { w.state with producer := w.state.producer.close } } (t.act .close) :=
  { h with producer := congrArg Producer.close h.producer }

/-- What a client has taken of a handle stays its outcome. -/
theorem Shows.taken (h : Shows w t) {index : Nat} {outcome : Outcome}
    (houtcome : clientele.outcome? w.state index = some outcome) :
    Shows
      { w with state := { w.state with
        handles := w.state.handles.setIfInBounds index { outcome := some outcome, taken := true } } } t :=
  { h with
    handles := (Array.size_setIfInBounds ..).trans h.handles
    resolves := by
      intro other o
      rw [← h.resolves other o]
      by_cases hsame : index = other
      · subst hsame
        have hsome : w.state.handles[index]?.bind (·.outcome) = some outcome := houtcome
        have hlt : index < w.state.handles.size := by
          by_contra hge
          rw [Array.getElem?_eq_none (Nat.le_of_not_lt hge)] at hsome
          exact absurd hsome (by simp)
        rw [Array.getElem?_setIfInBounds_self_of_lt hlt, hsome]
        rfl
      · rw [Array.getElem?_setIfInBounds_ne hsame] }

end Acts

/-! ### Rehearsals -/

/-- The world shows a course of traffic, in which the last client is gone or is not. -/
def Stands (c : StreamConfig) (closed : Bool) (w : Sharding) : Prop :=
  ∃ acts n, Shows w (Traffic.after c acts n) ∧ (Traffic.after c acts n).producer.closed = closed

section Rehearsal

variable {c : StreamConfig} {closed closed' : Bool} {w w' : Sharding}

theorem Stands.mono (h : Stands c closed w) (hshows : ∀ t, Shows w t → Shows w' t) : Stands c closed w' := by
  obtain ⟨acts, n, hshown, hclosed⟩ := h
  exact ⟨acts, n, hshows _ hshown, hclosed⟩

theorem Stands.quiet (h : Stands c closed w) (hq : Quiet w w') : Stands c closed w' :=
  h.mono fun _ hshown ↦ hshown.quiet hq

/-- A course goes on with an act. -/
theorem Stands.act (h : Stands c closed w) (hc : c.validate = .ok ())
    (hact : ∀ t done, Shows w t → t.Sound c done → t.Accounted c done → t.producer.closed = closed →
      ∃ a, Shows w' (t.act a) ∧ (t.act a).producer.closed = closed') : Stands c closed' w' := by
  obtain ⟨acts, n, hshown, hclosed⟩ := h
  obtain ⟨a, hshown', hclosed'⟩ :=
    hact _ _ hshown (Traffic.sound_after hc acts n) (Traffic.accounted_after hc acts n) hclosed
  obtain ⟨acts', he⟩ := Traffic.exists_after_act c acts n a
  exact ⟨acts', n + 1, he ▸ hshown', he ▸ hclosed'⟩

theorem Stands.runSteps (h : Stands c closed w) (hc : c.validate = .ok ()) (n : Nat) :
    Stands c closed (runSteps n w) := by
  induction n generalizing w with
  | zero => exact h
  | succ n ih =>
    rw [Sharding.runSteps]
    cases hstep : w.state.producer.step? w.now with
    | none => exact h
    | some x =>
      obtain ⟨producer, act⟩ := x
      refine ih (h.act hc fun t done hshown hs ha hclosed ↦ ⟨.proceed w.now false, ?_, ?_⟩)
      · have hchoose : t.producer.choose? w.now false = some (producer, act) := by
          rw [Producer.choose?_false, ← hshown.producer, hstep]
        rw [Traffic.act, hchoose]
        exact hshown.perform hs ha (Producer.move_of_choose? hchoose)
      · rw [Traffic.closed_act_of_ne (by simp), hclosed]

/-- Running the producer goes on with the course. -/
theorem Stands.runProducer (h : Stands c closed w) (hc : c.validate = .ok ()) :
    Stands c closed w.runProducer := by
  have hawake : Quiet w { w with state := { w.state with isAwake := false } } :=
    ⟨rfl, rfl, rfl, rfl, rfl, rfl, .refl _⟩
  have hsteps := (h.quiet hawake).runSteps hc (8 * (w.state.producer.inbox.length + 4))
  rw [Sharding.runProducer]
  dsimp only
  split
  · exact hsteps
  · split
    · exact hsteps
    · refine hsteps.quiet ⟨rfl, rfl, rfl, rfl, rfl, rfl, ?_⟩
      exact (Agenda.tasks_sleepUntil _ _ _).filterMap ShardingTask.batch?

/-- What tasks and the clock do is part of the course. -/
theorem lasting (hc : c.validate = .ok ()) (closed : Bool) :
    World.Lasting Sharding.perform (Stands c closed) where
  task {w task agenda} hpop h := by
    cases task with
    | producer => exact (h.mono fun t hshown ↦ hshown.pop hpop).runProducer hc
    | batch id =>
      refine h.act hc fun t done hshown hs ha hclosed ↦ ?_
      obtain ⟨answer, hshown'⟩ := hshown.runBatch hs ha hpop
      exact ⟨_, hshown', (Traffic.closed_act_of_ne (by simp)).trans hclosed⟩
  clock {w} now _ h := h.quiet
    ⟨rfl, rfl, rfl, rfl, rfl, rfl, by rw [due, due, Agenda.tasks_moveTo]⟩

theorem Stands.submit (h : Stands c false w) (hc : c.validate = .ok ()) (record : Record) :
    Stands c false (w.submit record).2 :=
  h.act hc fun _ _ hshown _ _ hclosed ↦
    ⟨.submit record, hshown.submit hclosed record, (Traffic.closed_act_of_ne (by simp)).trans hclosed⟩

/-- To ask for a flush goes on with the course. -/
theorem Stands.flush (h : Stands c false w) (hc : c.validate = .ok ()) : Stands c false w.flush.2 := by
  rw [Sharding.flush]
  dsimp only
  cases htell : w.tell (.flush w.state.nextFlush) with
  | error fault => exact h
  | ok w' =>
    have hflush : Stands c false
        { w' with state := { w'.state with nextFlush := w.state.nextFlush + 1 } } := by
      refine h.act hc fun t done hshown hs ha hclosed ↦ ⟨.flush, ?_, ?_⟩
      · rcases hshown.flush hclosed with ⟨w'', htell', hshown'⟩ | ⟨fault, htell'⟩
        · rw [Except.ok.inj (htell.symm.trans htell')]
          exact hshown'
        · exact absurd (htell.symm.trans htell') (by simp)
      · exact (Traffic.closed_act_of_ne (by simp)).trans hclosed
    have hwait := (lasting hc false).waitFor
      (fun v ↦ v.state.flushed.contains w.state.nextFlush || !v.state.producer.isAlive)
      (World.deadline { w' with state := { w'.state with nextFlush := w.state.nextFlush + 1 } }) hflush
    dsimp only
    generalize World.waitFor Sharding.perform _ _ _ = x at hwait ⊢
    split
    · exact hwait
    · split <;> exact hwait

/-- To wait for a handle goes on with the course. -/
theorem Stands.await (h : Stands c closed w) (hc : c.validate = .ok ()) (index : Nat) :
    Stands c closed (clientele.await w index).2 := by
  rw [Clientele.await]
  split
  · exact h
  · split
    · exact h
    · have hwait := (lasting hc closed).waitFor
        (fun w ↦ (clientele.outcome? w.state index).isSome) w.deadline h
      dsimp only
      have hperform : clientele.perform = Sharding.perform := rfl
      rw [hperform]
      generalize World.waitFor Sharding.perform _ _ _ = x at hwait ⊢
      cases houtcome : clientele.outcome? x.2.state index with
      | none => exact hwait
      | some outcome => exact hwait.mono fun t hshown ↦ hshown.taken houtcome

theorem Stands.awaitEach (h : Stands c closed w) (hc : c.validate = .ok ()) (indices : List Nat) :
    Stands c closed (clientele.awaitEach w indices).2 := by
  induction indices generalizing w with
  | nil => exact h
  | cons index rest ih =>
    have hfirst := h.await hc index
    rw [Clientele.awaitEach]
    generalize clientele.await w index = x at hfirst ⊢
    obtain ⟨reply, w'⟩ := x
    cases reply <;> exact ih hfirst

theorem Stands.submitMany (h : Stands c false w) (hc : c.validate = .ok ()) (name : String) (numbers : List Nat) :
    Stands c false (numbers.foldl (fun w i ↦ (Sharding.submit w (numberedRecord name i)).2) w) := by
  induction numbers generalizing w with
  | nil => exact h
  | cons i rest ih => exact ih (h.submit hc _)

/-- The course goes on while the client takes a step. -/
theorem Stands.client (h : Stands c false w) (hc : c.validate = .ok ()) (step : ClientStep) :
    Stands c false (w.client step).2 := by
  cases step with
  | submit record => exact h.submit hc record
  | submitMany count name => exact h.submitMany hc name (List.range count)
  | await index => exact h.await hc index
  | awaitAll => exact h.awaitEach hc _
  | put record => exact h.quiet (quiet_put w record)
  | list token => exact h.quiet (quiet_list w token)
  | flush => exact h.flush hc
  | sleep ms => exact (lasting hc false).sleep (Span.ofMillis ms) h

/-- Any steps of the client go on with the course. -/
theorem Stands.play (h : Stands c false w) (hc : c.validate = .ok ()) (steps : List ClientStep) :
    Stands c false (w.play steps).2 := by
  induction steps generalizing w with
  | nil => exact h
  | cons step rest ih => exact ih (h.client hc step)

theorem quiet_describe (w : Sharding) (streamName : String) : Quiet w (w.describe streamName).2 :=
  ⟨rfl, rfl, rfl, rfl, rfl, rfl, .refl _⟩

/-- While there are no tasks, waiting for a stream shows nothing of traffic. -/
theorem quiet_activate (hidle : w.agenda.tasks = []) (a : Activation) (n : Nat) : Quiet w (w.activate a n).2 := by
  induction n generalizing w a with
  | zero => exact ⟨rfl, rfl, rfl, rfl, rfl, rfl, .refl _⟩
  | succ n ih =>
    have hasked := quiet_describe w a.streamName
    have hidle' : (w.describe a.streamName).2.agenda.tasks = [] := hidle
    rw [Sharding.activate]
    generalize w.describe a.streamName = x at hasked hidle' ⊢
    obtain ⟨answer, w'⟩ := x
    dsimp only
    split
    · exact hasked.trans (quiet_note w' _)
    · exact hasked
    · rename_i status d a _
      have hnoted : (w'.note (.awaitingStream a.streamName status d)).agenda.tasks = [] := hidle'
      rw [World.sleep_of_idle hnoted]
      refine (hasked.trans ?_).trans (ih ?_ a)
      · refine ⟨rfl, rfl, rfl, rfl, rfl, rfl, ?_⟩
        rw [due, due, hidle']
        exact .nil
      · rfl

/-- A stream that is connected to is at the start of a course. -/
theorem stands_connect {script : ServiceScript} (hconnected : (connect c script).1 = .ok ()) :
    Stands c false (connect c script).2 := by
  have hquiet := quiet_activate (w := unconnected c script) rfl (Activation.start c.streamName)
    (Activation.waitAttempts + 2)
  rw [connect] at hconnected ⊢
  generalize (unconnected c script).activate _ _ = x at hquiet hconnected ⊢
  obtain ⟨result, w⟩ := x
  cases hc : c.validate with
  | error fault =>
    rw [hc] at hconnected
    exact nomatch hconnected
  | ok _ =>
    cases result with
    | error fault =>
      rw [hc] at hconnected
      exact nomatch hconnected
    | ok _ =>
      refine ⟨fun _ ↦ .close, 0, ?_, rfl⟩
      have hdue : w.due = [] := hquiet.due.eq_nil
      exact {
        producer := rfl
        most := hquiet.most
        flushed := hquiet.flushed
        nextFlush := hquiet.nextFlush
        handles := congrArg Array.size hquiet.handles
        resolves := fun handle o ↦ by
          show w.state.handles[handle]?.bind (·.outcome) = some o ↔ _
          rw [hquiet.handles]
          simp [unconnected, Traffic.after, Traffic.start]
        launched := congrArg Array.size hquiet.batches
        batches := fun id b hb ↦ by simp [Traffic.after, Traffic.start] at hb
        once := hdue ▸ List.nodup_nil
        running := fun id hid ↦ absurd (hdue ▸ hid : id ∈ []) List.not_mem_nil }

/-- To let the last client go and all come to rest goes on with the course. -/
theorem Stands.finish (h : Stands c closed w) (hc : c.validate = .ok ()) : Stands c true w.finish := by
  have hclosed : Stands c true { w with state := { w.state with producer := w.state.producer.close } } :=
    h.act hc fun t done hshown hs ha _ ↦ ⟨.close, hshown.close, rfl⟩
  rw [Sharding.finish]
  exact (lasting hc true).waitFor _ _ (hclosed.quiet (quiet_wakeProducer _))

end Rehearsal

end Sharding

/-- How a rehearsed stream stands at the end is where a course of traffic goes, if it could be connected to. -/
theorem rehearsed_course {c : StreamConfig} (hc : c.validate = .ok ()) {script : ServiceScript}
    (hconnected : (Sharding.connect c script).1 = .ok ()) (steps : List ClientStep) :
    ∃ acts n, Sharding.Shows (rehearseShards c script steps).2 (Traffic.after c acts n) := by
  have hstands := Sharding.stands_connect hconnected
  rw [rehearseShards]
  generalize Sharding.connect c script = x at hconnected hstands ⊢
  obtain ⟨result, w⟩ := x
  obtain rfl : result = .ok () := hconnected
  obtain ⟨acts, n, hshown, -⟩ := (hstands.play hc steps).finish hc
  exact ⟨acts, n, hshown⟩

/-- When the producer has stopped at the end of a rehearsal, every handle has its outcome. -/
theorem outcome_of_rehearsed {c : StreamConfig} (hc : c.validate = .ok ()) {script : ServiceScript}
    (hconnected : (Sharding.connect c script).1 = .ok ()) (steps : List ClientStep)
    (hstopped : (rehearseShards c script steps).2.state.producer.stage = .stopped)
    {handle : Nat} (hlt : handle < (rehearseShards c script steps).2.state.handles.size) :
    (Sharding.clientele.outcome? (rehearseShards c script steps).2.state handle).isSome = true := by
  obtain ⟨acts, n, hshown⟩ := rehearsed_course hc hconnected steps
  have hs := Traffic.sound_after hc acts n
  have hreliable := (Traffic.accounted_after hc acts n).reliable hs
  rw [hshown.producer] at hstopped
  rw [hshown.handles] at hlt
  have hmem : handle ∈ (Traffic.after c acts n).resolved.map Prod.fst := by
    rw [(hreliable.stopped hstopped).2.2.2.mem_iff, hs.handles]
    exact List.mem_range.2 hlt
  obtain ⟨x, hx, rfl⟩ := List.mem_map.1 hmem
  have houtcome : Sharding.clientele.outcome? (rehearseShards c script steps).2.state x.1 = some x.2 :=
    (hshown.resolves x.1 x.2).2 hx
  rw [houtcome]
  rfl

end Tidemark.Rehearsal
