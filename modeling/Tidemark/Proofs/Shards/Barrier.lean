import Mathlib.Data.List.ReduceOption
import Tidemark.Proofs.Shards.Traffic

/-!
# Flushes and handles

Where a handle is, at every moment: it has resolved, or its record is in a batch that runs, or the producer
has yet to launch it. `Accounted` says that these three are together the handles that were given out, each in
one place. A batch that takes an answer moves handles from the second place to the first, and a step of the
producer moves them from the third to the second, or, in a crash, to the first.

A flush is answered when no batch runs, so that the second place is empty, and when what was said before it is
dealt with. Then every handle given out before it has resolved (`Accounted.resolved_of_idle`).
-/

namespace Tidemark.Shards

namespace Batch

/-- The records of a batch that is judged go two ways. -/
theorem judged_perm (judged : List (Submitted × Option Outcome)) :
    ((judged.filterMap fun (s, outcome) ↦ outcome.map (s.handle, ·)).map Prod.fst ++
      ((judged.filter (·.2.isNone)).map (·.1)).map (·.handle)).Perm
        (judged.map fun x ↦ x.1.handle) := by
  induction judged with
  | nil => exact .nil
  | cons x rest ih =>
    obtain ⟨s, outcome⟩ := x
    cases outcome with
    | some o => exact ih.cons s.handle
    | none => exact List.perm_middle.trans (ih.cons s.handle)

/-- An answer resolves the handles of the records that are not tried again. -/
theorem answered_perm (b : Batch) (answer : BatchAnswer) :
    ((b.answered answer).1.map Prod.fst ++ (b.answered answer).2.map (·.handle)).Perm
      (b.records.map (·.handle)) := by
  have hlength : b.records.length ≤ ((verdicts answer b.records).map
      (outcome? b.maxAttempts (b.attempts + 1))).length := by
    rw [verdicts_eq, List.length_map, List.length_map, List.length_range]
  have hfst := congrArg (List.map (·.handle)) (List.map_fst_zip hlength)
  rw [List.map_map] at hfst
  exact hfst ▸ judged_perm _

/-- The handles of the next request are those that an answer leaves. -/
theorem records_next? (b : Batch) (draw : Binary64) (answer : BatchAnswer) :
    (b.next? draw answer).toList.flatMap (·.records) = (b.answered answer).2 := by
  rw [next?]
  split
  · rename_i hnil
    exact (List.isEmpty_iff.1 hnil).symm
  · exact List.append_nil _

end Batch

namespace Traffic

/-! ### Where the handles are -/

/-- The batches that run. -/
def underway (t : Traffic) : List Batch :=
  t.batches.reduceOption

/-- The handles whose records are in batches that run. -/
def inBatches (t : Traffic) : List Nat :=
  (t.underway.flatMap (·.records)).map (·.handle)

/-- What the traffic of a producer keeps of handles and batches, with the messages dealt with. -/
structure Accounted (c : StreamConfig) (t : Traffic) (done : List Message) : Prop where
  running : t.producer.running = t.underway.length
  limit : t.underway.length ≤ c.maxOutstandingBatches
  handles : (t.resolved.map Prod.fst ++ t.inBatches ++
    (submits t.producer.todo).map (·.handle)).Perm ((submits t.said).map (·.handle))
  barrier : ∀ pre id post, done = pre ++ .flush id :: post →
    ∀ s ∈ submits pre, s.handle ∈ t.resolved.map Prod.fst

variable {c : StreamConfig} {t : Traffic} {done : List Message}

theorem accounted_start (c : StreamConfig) : (start c).Accounted c [] where
  running := rfl
  limit := Nat.zero_le _
  handles := by
    rw [start, Producer.todo_start]
    exact .nil
  barrier := fun pre id post h ↦ absurd h (by simp)

/-- What is said is only accounted for when it is dealt with. -/
theorem Accounted.say (h : t.Accounted c done) (m : Message) : (t.say m).Accounted c done := by
  rw [Traffic.say]
  split
  · exact { h with
      handles := by
        have hperm := h.handles.append_right ((submits [m]).map (·.handle))
        rw [List.append_assoc, ← List.map_append, ← List.map_append, ← submits_append,
          ← submits_append, ← Producer.todo_tell] at hperm
        exact hperm }
  · exact h

/-- The batch that takes an answer is replaced by what is left of it. -/
theorem reduceOption_set {α : Type} {l : List (Option α)} {i : Nat} {a : α} (h : l[i]? = some (some a))
    (x : Option α) : ∃ l₁ l₂, l.reduceOption = l₁ ++ a :: l₂ ∧
      (l.set i x).reduceOption = l₁ ++ x.toList ++ l₂ := by
  induction l generalizing i with
  | nil => exact absurd h (by simp)
  | cons y rest ih =>
    cases i with
    | zero =>
      rw [List.getElem?_cons_zero, Option.some.injEq] at h
      subst h
      refine ⟨[], rest.reduceOption, rfl, ?_⟩
      cases x <;> rfl
    | succ i =>
      obtain ⟨l₁, l₂, hl, hset⟩ := ih h
      refine ⟨y.toList ++ l₁, l₂, ?_, ?_⟩
      · cases y <;> simp [hl]
      · cases y <;> simp [hset]

/-- An answer changes the batch that takes it and no other one. -/
theorem underway_take {id : Nat} {b : Batch} (hb : t.batches[id]? = some (some b)) (draw : Binary64)
    (answer : BatchAnswer) : ∃ l₁ l₂, t.underway = l₁ ++ [b] ++ l₂ ∧
      (t.take id b draw answer).underway = l₁ ++ (b.next? draw answer).toList ++ l₂ := by
  obtain ⟨l₁, l₂, hbefore, hafter⟩ := reduceOption_set hb (b.next? draw answer)
  refine ⟨l₁, l₂, ?_, hafter⟩
  rw [List.append_assoc, List.singleton_append]
  exact hbefore

theorem underway_perform (t : Traffic) (producer : Producer) (act : ProducerAct) :
    (t.perform producer act).underway =
      t.underway ++ act.batches.map fun records ↦ Batch.start records t.maxAttempts := by
  rw [underway, perform, List.reduceOption_append]
  refine congrArg (t.underway ++ ·) ?_
  rcases act.batches_eq with hbatches | ⟨batch, hbatches⟩ <;> rw [hbatches] <;> rfl

theorem inBatches_eq {l₁ l₂ l₃ : List Batch} (h : t.underway = l₁ ++ l₂ ++ l₃) :
    t.inBatches = (l₁.flatMap (·.records)).map (·.handle) ++ (l₂.flatMap (·.records)).map (·.handle) ++
      (l₃.flatMap (·.records)).map (·.handle) := by
  rw [inBatches, h, List.flatMap_append, List.flatMap_append, List.map_append, List.map_append]

/-- An answer moves handles from a batch to those that have resolved, and loses none. -/
theorem Accounted.take {id : Nat} {b : Batch} (h : t.Accounted c done)
    (hb : t.batches[id]? = some (some b)) (draw : Binary64) (answer : BatchAnswer) :
    (t.take id b draw answer).Accounted c done := by
  obtain ⟨l₁, l₂, hbefore, hafter⟩ := underway_take hb draw answer
  have hresolved : (t.take id b draw answer).resolved.map Prod.fst =
      t.resolved.map Prod.fst ++ (b.answered answer).1.map Prod.fst :=
    List.map_append
  have hlength : t.underway.length = l₁.length + 1 + l₂.length := by
    rw [hbefore, List.length_append, List.length_append, List.length_singleton]
  have hlength' : (t.take id b draw answer).underway.length =
      l₁.length + (b.next? draw answer).toList.length + l₂.length := by
    rw [hafter, List.length_append, List.length_append]
  have hsaid : (t.take id b draw answer).said = t.said := rfl
  have htodo : (t.take id b draw answer).producer.todo = t.producer.todo := by
    rw [Traffic.take]
    cases b.next? draw answer <;> rfl
  exact {
    running := by
      have hrunning := h.running
      rw [hlength', Traffic.take]
      cases b.next? draw answer with
      | some b' =>
        show t.producer.running = l₁.length + 1 + l₂.length
        omega
      | none =>
        show t.producer.running - 1 = l₁.length + 0 + l₂.length
        omega
    limit := by
      have hlimit := h.limit
      have hle := Option.length_toList_le (o := b.next? draw answer)
      omega
    handles := by
      rw [List.perm_iff_count]
      intro n
      have hn := List.perm_iff_count.1 h.handles n
      have hanswered := List.perm_iff_count.1 (b.answered_perm answer) n
      rw [inBatches_eq hbefore] at hn
      rw [htodo, hsaid, hresolved, inBatches_eq hafter, b.records_next?]
      simp only [List.count_append, List.flatMap_singleton] at hn hanswered ⊢
      omega
    barrier := fun pre n post hdone s hs ↦ by
      rw [hresolved]
      exact List.mem_append_left _ (h.barrier pre n post hdone s hs) }

/-- When no batch runs, every handle whose record is dealt with has resolved. -/
theorem Accounted.resolved_of_idle (h : t.Accounted c done) (hs : t.Sound c done)
    (halive : t.producer.stage ≠ .crashed) (hidle : t.producer.running = 0) :
    (t.resolved.map Prod.fst).Perm ((submits done).map (·.handle)) := by
  have hnone : t.inBatches = [] := by
    rw [inBatches, List.eq_nil_of_length_eq_zero (h.running.symm.trans hidle)]
    rfl
  have hperm := h.handles
  rw [hnone, List.append_nil, hs.done_eq halive, submits_append, List.map_append] at hperm
  exact (List.perm_append_right_iff _).1 hperm

theorem mem_flushes {l : List Message} {id : Nat} : id ∈ flushes l ↔ .flush id ∈ l := by
  rw [flushes, List.mem_filterMap]
  constructor
  · rintro ⟨m, hm, hid⟩
    cases m with
    | submit s => exact absurd hid (by simp)
    | flush id' => rwa [← Option.some.inj hid]
  · exact fun h ↦ ⟨_, h, rfl⟩

/-- Where a handle goes in a step of the producer. -/
theorem handles_eq {now : Instant} {p p' : Producer} {act : ProducerAct} (h : p.Move now p' act)
    (hp : p.Sound) :
    (submits p.todo).map (·.handle) =
      act.batches.flatten.map (·.handle) ++ act.lost ++ (submits p'.todo).map (·.handle) := by
  rcases h.sound hp with ⟨-, rfl, hnil⟩ | ⟨-, hlost, htodo, -⟩
  · rw [hnil]
    exact (List.append_nil _).symm
  · rw [htodo, hlost, submits_append, act.submits_done, List.append_nil, List.map_append]

/-- A step of the producer moves handles from what is left to do to a batch, and loses none. -/
theorem Accounted.perform {now : Instant} {producer : Producer} {act : ProducerAct} (h : t.Accounted c done)
    (hs : t.Sound c done) (hmove : t.producer.Move now producer act) :
    (t.perform producer act).Accounted c (done ++ act.done) := by
  have halive := hmove.stage_ne_crashed
  have hp := hs.producer halive
  obtain ⟨hrunning, hlaunched⟩ := hmove.launches hp
  have hlength : (t.perform producer act).underway.length = t.underway.length + act.batches.length := by
    rw [underway_perform, List.length_append, List.length_map]
  have hresolved : (t.perform producer act).resolved.map Prod.fst =
      t.resolved.map Prod.fst ++ act.lost := by
    rw [Traffic.perform, List.map_append, List.map_map]
    exact congrArg _ (List.map_id _)
  exact {
    running := by
      rw [hlength, ← h.running]
      exact hrunning
    limit := by
      rw [hlength, ← h.running]
      rcases act.batches_eq with hbatches | ⟨batch, hbatches⟩
      · rw [hbatches, h.running]
        exact h.limit
      · rw [hbatches, ← hs.permits]
        exact (hlaunched batch (by rw [hbatches]; exact List.mem_singleton_self _)).2.2
    handles := by
      have hin : (t.perform producer act).inBatches =
          t.inBatches ++ act.batches.flatten.map (·.handle) := by
        rw [inBatches, underway_perform, List.flatMap_append, List.map_append, List.flatMap_map,
          ← List.flatMap_id]
        rfl
      have hsaid : (t.perform producer act).said = t.said := rfl
      have htodo : (t.perform producer act).producer.todo = producer.todo := rfl
      rw [List.perm_iff_count]
      intro n
      have hn := List.perm_iff_count.1 h.handles n
      rw [handles_eq hmove hp] at hn
      rw [hresolved, hin, hsaid, htodo]
      simp only [List.count_append] at hn ⊢
      omega
    barrier := by
      intro pre id post hdone s hmem
      rw [hresolved]
      refine List.mem_append_left _ ?_
      have hnodup : (flushes (done ++ act.done)).Nodup := by
        have hsub : flushes (done ++ act.done) <+: flushes t.said :=
          (hs.perform hmove).dealt.filterMap _
        exact hsub.sublist.nodup hs.nodup_flushes
      have hid : id ∈ flushes done ∨ id ∈ flushes act.done := by
        rw [← List.mem_append, ← flushes_append, hdone]
        exact mem_flushes.2 (by simp)
      rcases hid with hold | hnew
      · -- the flush was answered before
        obtain ⟨pre', post', hsplit⟩ := List.append_of_mem (mem_flushes.1 hold)
        have hdone' : done ++ act.done = pre' ++ .flush id :: (post' ++ act.done) := by
          rw [hsplit, List.append_assoc, List.cons_append]
        have hpre : pre = pre' := pre_unique hnodup hdone' hdone
        exact h.barrier pre' id post' hsplit s (hpre ▸ hmem)
      · -- it is answered now, and no batch runs
        obtain ⟨rfl, hidle⟩ := hmove.idle_of_flushed hnew
        have hpre : pre = done := pre_unique hnodup rfl hdone
        have hall := h.resolved_of_idle hs halive hidle
        exact hall.mem_iff.2 (List.mem_map_of_mem (hpre ▸ hmem)) }

theorem Accounted.act (h : t.Accounted c done) (hs : t.Sound c done) (a : Act) :
    (t.act a).Accounted c (done ++ t.did a) := by
  have hkept : done ++ [] = done := List.append_nil done
  cases a with
  | submit record => exact hkept.symm ▸ h.say _
  | flush => exact hkept.symm ▸ h.say _
  | close => exact hkept.symm ▸ { h with }
  | proceed now deadlineFirst =>
    rw [Traffic.act, did]
    cases hchoose : t.producer.choose? now deadlineFirst with
    | none => exact hkept.symm ▸ h
    | some x => exact h.perform hs (Producer.move_of_choose? hchoose)
  | answer id draw answer =>
    refine hkept.symm ▸ (?_ : (t.act (.answer id draw answer)).Accounted c done)
    rw [Traffic.act]
    split
    · rename_i b hb
      exact h.take hb draw answer
    · exact h

/-- At every moment all handles are accounted for. -/
theorem accounted_after (hc : c.validate = .ok ()) (acts : Nat → Act) (n : Nat) :
    (after c acts n).Accounted c (doneBy c acts n) := by
  induction n with
  | zero => exact accounted_start c
  | succ n ih => exact ih.act (sound_after hc acts n) (acts n)

/-! ### What a flush promises -/

/-- What the clients of a producer may rely on at any moment. -/
structure Reliable (c : StreamConfig) (t : Traffic) : Prop where
  /-- When a flush was answered, the handles given out before it have resolved. -/
  barrier : ∀ id ∈ t.flushed, ∀ pre post, t.said = pre ++ .flush id :: post →
    ∀ s ∈ submits pre, s.handle ∈ t.resolved.map Prod.fst
  said_of_flushed : ∀ id ∈ t.flushed, .flush id ∈ t.said
  /-- No handle resolves twice. -/
  once : (t.resolved.map Prod.fst).Nodup
  /-- A producer stops after the last client is gone, everything is written and every handle has resolved. -/
  stopped : t.producer.stage = .stopped → t.producer.closed = true ∧
    t.launched.flatten = submits t.said ∧ t.underway = [] ∧
      (t.resolved.map Prod.fst).Perm ((submits t.said).map (·.handle))
  permits : t.underway.length ≤ c.maxOutstandingBatches

/-- Where every handle is accounted for and all is in order, the clients may rely on a flush. -/
theorem Accounted.reliable (h : t.Accounted c done) (hs : t.Sound c done) : t.Reliable c where
  barrier := by
    intro id hid pre post hsaid s hmem
    rw [← hs.flushed] at hid
    obtain ⟨pre', post', hsplit⟩ := List.append_of_mem (mem_flushes.1 hid)
    obtain ⟨rest, hrest⟩ := hs.dealt
    have hsaid' : t.said = pre' ++ .flush id :: (post' ++ rest) := by
      rw [← hrest, hsplit, List.append_assoc, List.cons_append]
    have hpre : pre = pre' := pre_unique hs.nodup_flushes hsaid' hsaid
    exact h.barrier pre' id post' hsplit s (hpre ▸ hmem)
  said_of_flushed := by
    intro id hid
    rw [← hs.flushed] at hid
    exact hs.dealt.subset (mem_flushes.1 hid)
  once := by
    have hall := h.handles.nodup_iff.2 hs.nodup_handles
    exact ((List.sublist_append_left _ _).trans (List.sublist_append_left _ _)).nodup hall
  stopped := by
    intro hstopped
    have halive : t.producer.stage ≠ .crashed := by
      rw [hstopped]
      simp
    have hp := hs.producer halive
    have hidle := hp.idle hstopped
    have hlaunched := hs.inOrder.whole hstopped
    refine ⟨(hp.ending (by rw [hstopped]; trivial)).1, hlaunched,
      List.eq_nil_of_length_eq_zero (h.running.symm.trans hidle), ?_⟩
    rw [← hlaunched, ← hs.launched]
    exact h.resolved_of_idle hs halive hidle
  permits := h.limit

end Traffic

end Tidemark.Shards
