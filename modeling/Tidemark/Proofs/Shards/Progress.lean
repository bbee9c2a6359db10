import Mathlib.Data.Nat.Pairing
import Tidemark.Proofs.Shards.Barrier

/-!
# A producer that is left stops

After the last client is gone, nothing is said any more, and every act either leaves the traffic as it is or
uses up some of the work that is left (`Traffic.act_eq_or_lt`). `Traffic.work` measures it: what the
producer may still go through, and the attempts that the batches still have. A message counts for more than
the stages that it takes the producer through, and a record for more than a batch of its own:

```
stage of the producer      stopped 0 < settling 1 < dispatching 2 < listening 3 < a flush 4, 5
a batch to be launched     its attempts and one more
a buffer, a record         more than a batch and the way through dispatching
```

While there is work left, some act uses it up: the producer can go on, or a batch waits for an answer
(`Sound.exists_enabled`). So under a schedule that lets the producer run again and again and brings every
answer, the producer stops (`exists_ended`).
-/

namespace Tidemark.Shards

/-! ### The work that is left -/

/-- What it takes to go on after a batch is handed over, if a record has so many attempts. -/
def Continuation.work (most : Nat) : Continuation → Nat
  | gather _ => most + 7
  | listen => 4
  | flush _ => 5
  | close => 2

def ProducerStage.work (most : Nat) : ProducerStage → Nat
  | listening => 3
  | dispatching batch next => (if batch.isEmpty then 0 else most + 1) + next.work most
  | settling (some _) => 4
  | settling none => 1
  | stopped => 0
  | crashed => 0

def Message.work (most : Nat) : Message → Nat
  | submit _ => most + 5
  | flush _ => 3

namespace Producer

/-- What a producer may still go through. -/
def work (most : Nat) (p : Producer) : Nat :=
  p.stage.work most + (if p.buffer.isEmpty then 0 else most + 3) +
    (p.inbox.map (Message.work most)).sum

variable {p p' : Producer} {now : Instant} {act : ProducerAct} {most : Nat}

/-- To gather a record takes no more work than it was reckoned for, and launches nothing. -/
theorem Gathers.work_le {s : Submitted} (h : p.Gathers now s p' act) (most : Nat) :
    p'.work most ≤ most + 6 + (p.inbox.map (Message.work most)).sum ∧ act.batches = [] := by
  cases h with
  | crashed _ => exact ⟨Nat.zero_le _, rfl⟩
  | kept _ _ =>
    refine ⟨?_, rfl⟩
    simp only [work, keep, ProducerStage.work, List.isEmpty_iff, List.append_eq_nil_iff, List.cons_ne_self,
      and_false, if_false, Nat.add_le_add_iff_right]
    omega
  | filled _ _ =>
    refine ⟨?_, rfl⟩
    simp [work, keep, handOver, ProducerStage.work, Continuation.work]

/-- What handing the buffer over leaves to do. -/
theorem work_handOver (p : Producer) (next : Continuation) :
    (p.handOver next).work most = (if p.buffer.isEmpty then 0 else most + 1) + next.work most +
      (p.inbox.map (Message.work most)).sum := by
  simp [work, handOver, ProducerStage.work]

/-- What a message triggers uses up the work that it was reckoned for. -/
theorem Triggers.work_lt {next : Continuation} {rest : List Message} (h : p.Triggers now next rest)
    (hp : p.Sound) (hstage : p.stage = .listening) :
    ({ p with inbox := rest }.handOver next).work most < p.work most := by
  rw [work_handOver, work, hstage]
  cases h with
  | tooLarge hinbox _ =>
    simp only [hinbox, ProducerStage.work, Continuation.work, Message.work, List.map_cons, List.sum_cons]
    split <;> omega
  | flush hinbox =>
    simp only [hinbox, ProducerStage.work, Continuation.work, Message.work, List.map_cons, List.sum_cons]
    split <;> omega
  | closed hinbox _ =>
    simp only [hinbox, ProducerStage.work, Continuation.work, List.map_nil, List.sum_nil]
    split <;> omega
  | overdue hdeadline _ =>
    -- an empty buffer has no deadline, so there is something to hand over
    have hbuffer : p.buffer ≠ [] := by
      intro hnil
      rw [hp.armed.2 hnil] at hdeadline
      exact absurd hdeadline (by simp)
    simp only [List.isEmpty_iff, hbuffer, if_false, ProducerStage.work, Continuation.work]
    omega

/-- A step uses up more work than the batch that it launches has attempts. -/
theorem Move.work_lt (h : p.Move now p' act) (most : Nat) (hp : p.Sound) :
    p'.work most + act.batches.length * most < p.work most := by
  cases h with
  | handedOver hstage htriggers => simpa [ProducerAct.batches] using htriggers.work_lt hp hstage
  | gathered hstage hinbox _ hgathers =>
    obtain ⟨hle, hbatches⟩ := hgathers.work_le most
    simp only [hbatches, work, hstage, hinbox, List.map_cons, List.sum_cons, ProducerStage.work, Message.work,
      List.length_nil] at hle ⊢
    omega
  | regathered hstage hgathers =>
    obtain ⟨hle, hbatches⟩ := hgathers.work_le most
    rw [hbatches]
    simp only [work, hstage, ProducerStage.work, Continuation.work, List.isEmpty_nil, if_true,
      List.length_nil] at hle ⊢
    omega
  | spawned hstage hne _ =>
    simp only [work, hstage, List.isEmpty_iff, hne, if_false, if_true, ProducerStage.work, ProducerAct.batches,
      List.isEmpty_nil, List.length_singleton]
    omega
  | resumed hstage | flushing hstage | closing hstage | flushed hstage _ | stopped hstage _ =>
    simp [work, settle, hstage, ProducerStage.work, Continuation.work, ProducerAct.batches]

/-- A producer that nobody is left to speak to can go on, if no batch runs and it has not ended. -/
theorem exists_step (hclosed : p.closed = true) (halive : p.isAlive = true) (hidle : p.running = 0)
    (hpermits : 0 < p.maxOutstandingBatches) (now : Instant) (deadlineFirst : Bool) :
    ∃ x, p.choose? now deadlineFirst = some x := by
  have hstep : ∃ x, p.step? now = some x := by
    rw [step?]
    cases hstage : p.stage with
    | listening =>
      cases hinbox : p.inbox with
      | nil => exact ⟨_, if_pos hclosed⟩
      | cons m rest => exact ⟨_, rfl⟩
    | dispatching batch next =>
      cases batch with
      | nil => exact ⟨_, rfl⟩
      | cons s rest => exact ⟨_, if_pos (by rwa [hidle])⟩
    | settling next =>
      cases next with
      | none => exact ⟨_, if_pos hidle⟩
      | some id => exact ⟨_, if_pos hidle⟩
    | stopped =>
      rw [isAlive, hstage] at halive
      exact absurd halive (by simp)
    | crashed =>
      rw [isAlive, hstage] at halive
      exact absurd halive (by simp)
  rw [choose?]
  split
  · split
    · exact ⟨_, rfl⟩
    · exact hstep
  · exact hstep

/-- No record that is gathered crashes the producer if the clock counts to its deadline. -/
theorem Gathers.stage_ne_crashed {s : Submitted} (h : p.Gathers now s p' act)
    (harmed : p.deadline = none → p.buffer = []) (hnow : (now.after? p.maxBufferedTime).isSome = true) :
    p'.stage ≠ .crashed := by
  cases h with
  | crashed hdeadline =>
    rw [deadlineAt] at hdeadline
    split at hdeadline
    · rw [hdeadline] at hnow
      exact absurd hnow (by simp)
    · rename_i hbuffer
      exact absurd (List.isEmpty_iff.2 (harmed hdeadline)) hbuffer
  | kept _ _ => simp
  | filled _ _ => simp

/-- A step does not crash if a clock counts to the deadline that it may set. -/
theorem Move.stage_ne_crashed_of_clock (h : p.Move now p' act) (hp : p.Sound)
    (hnow : (now.after? p.maxBufferedTime).isSome = true) : p'.stage ≠ .crashed := by
  cases h with
  | gathered _ _ _ hgathers => exact hgathers.stage_ne_crashed hp.armed.1 hnow
  | regathered _ hgathers => exact hgathers.stage_ne_crashed hp.armed.1 hnow
  | _ => simp

end Producer

namespace Batch

/-- The attempts that a batch still has. -/
def work (b : Batch) : Nat :=
  b.maxAttempts - b.attempts

/-- A batch that goes on has used an attempt up, and has one left. -/
theorem next?_cases (b : Batch) (draw : Binary64) (answer : BatchAnswer) :
    b.next? draw answer = none ∨ ∃ b', b.next? draw answer = some b' ∧
      b'.attempts = b.attempts + 1 ∧ b'.maxAttempts = b.maxAttempts ∧ b.attempts + 1 < b.maxAttempts := by
  rw [next?]
  split
  · exact Or.inl rfl
  · rename_i hagain
    refine Or.inr ⟨_, rfl, rfl, rfl, ?_⟩
    -- some record is tried again
    have hne : (b.answered answer).2 ≠ [] := by simpa using hagain
    obtain ⟨s, hs⟩ := List.exists_mem_of_ne_nil _ hne
    obtain ⟨x, hx, -⟩ := List.mem_map.1 hs
    obtain ⟨hx, hnone⟩ := List.mem_filter.1 hx
    obtain ⟨v, -, hv⟩ := List.mem_map.1 (List.of_mem_zip hx).2
    rw [← hv] at hnone
    exact (outcome?_eq_none_iff.1 (Option.isNone_iff_eq_none.1 hnone)).2

end Batch

namespace Traffic

/-- What the producer and its batches may still go through. -/
def work (t : Traffic) : Nat :=
  t.producer.work t.maxAttempts + (t.underway.map Batch.work).sum

/-- Every batch that runs has an attempt left. -/
structure Trying (c : StreamConfig) (t : Traffic) : Prop where
  most : t.maxAttempts = c.maxRecordAttempts
  left : ∀ b ∈ t.underway, b.attempts < b.maxAttempts

variable {c : StreamConfig} {t : Traffic} {done : List Message}

theorem trying_start (c : StreamConfig) : (start c).Trying c where
  most := rfl
  left := by simp [underway, start]

/-- A batch that is launched has an attempt left, for a record has at least one. -/
theorem Trying.perform (ht : t.Trying c) (hmost : 1 ≤ c.maxRecordAttempts) (producer : Producer)
    (act : ProducerAct) : (t.perform producer act).Trying c where
  most := ht.most
  left := by
    intro b hb
    rw [underway_perform, List.mem_append, List.mem_map] at hb
    rcases hb with hold | ⟨records, -, rfl⟩
    · exact ht.left b hold
    · show 0 < t.maxAttempts
      rw [ht.most]
      exact hmost

theorem Trying.take {id : Nat} {b : Batch} (ht : t.Trying c) (hb : t.batches[id]? = some (some b))
    (draw : Binary64) (answer : BatchAnswer) : (t.take id b draw answer).Trying c where
  most := ht.most
  left := by
    intro b' hb'
    obtain ⟨l₁, l₂, hbefore, hafter⟩ := underway_take hb draw answer
    rw [hafter, List.append_assoc, List.mem_append, List.mem_append, Option.mem_toList] at hb'
    rcases hb' with hl | hnext | hr
    · exact ht.left b' (by rw [hbefore]; simp [hl])
    · rcases b.next?_cases draw answer with hnone | ⟨b'', hsome, hattempts, hmost, hlt⟩
      · rw [hnone] at hnext
        exact absurd hnext (by simp)
      · rw [hsome, Option.some.injEq] at hnext
        subst hnext
        omega
    · exact ht.left b' (by rw [hbefore]; simp [hr])

theorem Trying.say (ht : t.Trying c) (m : Message) : (t.say m).Trying c := by
  rw [Traffic.say]
  split
  · exact { ht with }
  · exact ht

/-- Every act leaves the batches that run an attempt. -/
theorem Trying.act (ht : t.Trying c) (hmost : 1 ≤ c.maxRecordAttempts) (a : Act) : (t.act a).Trying c := by
  cases a with
  | submit record => exact ht.say _
  | flush => exact ht.say _
  | close => exact { ht with }
  | proceed now deadlineFirst =>
    rw [Traffic.act]
    split
    · exact ht.perform hmost _ _
    · exact ht
  | answer id draw answer =>
    rw [Traffic.act]
    split
    · rename_i b hb
      exact ht.take hb draw answer
    · exact ht

/-- At every moment every batch that runs has an attempt left. -/
theorem trying_after (hc : c.validate = .ok ()) (acts : Nat → Act) (n : Nat) :
    (after c acts n).Trying c := by
  induction n with
  | zero => exact trying_start c
  | succ n ih => exact ih.act (c.bounds_of_validate hc).2.2.2 (acts n)

/-! ### Every act counts -/

theorem work_perform_lt {now : Instant} {producer : Producer} {act : ProducerAct} (hs : t.Sound c done)
    (hmove : t.producer.Move now producer act) : (t.perform producer act).work < t.work := by
  have hlt := hmove.work_lt t.maxAttempts (hs.producer hmove.stage_ne_crashed)
  have hlaunched : ((act.batches.map fun records ↦ Batch.start records t.maxAttempts).map Batch.work).sum =
      act.batches.length * t.maxAttempts := by
    rcases act.batches_eq with hbatches | ⟨batch, hbatches⟩ <;>
      simp [hbatches, Batch.work, Batch.start]
  have hproducer : (t.perform producer act).producer.work (t.perform producer act).maxAttempts =
      producer.work t.maxAttempts := rfl
  rw [work, work, hproducer, underway_perform, List.map_append, List.sum_append, hlaunched]
  omega

theorem work_take_lt {id : Nat} {b : Batch} (ht : t.Trying c) (hb : t.batches[id]? = some (some b))
    (draw : Binary64) (answer : BatchAnswer) : (t.take id b draw answer).work < t.work := by
  obtain ⟨l₁, l₂, hbefore, hafter⟩ := underway_take hb draw answer
  have hleft : b.attempts < b.maxAttempts := ht.left b (by rw [hbefore]; simp)
  have hnext : ((b.next? draw answer).toList.map Batch.work).sum < b.work := by
    rw [Batch.work]
    rcases b.next?_cases draw answer with hnone | ⟨b', hsome, hattempts, hmost, hlt⟩
    · rw [hnone]
      exact Nat.sub_pos_of_lt hleft
    · rw [hsome, Option.toList_some, List.map_singleton, List.sum_singleton, Batch.work]
      omega
  have hproducer : (t.take id b draw answer).producer.work (t.take id b draw answer).maxAttempts =
      t.producer.work t.maxAttempts := by
    rw [take]
    cases b.next? draw answer <;> rfl
  rw [work, work, hproducer, hbefore, hafter]
  simp only [List.map_append, List.sum_append, List.map_singleton, List.sum_singleton]
  omega

/-- Once nobody is left to say anything, an act uses up some of the work that is left, or does nothing. -/
theorem act_eq_or_lt (hs : t.Sound c done) (ht : t.Trying c) (hclosed : t.producer.closed = true) (a : Act) :
    t.act a = t ∨ (t.act a).work < t.work := by
  have hsay (m : Message) : t.say m = t := by
    rw [Traffic.say, isOpen, hclosed, Bool.not_true, Bool.and_false, if_neg Bool.false_ne_true]
  cases a with
  | submit record => exact Or.inl (hsay _)
  | flush => exact Or.inl (hsay _)
  | close =>
    have hsame : t.producer.close = t.producer := by
      rw [Producer.close, ← hclosed]
    exact Or.inl (by rw [Traffic.act, hsame])
  | proceed now deadlineFirst =>
    rw [Traffic.act]
    cases hchoose : t.producer.choose? now deadlineFirst with
    | none => exact Or.inl rfl
    | some x => exact Or.inr (work_perform_lt hs (Producer.move_of_choose? hchoose))
  | answer id draw answer =>
    rw [Traffic.act]
    split
    · rename_i b hb
      exact Or.inr (work_take_lt ht hb draw answer)
    · exact Or.inl rfl

/-! ### The producer stops -/

/-- Nothing but its own act closes the producer. -/
theorem closed_act_of_ne {a : Act} (ha : a ≠ .close) : (t.act a).producer.closed = t.producer.closed := by
  have hsay (m : Message) : (t.say m).producer.closed = t.producer.closed := by
    rw [Traffic.say]
    split <;> rfl
  cases a with
  | submit record => exact hsay _
  | flush => exact hsay _
  | close => exact absurd rfl ha
  | proceed now deadlineFirst =>
    rw [Traffic.act]
    cases hchoose : t.producer.choose? now deadlineFirst with
    | none => rfl
    | some x => exact (Producer.move_of_choose? hchoose).frame.2.2.2
  | answer id draw answer =>
    rw [Traffic.act]
    split
    · rename_i b hb
      rw [take]
      cases b.next? draw answer <;> rfl
    · rfl

/-- A closed producer stays closed in every act. -/
theorem closed_act (hclosed : t.producer.closed = true) (a : Act) : (t.act a).producer.closed = true := by
  by_cases ha : a = .close
  · rw [ha]
    rfl
  · rw [closed_act_of_ne ha, hclosed]

/-- While a producer that nobody is left to speak to has not ended, it can go on or a batch waits. -/
theorem Sound.exists_enabled (hs : t.Sound c done) (h : t.Accounted c done) (hc : c.validate = .ok ())
    (hclosed : t.producer.closed = true) (halive : t.producer.isAlive = true) :
    (∀ now deadlineFirst, ∃ x, t.producer.choose? now deadlineFirst = some x) ∨
      ∃ (id : Nat) (b : Batch), t.batches[id]? = some (some b) := by
  cases hunderway : t.underway with
  | nil =>
    have hidle : t.producer.running = 0 := by
      rw [h.running, hunderway]
      rfl
    have hpermits : 0 < t.producer.maxOutstandingBatches := by
      rw [hs.permits]
      exact (c.bounds_of_validate hc).2.2.1
    exact Or.inl (Producer.exists_step hclosed halive hidle hpermits)
  | cons b rest =>
    have hmem : some b ∈ t.batches := by
      rw [← List.reduceOption_mem_iff, ← underway, hunderway]
      exact List.mem_cons_self
    obtain ⟨id, hid⟩ := List.getElem?_of_mem hmem
    exact Or.inr ⟨id, b, hid⟩

/-- The producer gets to run again and again, and every batch has its answers. -/
structure Fair (c : StreamConfig) (acts : Nat → Act) : Prop where
  proceeds : ∀ n, ∃ m, n ≤ m ∧ ∃ now deadlineFirst, acts m = .proceed now deadlineFirst
  answers : ∀ n (id : Nat) b, (after c acts n).batches[id]? = some (some b) →
    ∃ m, n ≤ m ∧ ∃ draw answer, acts m = .answer id draw answer

/-- Permits and clocks count as far as they have to. -/
structure Calm (c : StreamConfig) (acts : Nat → Act) : Prop where
  permits : c.maxOutstandingBatches ≤ Producer.mostPermits
  clocks : ∀ n now deadlineFirst, acts n = .proceed now deadlineFirst →
    (now.after? c.maxBufferedTime).isSome = true

variable {acts : Nat → Act}

/-- A producer on such permits and clocks never crashes. -/
theorem stage_ne_crashed_after (hc : c.validate = .ok ()) (hcalm : Calm c acts) (n : Nat) :
    (after c acts n).producer.stage ≠ .crashed := by
  induction n with
  | zero =>
    show (if c.maxOutstandingBatches ≤ Producer.mostPermits then ProducerStage.listening
      else .crashed) ≠ .crashed
    rw [if_pos hcalm.permits]
    simp
  | succ n ih =>
    have hs := sound_after hc acts n
    have hsay (m : Message) : ((after c acts n).say m).producer.stage ≠ .crashed := by
      rw [Traffic.say]
      split <;> exact ih
    rw [after]
    cases hact : acts n with
    | submit record => exact hsay _
    | flush => exact hsay _
    | close => exact ih
    | proceed now deadlineFirst =>
      rw [Traffic.act]
      cases hchoose : (after c acts n).producer.choose? now deadlineFirst with
      | none => exact ih
      | some x =>
        have hnow := hs.wait ▸ hcalm.clocks n now deadlineFirst hact
        exact (Producer.move_of_choose? hchoose).stage_ne_crashed_of_clock (hs.producer ih) hnow
    | answer id draw answer =>
      rw [Traffic.act]
      split
      · rename_i b hb
        rw [take]
        cases b.next? draw answer <;> exact ih
      · exact ih

theorem closed_of_le {n m : Nat} (hle : n ≤ m) (hclosed : (after c acts n).producer.closed = true) :
    (after c acts m).producer.closed = true := by
  induction m, hle using Nat.le_induction with
  | base => exact hclosed
  | succ m _ ih => exact closed_act ih (acts m)

/-- Until some work is used up, the traffic stays as it is. -/
theorem after_eq_or_lt (hc : c.validate = .ok ()) {n m : Nat} (hle : n ≤ m)
    (hclosed : (after c acts n).producer.closed = true) :
    after c acts m = after c acts n ∨
      ∃ k, n ≤ k ∧ (after c acts k).work < (after c acts n).work := by
  induction m, hle using Nat.le_induction with
  | base => exact Or.inl rfl
  | succ m hle ih =>
    rcases ih with hsame | hless
    · have hact := act_eq_or_lt (sound_after hc acts m) (trying_after hc acts m)
        (closed_of_le hle hclosed) (acts m)
      rcases hact with hquiet | hlt
      · exact Or.inl (hquiet.trans hsame)
      · exact Or.inr ⟨m + 1, Nat.le_succ_of_le hle, hsame ▸ hlt⟩
    · exact Or.inr hless

/-- While the producer has not ended, some work is used up some time. -/
theorem exists_work_lt (hc : c.validate = .ok ()) (hfair : Fair c acts) {n : Nat}
    (hclosed : (after c acts n).producer.closed = true)
    (halive : (after c acts n).producer.isAlive = true) :
    ∃ k, n ≤ k ∧ (after c acts k).work < (after c acts n).work := by
  have hs := sound_after hc acts n
  rcases hs.exists_enabled (accounted_after hc acts n) hc hclosed halive with hstep | ⟨id, b, hb⟩
  · obtain ⟨m, hle, now, deadlineFirst, hact⟩ := hfair.proceeds n
    rcases after_eq_or_lt hc hle hclosed with hsame | hless
    · obtain ⟨x, hx⟩ := hstep now deadlineFirst
      refine ⟨m + 1, Nat.le_succ_of_le hle, ?_⟩
      rw [after, hact, hsame, Traffic.act, hx]
      exact work_perform_lt hs (Producer.move_of_choose? hx)
    · exact hless
  · obtain ⟨m, hle, draw, answer, hact⟩ := hfair.answers n id b hb
    rcases after_eq_or_lt hc hle hclosed with hsame | hless
    · refine ⟨m + 1, Nat.le_succ_of_le hle, ?_⟩
      rw [after, hact, hsame, Traffic.act, hb]
      exact work_take_lt (trying_after hc acts n) hb draw answer
    · exact hless

/-- A producer that nobody is left to speak to ends. -/
theorem exists_ended (hc : c.validate = .ok ()) (hfair : Fair c acts) {n : Nat}
    (hclosed : (after c acts n).producer.closed = true) :
    ∃ m, n ≤ m ∧ (after c acts m).producer.isAlive = false := by
  induction hwork : (after c acts n).work using Nat.strong_induction_on generalizing n with
  | _ w ih =>
    cases halive : (after c acts n).producer.isAlive with
    | false => exact ⟨n, Nat.le_refl n, halive⟩
    | true =>
      obtain ⟨k, hnk, hlt⟩ := exists_work_lt hc hfair hclosed halive
      obtain ⟨m, hkm, hended⟩ := ih _ (hwork ▸ hlt) (closed_of_le hnk hclosed) rfl
      exact ⟨m, Nat.le_trans hnk hkm, hended⟩

/-- At any moment, the handles given out before a flush that was answered have resolved, no handle has resolved
twice, and no more batches run than may. Once the last client is gone, the producer writes what it holds, and
stops when every handle has resolved. -/
theorem flush_is_barrier (hc : c.validate = .ok ()) (acts : Nat → Act) :
    (∀ n, (after c acts n).Reliable c) ∧
      (Calm c acts → Fair c acts → ∀ n, (after c acts n).producer.closed = true →
        ∃ m, n ≤ m ∧ (after c acts m).producer.stage = .stopped) := by
  refine ⟨fun n ↦ (accounted_after hc acts n).reliable (sound_after hc acts n), ?_⟩
  intro hcalm hfair n hclosed
  obtain ⟨m, hle, hended⟩ := exists_ended hc hfair hclosed
  refine ⟨m, hle, ?_⟩
  have halive := stage_ne_crashed_after hc hcalm m
  rw [Producer.isAlive] at hended
  split at hended
  · assumption
  · rename_i hcrashed
    exact absurd hcrashed halive
  · exact absurd hended (by simp)

/-- Every batch has its turn again and again. -/
def everyBatch (n : Nat) : Nat :=
  (n / 2).unpair.1

theorem threeSubmits_of_le (batch : Nat → Nat) {n : Nat} (hn : 5 ≤ n) :
    threeSubmits batch n = if n % 2 = 0 then .proceed Instant.start false
      else .answer (batch n) (Binary64.ofNat 1) (.ok (List.replicate 2 (.accepted ⟨"shard", none⟩))) := by
  rw [threeSubmits, List.getElem?_eq_none hn, Option.getD_none]

/-- The producer and every batch have their turns again and again. -/
theorem fair_threeSubmits : Fair pairs (threeSubmits everyBatch) where
  proceeds := by
    intro n
    refine ⟨2 * (n + 3), by omega, Instant.start, false, ?_⟩
    rw [threeSubmits_of_le _ (by omega), if_pos (by omega)]
  answers := by
    intro n id b _
    have hle := Nat.right_le_pair id (n + 5)
    have hbatch : everyBatch (2 * Nat.pair id (n + 5) + 1) = id := by
      have hhalf : (2 * Nat.pair id (n + 5) + 1) / 2 = Nat.pair id (n + 5) := by omega
      rw [everyBatch, hhalf, Nat.unpair_pair]
    have hact := threeSubmits_of_le everyBatch (n := 2 * Nat.pair id (n + 5) + 1) (by omega)
    rw [if_neg (by omega), hbatch] at hact
    exact ⟨_, by omega, _, _, hact⟩

/-- There are permits for three records, and the clock has hardly moved. -/
theorem calm_threeSubmits : Calm pairs (threeSubmits everyBatch) where
  permits := by decide
  clocks := by
    intro n now deadlineFirst hact
    have hnow : now = Instant.start := by
      rcases Nat.lt_or_ge n 5 with hlt | hle
      · -- everything is said before the producer goes on
        obtain rfl | rfl | rfl | rfl | rfl : n = 0 ∨ n = 1 ∨ n = 2 ∨ n = 3 ∨ n = 4 := by omega
        all_goals simp [threeSubmits] at hact
      · rw [threeSubmits_of_le _ hle] at hact
        split at hact
        · exact (Act.proceed.inj hact).1.symm
        · exact absurd hact (by simp)
    rw [hnow]
    rfl

/-- The producer is closed at once and stops in the end, with every promise kept on the way. -/
theorem flush_is_barrier_threeSubmits :
    pairs.validate = .ok () ∧ Calm pairs (threeSubmits everyBatch) ∧
      Fair pairs (threeSubmits everyBatch) ∧
      (after pairs (threeSubmits everyBatch) 5).producer.closed = true ∧
      (∀ n, (after pairs (threeSubmits everyBatch) n).Reliable pairs) ∧
      ∃ m, 5 ≤ m ∧ (after pairs (threeSubmits everyBatch) m).producer.stage = .stopped :=
  have hbarrier := flush_is_barrier rfl (threeSubmits everyBatch)
  ⟨rfl, calm_threeSubmits, fair_threeSubmits, rfl, hbarrier.1,
    hbarrier.2 calm_threeSubmits fair_threeSubmits 5 rfl⟩

end Traffic

end Tidemark.Shards
