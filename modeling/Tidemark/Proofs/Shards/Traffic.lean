import Tidemark.Proofs.Shards.Gathering
import Tidemark.Proofs.Shards.Retries

/-!
# A producer among its clients and its batches

`Traffic` is a producer with its batches and a history: what was said to it, what it launched, which handles
have resolved and which flushes were answered. An `Act` is one thing that happens, and a course is any
sequence of acts, so that submits, flushes, steps of the producer and answers of the service come in any order
and at any time:

```
submit, flush, close        the clients speak
proceed                     the producer goes one step, taking the message or the deadline first
answer                      a batch makes a request and is answered
```

`Sound` is the invariant. What was said is what the producer has dealt with, followed by what it has yet to
do, each in the order of its being said; and what it has dealt with are the records that were launched and the
flushes that were answered. So batches neither lose nor repeat nor reorder anything, and a flush is answered
when exactly the records before it are launched (`batches_follow_submits`).
-/

namespace Tidemark.Shards

/-- What a configuration promises that is accepted. -/
theorem StreamConfig.bounds_of_validate {c : StreamConfig} (hc : c.validate = .ok ()) :
    1 ≤ c.maxBatchRecords ∧ c.maxBatchRecords ≤ mostRecords ∧ 1 ≤ c.maxOutstandingBatches ∧
      1 ≤ c.maxRecordAttempts := by
  have hfault : c.fault? = none := by
    rw [validate] at hc
    cases h : c.fault? with
    | none => rfl
    | some fault =>
      rw [h] at hc
      exact absurd hc (by simp)
  rw [fault?] at hfault
  grind

namespace Producer

variable {p p' : Producer} {now : Instant} {act : ProducerAct}

/-! ### More of what a step does -/

/-- A step neither changes what a producer is told to keep to, nor whether anybody is left. -/
theorem Move.frame (h : p.Move now p' act) :
    p'.maxBatchRecords = p.maxBatchRecords ∧ p'.maxBufferedTime = p.maxBufferedTime ∧
      p'.maxOutstandingBatches = p.maxOutstandingBatches ∧ p'.closed = p.closed := by
  cases h with
  | gathered _ _ _ hgathers => cases hgathers <;> exact ⟨rfl, rfl, rfl, rfl⟩
  | regathered _ hgathers => cases hgathers <;> exact ⟨rfl, rfl, rfl, rfl⟩
  | _ => exact ⟨rfl, rfl, rfl, rfl⟩

/-- What is launched is within the limits, and there is a permit for it. -/
theorem Move.launches (h : p.Move now p' act) (hp : p.Sound) :
    p'.running = p.running + act.batches.length ∧
      ∀ batch ∈ act.batches, batch ≠ [] ∧ Fits p.maxBatchRecords batch ∧
        p.running < p.maxOutstandingBatches := by
  cases h with
  | gathered _ _ _ hgathers => cases hgathers <;> exact ⟨rfl, by simp [ProducerAct.batches]⟩
  | regathered _ hgathers => cases hgathers <;> exact ⟨rfl, by simp [ProducerAct.batches]⟩
  | spawned hstage hne hlt =>
    refine ⟨rfl, fun batch hbatch ↦ ?_⟩
    rw [ProducerAct.batches, List.mem_singleton] at hbatch
    subst hbatch
    exact ⟨hne, hp.fits _ _ hstage, hlt⟩
  | _ => exact ⟨rfl, by simp [ProducerAct.batches]⟩

/-- A flush is answered when no batch runs. -/
theorem Move.idle_of_flushed {id : Nat} (h : p.Move now p' act) (hid : id ∈ flushes act.done) :
    act = .flushed id ∧ p.running = 0 := by
  cases h with
  | gathered _ _ _ hgathers => cases hgathers <;> exact absurd hid List.not_mem_nil
  | regathered _ hgathers => cases hgathers <;> exact absurd hid List.not_mem_nil
  | spawned _ _ _ =>
    rw [ProducerAct.done, flushes_map_submit] at hid
    exact absurd hid List.not_mem_nil
  | flushed _ hzero => exact ⟨by rw [List.mem_singleton.1 hid], hzero⟩
  | _ => exact absurd hid List.not_mem_nil

/-- No step starts from a crash. -/
theorem Move.stage_ne_crashed (h : p.Move now p' act) : p.stage ≠ .crashed := by
  cases h with
  | _ => simp only [*, ne_eq, reduceCtorEq, not_false_eq_true]

/-- What a producer is told is the last thing left to do. -/
theorem todo_tell (p : Producer) (m : Message) : (p.tell m).todo = p.todo ++ [m] := by
  simp [todo, tell]

/-- An open producer stays sound when it is told something. -/
theorem Sound.tell (hp : p.Sound) (hopen : p.closed = false) (m : Message) : (p.tell m).Sound :=
  { hp with
    ending := fun h ↦ absurd (hp.ending h).1 (by rw [hopen]; simp) }

/-- A sound producer may be closed at any time. -/
theorem Sound.close (hp : p.Sound) : p.close.Sound :=
  { hp with ending := fun h ↦ ⟨rfl, (hp.ending h).2⟩ }

/-- When a batch ends the producer stays sound. -/
theorem Sound.batchEnded (hp : p.Sound) : p.batchEnded.Sound :=
  { hp with idle := fun h ↦ by rw [Producer.batchEnded, hp.idle h] }

/-- A producer that has stopped has nothing left to do. -/
theorem Sound.todo_of_stopped (hp : p.Sound) (hstage : p.stage = .stopped) : p.todo = [] := by
  rw [todo, hstage, hp.empty (by rw [hstage]; simp), (hp.ending (by rw [hstage]; trivial)).2]
  rfl

/-- A producer starts sound if its configuration is accepted. -/
theorem sound_start {c : StreamConfig} (hc : c.validate = .ok ()) : (start c).Sound where
  bytes_eq := rfl
  room := (c.bounds_of_validate hc).1
  small := Or.inr (Nat.zero_le _)
  armed := ⟨fun _ ↦ rfl, fun _ ↦ rfl⟩
  empty := fun _ ↦ rfl
  fits := by
    intro batch next h
    rw [start] at h
    dsimp only at h
    split at h <;> exact absurd h (by simp)
  ending := by
    rw [start]
    dsimp only
    split <;> simp
  idle := fun _ ↦ rfl

theorem todo_start (c : StreamConfig) : (start c).todo = [] := by
  rw [todo, start]
  dsimp only
  split <;> rfl

end Producer

/-! ### Traffic -/

/-- A producer and its batches, with what has passed. -/
structure Traffic where
  producer : Producer
  maxAttempts : Nat
  /-- What was said to the producer; flushes and handles are numbered in the order of their being asked
  for. -/
  said : List Message := []
  /-- The records of each batch, in the order of their launch. -/
  launched : List (List Submitted) := []
  /-- What is left to write of each batch, nothing once it has ended. -/
  batches : List (Option Batch) := []
  /-- The handles that have resolved, the first first. -/
  resolved : List (Nat × Outcome) := []
  /-- The flushes that were answered, the first first. -/
  flushed : List Nat := []

namespace Traffic

inductive Act where
  | submit (record : Record)
  | flush
  /-- The last client is gone. -/
  | close
  /-- The producer gets to run. -/
  | proceed (now : Instant) (deadlineFirst : Bool)
  /-- A batch makes a request, and has its answer. -/
  | answer (batch : Nat) (draw : Binary64) (answer : BatchAnswer)

def start (c : StreamConfig) : Traffic :=
  { producer := Producer.start c, maxAttempts := c.maxRecordAttempts }

/-- Whether the producer may be spoken to. -/
def isOpen (t : Traffic) : Bool :=
  t.producer.isAlive && !t.producer.closed

/-- Says something to the producer, if it may be spoken to. -/
def say (t : Traffic) (m : Message) : Traffic :=
  if t.isOpen then { t with producer := t.producer.tell m, said := t.said ++ [m] } else t

/-- Does what a step of the producer asks for. -/
def perform (t : Traffic) (producer : Producer) (act : ProducerAct) : Traffic :=
  { t with
    producer
    launched := t.launched ++ act.batches
    batches := t.batches ++ act.batches.map fun records ↦ some (Batch.start records t.maxAttempts)
    resolved := t.resolved ++ act.lost.map (·, .error (.destination .dropped))
    flushed := t.flushed ++ flushes act.done }

/-- A batch takes an answer: handles resolve, and the batch goes on or ends. -/
def take (t : Traffic) (id : Nat) (b : Batch) (draw : Binary64) (answer : BatchAnswer) : Traffic :=
  { t with
    producer := match b.next? draw answer with
      | some _ => t.producer
      | none => t.producer.batchEnded
    batches := t.batches.set id (b.next? draw answer)
    resolved := t.resolved ++ (b.answered answer).1 }

def act (t : Traffic) : Act → Traffic
  | .submit record => t.say (.submit ⟨(submits t.said).length, record⟩)
  | .flush => t.say (.flush (flushes t.said).length)
  | .close => { t with producer := t.producer.close }
  | .proceed now deadlineFirst =>
    match t.producer.choose? now deadlineFirst with
    | some (producer, act) => t.perform producer act
    | none => t
  | .answer id draw answer =>
    match t.batches[id]? with
    | some (some b) => t.take id b draw answer
    | _ => t

/-- The traffic of a producer after so many acts. -/
def after (c : StreamConfig) (acts : Nat → Act) : Nat → Traffic
  | 0 => start c
  | n + 1 => (after c acts n).act (acts n)

/-! ### What every act keeps -/

/-- What the traffic of a producer keeps, with the messages that it has dealt with. -/
structure Sound (c : StreamConfig) (t : Traffic) (done : List Message) : Prop where
  handles : (submits t.said).map (·.handle) = List.range (submits t.said).length
  flushes_eq : flushes t.said = List.range (flushes t.said).length
  most : t.producer.maxBatchRecords = c.maxBatchRecords
  wait : t.producer.maxBufferedTime = c.maxBufferedTime
  permits : t.producer.maxOutstandingBatches = c.maxOutstandingBatches
  launched : submits done = t.launched.flatten
  flushed : flushes done = t.flushed
  fits : ∀ batch ∈ t.launched, batch ≠ [] ∧ Fits c.maxBatchRecords batch
  dealt : done <+: t.said
  producer : t.producer.stage ≠ .crashed → t.producer.Sound
  done_eq : t.producer.stage ≠ .crashed → t.said = done ++ t.producer.todo

variable {c : StreamConfig} {t : Traffic} {done : List Message}

/-- No two records that were submitted share a handle. -/
theorem Sound.nodup_handles (h : t.Sound c done) : ((submits t.said).map (·.handle)).Nodup := by
  rw [h.handles]
  exact List.nodup_range

/-- No two flushes share a number. -/
theorem Sound.nodup_flushes (h : t.Sound c done) : (flushes t.said).Nodup := by
  rw [h.flushes_eq]
  exact List.nodup_range

/-- Nothing is out of order before anything was said. -/
theorem sound_start (hc : c.validate = .ok ()) : (start c).Sound c [] where
  handles := rfl
  flushes_eq := rfl
  most := rfl
  wait := rfl
  permits := rfl
  launched := rfl
  flushed := rfl
  fits := by simp [start]
  dealt := List.nil_prefix
  producer := fun _ ↦ Producer.sound_start hc
  done_eq := fun _ ↦ (Producer.todo_start c).symm

/-- A message with the next number of its kind keeps the order. -/
theorem Sound.say {m : Message} (h : t.Sound c done)
    (hhandle : ∀ s, m = .submit s → s.handle = (submits t.said).length)
    (hflush : ∀ id, m = .flush id → id = (flushes t.said).length) : (t.say m).Sound c done := by
  rw [Traffic.say]
  split
  · rename_i hopen
    have halive : t.producer.stage ≠ .crashed := by
      intro hcrashed
      simp [isOpen, Producer.isAlive, hcrashed] at hopen
    have hclosed : t.producer.closed = false := by
      simpa using (Bool.and_eq_true_iff.1 hopen).2
    exact {
      handles := by
        cases m with
        | submit s => simp [h.handles, hhandle s rfl, List.range_succ]
        | flush id => simpa using h.handles
      flushes_eq := by
        cases m with
        | submit s => simpa [flushes] using h.flushes_eq
        | flush id =>
          rw [flushes_append, List.length_append, hflush id rfl]
          exact (congrArg (· ++ _) h.flushes_eq).trans List.range_succ.symm
      most := h.most
      wait := h.wait
      permits := h.permits
      launched := h.launched
      flushed := h.flushed
      fits := h.fits
      dealt := h.dealt.trans (List.prefix_append _ _)
      producer := fun _ ↦ (h.producer halive).tell hclosed m
      done_eq := fun _ ↦ by rw [Producer.todo_tell, ← List.append_assoc, ← h.done_eq halive] }
  · exact h

/-- A step of the producer takes the messages that it deals with off what is left to do, and nothing else. -/
theorem Sound.perform {now : Instant} {producer : Producer} {act : ProducerAct} (h : t.Sound c done)
    (hmove : t.producer.Move now producer act) : (t.perform producer act).Sound c (done ++ act.done) := by
  have halive := hmove.stage_ne_crashed
  have hp := h.producer halive
  have hdone : producer.stage ≠ .crashed →
      producer.Sound ∧ t.said = done ++ act.done ++ producer.todo := by
    intro hne
    rcases hmove.sound hp with ⟨hcrashed, -⟩ | ⟨-, -, htodo, hsound⟩
    · exact absurd hcrashed hne
    · rw [List.append_assoc, ← htodo]
      exact ⟨hsound, h.done_eq halive⟩
  exact {
    handles := h.handles
    flushes_eq := h.flushes_eq
    most := hmove.frame.1.trans h.most
    wait := hmove.frame.2.1.trans h.wait
    permits := hmove.frame.2.2.1.trans h.permits
    launched := by
      rw [submits_append, h.launched, act.submits_done]
      exact List.flatten_append.symm
    flushed := by
      rw [flushes_append, h.flushed]
      rfl
    fits := by
      intro batch hbatch
      rcases List.mem_append.1 hbatch with hold | hnew
      · exact h.fits batch hold
      · obtain ⟨hne, hfits, -⟩ := (hmove.launches hp).2 batch hnew
        exact ⟨hne, h.most ▸ hfits⟩
    dealt := by
      rcases hmove.sound hp with ⟨-, hact, -⟩ | ⟨-, -, htodo, -⟩
      · rw [hact]
        exact (List.append_nil done).symm ▸ h.dealt
      · show done ++ act.done <+: t.said
        rw [h.done_eq halive, htodo, ← List.append_assoc]
        exact List.prefix_append _ _
    producer := fun hne ↦ (hdone hne).1
    done_eq := fun hne ↦ (hdone hne).2 }

/-- The messages that are dealt with in an act. -/
def did (t : Traffic) : Act → List Message
  | .proceed now deadlineFirst =>
    match t.producer.choose? now deadlineFirst with
    | some (_, act) => act.done
    | none => []
  | _ => []

/-- The messages that are dealt with in the first acts. -/
def doneBy (c : StreamConfig) (acts : Nat → Act) : Nat → List Message
  | 0 => []
  | n + 1 => doneBy c acts n ++ (after c acts n).did (acts n)

/-- Every act keeps the order. -/
theorem Sound.act (h : t.Sound c done) (a : Act) : (t.act a).Sound c (done ++ t.did a) := by
  have hkept : done ++ [] = done := List.append_nil done
  cases a with
  | submit record => exact hkept.symm ▸ h.say (by rintro s ⟨⟩; rfl) (by simp)
  | flush => exact hkept.symm ▸ h.say (by simp) (by rintro id ⟨⟩; rfl)
  | close => exact hkept.symm ▸ { h with producer := fun hne ↦ (h.producer hne).close }
  | proceed now deadlineFirst =>
    rw [Traffic.act, did]
    cases hchoose : t.producer.choose? now deadlineFirst with
    | none => simpa using h
    | some x => exact h.perform (Producer.move_of_choose? hchoose)
  | answer id draw answer =>
    refine hkept.symm ▸ (?_ : (t.act (.answer id draw answer)).Sound c done)
    rw [Traffic.act]
    split
    · rename_i b hb
      rw [take]
      cases b.next? draw answer with
      | some b' => exact { h with }
      | none => exact { h with producer := fun hne ↦ (h.producer hne).batchEnded }
    · exact h

/-- At every moment all is in order. -/
theorem sound_after (hc : c.validate = .ok ()) (acts : Nat → Act) (n : Nat) :
    (after c acts n).Sound c (doneBy c acts n) := by
  induction n with
  | zero => exact sound_start hc
  | succ n ih => exact ih.act (acts n)

/-! ### The order of the batches -/

/-- A flush is said once. -/
theorem pre_unique {l pre pre' post post' : List Message} {id : Nat} (hl : (flushes l).Nodup)
    (h : l = pre ++ .flush id :: post) (h' : l = pre' ++ .flush id :: post') : pre' = pre := by
  have honce (l₁ l₂ l₃ : List Message) : l ≠ l₁ ++ .flush id :: (l₂ ++ .flush id :: l₃) := by
    rintro rfl
    simp [flushes, List.nodup_append] at hl
  rcases List.append_eq_append_iff.1 (h.symm.trans h') with ⟨m, hm, hrest⟩ | ⟨m, hm, hrest⟩
  · cases m with
    | nil => rw [hm, List.append_nil]
    | cons x m =>
      rw [List.cons_append, List.cons.injEq] at hrest
      exact absurd (hrest.2 ▸ h) (honce pre m post')
  · cases m with
    | nil => rw [hm, List.append_nil]
    | cons x m =>
      rw [List.cons_append, List.cons.injEq] at hrest
      exact absurd (hrest.2 ▸ h') (honce pre' m post)

/-- A flush is answered in an act if it is the next message to be dealt with, everything before it is
launched, and no batch runs. -/
theorem Sound.flush_answered (h : t.Sound c done) {a : Act} {id : Nat} (hbefore : id ∉ t.flushed)
    (hafter : id ∈ (t.act a).flushed) :
    t.did a = [.flush id] ∧ t.producer.running = 0 ∧ ∃ post, t.said = done ++ .flush id :: post := by
  cases a with
  | submit record =>
    rw [Traffic.act, Traffic.say] at hafter
    split at hafter <;> exact absurd hafter hbefore
  | flush =>
    rw [Traffic.act, Traffic.say] at hafter
    split at hafter <;> exact absurd hafter hbefore
  | close => exact absurd hafter hbefore
  | answer id draw answer =>
    rw [Traffic.act] at hafter
    split at hafter <;> exact absurd hafter hbefore
  | proceed now deadlineFirst =>
    rw [Traffic.act] at hafter
    rw [did]
    cases hchoose : t.producer.choose? now deadlineFirst with
    | none =>
      rw [hchoose] at hafter
      exact absurd hafter hbefore
    | some x =>
      obtain ⟨producer, act⟩ := x
      rw [hchoose] at hafter
      have hmove := Producer.move_of_choose? hchoose
      have hid : id ∈ flushes act.done := (List.mem_append.1 hafter).resolve_left hbefore
      obtain ⟨rfl, hidle⟩ := hmove.idle_of_flushed hid
      have halive := hmove.stage_ne_crashed
      refine ⟨rfl, hidle, ?_⟩
      rcases hmove.sound (h.producer halive) with ⟨-, hact, -⟩ | ⟨-, -, htodo, -⟩
      · exact absurd hact (by simp)
      · exact ⟨_, (h.done_eq halive).trans (congrArg (done ++ ·) htodo)⟩

/-- How the batches that were launched stand to the records that were submitted. -/
structure InOrder (c : StreamConfig) (t : Traffic) : Prop where
  ordered : t.launched.flatten <+: submits t.said
  once : ((submits t.said).map (·.handle)).Nodup
  /-- When the producer stops, everything is launched. -/
  whole : t.producer.stage = .stopped → t.launched.flatten = submits t.said
  /-- When a flush is answered, what was submitted before it is launched and nothing else. -/
  flushed : ∀ a id, id ∉ t.flushed → id ∈ (t.act a).flushed →
    .flush id ∈ t.said ∧
      ∀ pre post, t.said = pre ++ .flush id :: post → t.launched.flatten = submits pre
  count : ∀ batch ∈ t.launched, 1 ≤ batch.length ∧ batch.length ≤ c.maxBatchRecords
  size : ∀ batch ∈ t.launched, bytes batch ≤ Producer.mostBytes ∨ batch.length = 1

/-- Where all is in order, the batches follow the submits. -/
theorem Sound.inOrder (h : t.Sound c done) : t.InOrder c where
  ordered := by
    rw [← h.launched]
    exact h.dealt.filterMap _
  once := h.nodup_handles
  whole := by
    intro hstopped
    have halive : t.producer.stage ≠ .crashed := by
      rw [hstopped]
      simp
    have htodo := (h.producer halive).todo_of_stopped hstopped
    rw [h.done_eq halive, htodo, List.append_nil, h.launched]
  flushed := by
    intro a id hbefore hafter
    obtain ⟨-, -, post, hsaid⟩ := h.flush_answered hbefore hafter
    refine ⟨by simp [hsaid], fun pre post' hsaid' ↦ ?_⟩
    rw [← h.launched, pre_unique h.nodup_flushes hsaid hsaid']
  count := fun batch hbatch ↦
    ⟨List.length_pos_iff.2 (h.fits batch hbatch).1, (h.fits batch hbatch).2.1⟩
  size := fun batch hbatch ↦
    (h.fits batch hbatch).2.2.imp_right fun hle ↦
      Nat.le_antisymm hle (List.length_pos_iff.2 (h.fits batch hbatch).1)

/-- Whatever happens, the batches are the records in the order of their being submitted, each once and within
the limits of a request; a flush is answered when the records before it are launched, and a producer that
stops has launched all of them. -/
theorem batches_follow_submits (hc : c.validate = .ok ()) (acts : Nat → Act) (n : Nat) :
    (after c acts n).InOrder c :=
  (sound_after hc acts n).inOrder

/-- Batches of two records, with a deadline after a second. -/
def pairs : StreamConfig :=
  { streamName := "events", maxBatchRecords := 2, maxBufferedTime := Span.ofSeconds 1 }

/-- Three records are submitted, and a flush comes before the last one. Then the producer and some batch
take turns. -/
def threeSubmits (batch : Nat → Nat) (n : Nat) : Act :=
  [.submit ⟨.empty, .byKey "a"⟩, .submit ⟨.empty, .byKey "b"⟩, .flush, .submit ⟨.empty, .byKey "c"⟩,
    .close][n]?.getD
    (if n % 2 = 0 then .proceed Instant.start false
    else .answer (batch n) (Binary64.ofNat 1) (.ok (List.replicate 2 (.accepted ⟨"shard", none⟩))))

/-- The first batch is full. The second one is cut short by the flush, which is answered when both have ended. -/
theorem batches_follow_submits_threeSubmits :
    pairs.validate = .ok () ∧
      (after pairs (threeSubmits (· / 14)) 40).launched.map (·.map (·.handle)) = [[0, 1], [2]] ∧
      (after pairs (threeSubmits (· / 14)) 40).flushed = [0] ∧
      (after pairs (threeSubmits (· / 14)) 40).InOrder pairs :=
  ⟨rfl, by decide +kernel, by decide +kernel, batches_follow_submits rfl (threeSubmits (· / 14)) 40⟩

end Traffic

end Tidemark.Shards
