import Tidemark.Proofs.Shards.Rehearsed

/-!
# When a producer crashes

A configuration that is accepted bounds the records of a request, and neither the time that a record may wait
nor the batches that may run. Both are counted by something that ends:

```
permits      more batches than permits are counted for      crashed from the start
clocks       a record goes into an empty buffer, and no
             clock counts to the deadline that it gets      crashed in this act
```

Nothing else makes a producer crash (`crashed_after_iff`). Until then whoever has a handle is heard, and no flush
is forgotten (`Serves`); from then on nobody is heard (`Gone`). So an accepted configuration is as safe as its
permits and its deadlines are (`serves_until_overrun`), and one that lets a record wait for the longest of all
spans loses the first record that comes (`accepted_and_lost`).
-/

namespace Tidemark.Shards

namespace Producer

variable {p p' : Producer} {now : Instant} {deadlineFirst : Bool} {act : ProducerAct}

/-- The next step puts a record into an empty buffer, so that a deadline is set for it. -/
inductive Opens (p : Producer) : Prop where
  | listening {s : Submitted} {rest : List Message} :
      p.stage = .listening → p.buffer = [] → p.inbox = .submit s :: rest → s.record.size ≤ mostBytes → Opens p
  /-- An older buffer is handed over before the record. -/
  | dispatching {s : Submitted} : p.stage = .dispatching [] (.gather s) → Opens p

/-- A producer that is about to set a deadline does not wait for anything. -/
theorem Opens.exists_choose? (h : p.Opens) (now : Instant) (deadlineFirst : Bool) :
    ∃ x, p.choose? now deadlineFirst = some x := by
  cases h with
  | listening hstage _ hinbox _ =>
    simp only [choose?, step?, hstage, hinbox]
    split <;> exact ⟨_, rfl⟩
  | dispatching hstage =>
    simp only [choose?, step?, hstage]
    exact ⟨_, rfl⟩

/-- A record that goes into an empty buffer crashes the producer if no clock counts to its deadline. -/
theorem Gathers.crashed_iff {s : Submitted} (h : p.Gathers now s p' act) (hempty : p.buffer = []) :
    p'.stage = .crashed ↔ now.after? p.maxBufferedTime = none := by
  have hdeadline : p.deadlineAt now = now.after? p.maxBufferedTime := by
    rw [deadlineAt, hempty]
    rfl
  rw [← hdeadline]
  cases h with
  | crashed hnone => exact ⟨fun _ ↦ hnone, fun _ ↦ rfl⟩
  | kept hsome _ => simp [hsome]
  | filled hsome _ => simp [hsome]

/-- A step crashes if it sets a deadline that no clock counts to. -/
theorem Move.crashed_iff (h : p.Move now p' act) (hp : p.Sound) :
    p'.stage = .crashed ↔ p.Opens ∧ now.after? p.maxBufferedTime = none := by
  cases h with
  | @gathered s rest _ _ hstage hinbox hfits hgathers =>
    by_cases hempty : p.buffer = []
    · have hsize : s.record.size ≤ mostBytes := by omega
      rw [hgathers.crashed_iff hempty]
      exact ⟨fun hnone ↦ ⟨.listening hstage hempty hinbox hsize, hnone⟩, fun h ↦ h.2⟩
    · -- the buffer has its deadline already
      have halive : p'.stage ≠ .crashed := by
        cases hgathers with
        | crashed hnone =>
          rw [deadlineAt, if_neg (by simpa using hempty)] at hnone
          exact absurd (hp.armed.1 hnone) hempty
        | kept _ _ => simp
        | filled _ _ => simp
      refine ⟨fun hcrashed ↦ absurd hcrashed halive, fun hboth ↦ ?_⟩
      cases hboth.1 with
      | listening _ hnil _ _ => exact absurd hnil hempty
      | dispatching hstage' => exact absurd (hstage.symm.trans hstage') (by simp)
  | regathered hstage hgathers =>
    have hempty : p.buffer = [] := hp.empty (by rw [hstage]; simp)
    rw [hgathers.crashed_iff hempty]
    exact ⟨fun hnone ↦ ⟨.dispatching hstage, hnone⟩, fun h ↦ h.2⟩
  | @handedOver next rest hstage htriggers =>
    refine ⟨by simp, fun hboth ↦ ?_⟩
    cases hboth.1 with
    | dispatching hstage' => exact absurd (hstage.symm.trans hstage') (by simp)
    | @listening s rest' _ hempty hinbox hsize =>
      -- an empty buffer neither takes up room nor has a deadline
      cases htriggers with
      | tooLarge hinbox' hlarge =>
        obtain ⟨hs, -⟩ := List.cons.inj (hinbox.symm.trans hinbox')
        cases hs
        rw [hp.bytes_eq, hempty, bytes, List.map_nil, List.sum_nil] at hlarge
        omega
      | flush hinbox' => simp [hinbox] at hinbox'
      | closed hinbox' _ => simp [hinbox] at hinbox'
      | overdue hdeadline _ => simp [hp.armed.2 hempty] at hdeadline
  | resumed hstage | flushing hstage | closing hstage | flushed hstage _ | stopped hstage _ =>
    refine ⟨by simp, fun hboth ↦ ?_⟩
    cases hboth.1 <;> simp_all
  | spawned hstage hne _ =>
    refine ⟨by simp, fun hboth ↦ ?_⟩
    cases hboth.1 <;> simp_all

end Producer

namespace Traffic

variable {c : StreamConfig} {t : Traffic} {done : List Message}

/-- In this act a deadline is set that no clock counts to. -/
def Overruns (c : StreamConfig) (t : Traffic) : Act → Prop
  | .proceed now _ => t.producer.Opens ∧ now.after? c.maxBufferedTime = none
  | _ => False

theorem stage_say (t : Traffic) (m : Message) : (t.say m).producer.stage = t.producer.stage := by
  rw [Traffic.say]
  split <;> rfl

theorem stage_take (t : Traffic) (id : Nat) (b : Batch) (draw : Binary64) (answer : BatchAnswer) :
    (t.take id b draw answer).producer.stage = t.producer.stage := by
  rw [take]
  cases b.next? draw answer <;> rfl

/-- An act crashes a producer if it overruns the clock. -/
theorem Sound.crashed_act_iff (hs : t.Sound c done) (halive : t.producer.stage ≠ .crashed) (a : Act) :
    (t.act a).producer.stage = .crashed ↔ t.Overruns c a := by
  cases a with
  | submit record | flush =>
    rw [Traffic.act, stage_say]
    exact iff_of_false halive not_false
  | close => exact iff_of_false halive not_false
  | proceed now deadlineFirst =>
    rw [Traffic.act, Overruns, ← hs.wait]
    cases hchoose : t.producer.choose? now deadlineFirst with
    | some x => exact (Producer.move_of_choose? hchoose).crashed_iff (hs.producer halive)
    | none =>
      refine iff_of_false halive fun hboth ↦ ?_
      obtain ⟨x, hx⟩ := hboth.1.exists_choose? now deadlineFirst
      exact absurd (hchoose.symm.trans hx) (by simp)
  | answer id draw answer =>
    rw [Traffic.act]
    split
    · rw [stage_take]
      exact iff_of_false halive not_false
    · exact iff_of_false halive not_false

/-! ### After a crash -/

/-- Nobody is heard any more, nothing is written that was not, and no flush is answered. -/
structure Gone (t t' : Traffic) : Prop where
  stage : t'.producer.stage = .crashed
  unheard : t'.isOpen = false
  said : t'.said = t.said
  launched : t'.launched = t.launched
  flushed : t'.flushed = t.flushed

theorem isOpen_of_crashed (hcrashed : t.producer.stage = .crashed) : t.isOpen = false := by
  rw [isOpen, Producer.isAlive, hcrashed]
  rfl

theorem gone_act (hcrashed : t.producer.stage = .crashed) (a : Act) : t.Gone (t.act a) := by
  have hself : t.Gone t := ⟨hcrashed, isOpen_of_crashed hcrashed, rfl, rfl, rfl⟩
  have hsay (m : Message) : t.say m = t := by
    rw [Traffic.say, isOpen_of_crashed hcrashed, if_neg Bool.false_ne_true]
  cases a with
  | submit record | flush =>
    rw [Traffic.act, hsay]
    exact hself
  | close => exact ⟨hcrashed, isOpen_of_crashed hcrashed, rfl, rfl, rfl⟩
  | proceed now deadlineFirst =>
    have hnone : t.producer.choose? now deadlineFirst = none := by
      simp only [Producer.choose?, Producer.step?, hcrashed]
    rw [Traffic.act, hnone]
    exact hself
  | answer id draw answer =>
    rw [Traffic.act]
    split
    · rename_i b _
      have hstage := (t.stage_take id b draw answer).trans hcrashed
      exact ⟨hstage, isOpen_of_crashed hstage, rfl, rfl, rfl⟩
    · exact hself

/-- What is gone stays so, whatever else happens. -/
theorem Gone.act {t' : Traffic} (h : t.Gone t') (a : Act) : t.Gone (t'.act a) where
  stage := (gone_act h.stage a).stage
  unheard := (gone_act h.stage a).unheard
  said := (gone_act h.stage a).said.trans h.said
  launched := (gone_act h.stage a).launched.trans h.launched
  flushed := (gone_act h.stage a).flushed.trans h.flushed

/-- From the crash on nothing is achieved any more. -/
theorem gone_after {acts : Nat → Act} {n m : Nat} (hcrashed : (after c acts n).producer.stage = .crashed)
    (hle : n ≤ m) : (after c acts n).Gone (after c acts m) := by
  induction m, hle using Nat.le_induction with
  | base => exact ⟨hcrashed, isOpen_of_crashed hcrashed, rfl, rfl, rfl⟩
  | succ m _ ih => exact ih.act (acts m)

/-! ### Until a crash -/

/-- Whoever has a handle is heard, and all that was said is dealt with or is yet to be. -/
structure Serves (t : Traffic) : Prop where
  heard : t.isOpen = !t.producer.closed
  records : submits t.said = t.launched.flatten ++ submits t.producer.todo
  flushes_eq : flushes t.said = t.flushed ++ flushes t.producer.todo

theorem Sound.serves (hs : t.Sound c done) (halive : t.producer.stage ≠ .crashed) : t.Serves where
  heard := by
    rw [isOpen, Producer.isAlive]
    split
    · -- a producer stops when the last handle is gone
      rename_i hstopped
      have hending := (hs.producer halive).ending
      rw [hstopped] at hending
      rw [(hending trivial).1]
      rfl
    · rename_i hcrashed
      exact absurd hcrashed halive
    · exact Bool.true_and _
  records := by rw [hs.done_eq halive, submits_append, hs.launched]
  flushes_eq := by rw [hs.done_eq halive, flushes_append, hs.flushed]

/-- A producer has crashed if it may run more batches than there are permits, or has overrun the clock. -/
theorem crashed_after_iff (hc : c.validate = .ok ()) (acts : Nat → Act) (n : Nat) :
    (after c acts n).producer.stage = .crashed ↔
      Producer.mostPermits < c.maxOutstandingBatches ∨ ∃ m < n, (after c acts m).Overruns c (acts m) := by
  induction n with
  | zero =>
    show (if c.maxOutstandingBatches ≤ Producer.mostPermits then ProducerStage.listening else .crashed) =
      .crashed ↔ _
    split
    · simp [*]
    · simp [Nat.lt_of_not_le ‹_›]
  | succ n ih =>
    by_cases hcrashed : (after c acts n).producer.stage = .crashed
    · have hlater := (gone_act hcrashed (acts n)).stage
      refine iff_of_true hlater ((ih.1 hcrashed).imp_right ?_)
      rintro ⟨m, hm, hoverruns⟩
      exact ⟨m, Nat.lt_succ_of_lt hm, hoverruns⟩
    · rw [after, (sound_after hc acts n).crashed_act_iff hcrashed]
      rw [ih, not_or, not_exists] at hcrashed
      obtain ⟨hpermits, hbefore⟩ := hcrashed
      constructor
      · exact fun hoverruns ↦ Or.inr ⟨n, Nat.lt_succ_self n, hoverruns⟩
      · rintro (hmore | ⟨m, hm, hoverruns⟩)
        · exact absurd hmore hpermits
        · rcases Nat.lt_succ_iff_lt_or_eq.1 hm with hlt | rfl
          · exact absurd ⟨hlt, hoverruns⟩ (hbefore m)
          · exact hoverruns

/-- With an accepted configuration, a producer crashes if it may run more batches than there are permits, or when
no clock counts to the deadline of a record, and never else. Until then whoever has a handle is heard, and records
and flushes are dealt with in turn; from then on nobody is heard, and what was not dealt with never is. -/
theorem serves_until_overrun (hc : c.validate = .ok ()) (acts : Nat → Act) (n : Nat) :
    ((after c acts n).producer.stage = .crashed ↔
      Producer.mostPermits < c.maxOutstandingBatches ∨ ∃ m < n, (after c acts m).Overruns c (acts m)) ∧
    ((after c acts n).producer.stage ≠ .crashed → (after c acts n).Serves) ∧
    ((after c acts n).producer.stage = .crashed → ∀ m, n ≤ m → (after c acts n).Gone (after c acts m)) :=
  ⟨crashed_after_iff hc acts n, (sound_after hc acts n).serves, fun hcrashed _ hle ↦ gone_after hcrashed hle⟩

/-- Records may wait for the longest of all spans. -/
def unending : StreamConfig :=
  { streamName := "events", maxBufferedTime := Span.longest }

/-- A record is submitted and a flush asked for, and then the producer gets to run. -/
def submitAndFlush : Nat → Act
  | 0 => .submit ⟨.empty, .byKey "a"⟩
  | 1 => .flush
  | _ => .proceed Instant.start false

/-- The record and the flush are heard, and with the third act the producer is gone. -/
theorem serves_until_overrun_unending :
    unending.validate = .ok () ∧ (after unending submitAndFlush 2).Serves ∧
      flushes (after unending submitAndFlush 2).said = [0] ∧
      ∀ m, 3 ≤ m → (after unending submitAndFlush m).isOpen = false ∧
        (after unending submitAndFlush m).flushed = [] := by
  obtain ⟨-, hserves, -⟩ := serves_until_overrun (c := unending) rfl submitAndFlush 2
  obtain ⟨hcrashes, -, hgone⟩ := serves_until_overrun (c := unending) rfl submitAndFlush 3
  have hoverruns : (after unending submitAndFlush 2).Overruns unending (submitAndFlush 2) :=
    ⟨.listening rfl rfl rfl (by decide), rfl⟩
  have hcrashed := hcrashes.2 (Or.inr ⟨2, by decide, hoverruns⟩)
  have hlistening : (after unending submitAndFlush 2).producer.stage = .listening := rfl
  refine ⟨rfl, hserves (by rw [hlistening]; simp), rfl, fun m hm ↦ ?_⟩
  have hlost := hgone hcrashed m hm
  exact ⟨hlost.unheard, hlost.flushed.trans rfl⟩

/-- The configuration is accepted, and the stream is connected to. A record that is submitted loses the
producer; the flush finds it gone while it waits, and the next submit before it is heard. -/
theorem accepted_and_lost :
    unending.validate = .ok () ∧
      (Rehearsal.rehearseShards unending {}
        [.submit ⟨.empty, .byKey "a"⟩, .flush, .submit ⟨.empty, .byKey "b"⟩]).1 =
      .ok [.handle (.ok 0), .finished (.error StreamFault.terminated.toFault),
        .handle (.error StreamFault.notRunning.toFault)] :=
  ⟨rfl, rfl⟩

end Traffic

end Tidemark.Shards
