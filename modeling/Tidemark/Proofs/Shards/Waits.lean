import Mathlib.Data.List.Nodup
import Tidemark.Proofs.Shards.Crashes
import Tidemark.Proofs.Time.Instants

/-!
# How long records wait in the buffer

A step of the producer leaves the buffer as it is, empties it, or puts a record at its end (`Move.buffers`). So the
oldest record is the first one, and the deadline that was set for it stays until the buffer is handed over:

```
           a comes in      b comes in        a, b are handed over
buffer     ── a ────────── a b ────────────── ∅
deadline      a's + wait   a's + wait         none
```

When each record came in is told by the course (`Entered`), whatever the instants are at which the producer gets to
run. In virtual time the clock stands still while there is anything to do, and does not go past the next wake-up
(`VirtualTime`). A deadline that is ahead is therefore met, and one that has come is dealt with before the clock goes
on, so the first record waits for at most the time that is configured, in whole milliseconds, and the others came in
later.
-/

namespace Tidemark.Shards

namespace Producer

variable {p p' : Producer} {now : Instant} {act : ProducerAct}

/-- What a step does to the buffer and its deadline. -/
inductive Buffers (p p' : Producer) (now : Instant) : Prop where
  | kept : p'.buffer = p.buffer → p'.deadline = p.deadline → Buffers p p' now
  | emptied : p'.buffer = [] → Buffers p p' now
  | added {s : Submitted} {deadline : Instant} : p'.buffer = p.buffer ++ [s] → p'.deadline = some deadline →
      p.deadlineAt now = some deadline → Buffers p p' now

/-- A record that is gathered goes to the end of the buffer, unless the buffer is handed over or lost. -/
theorem Gathers.buffers {s : Submitted} (h : p.Gathers now s p' act) : p.Buffers p' now := by
  cases h with
  | crashed _ => exact .emptied rfl
  | kept hdeadline _ => exact .added rfl rfl hdeadline
  | filled _ _ => exact .emptied rfl

/-- A step keeps the buffer, empties it, or puts one record at its end. -/
theorem Move.buffers (h : p.Move now p' act) : p.Buffers p' now := by
  cases h with
  | handedOver _ _ => exact .emptied rfl
  | gathered _ _ _ hgathers =>
    -- that a message was taken changes neither the buffer nor the deadline
    cases hgathers.buffers with
    | kept hbuffer hdeadline => exact .kept hbuffer hdeadline
    | emptied hbuffer => exact .emptied hbuffer
    | added hbuffer hset hdeadline => exact .added hbuffer hset hdeadline
  | regathered _ hgathers => exact hgathers.buffers
  | _ => exact .kept rfl rfl

/-- A record that finds the buffer empty sets the deadline. -/
theorem deadlineAt_of_empty (hempty : p.buffer = []) {deadline : Instant}
    (h : p.deadlineAt now = some deadline) : deadline = now.after p.maxBufferedTime := by
  rw [deadlineAt, hempty, List.isEmpty_nil, if_pos rfl, Instant.after?] at h
  split at h
  · exact (Option.some.inj h).symm
  · cases h

/-- A record that joins others leaves the deadline as it is. -/
theorem deadlineAt_of_ne_nil (hbuffer : p.buffer ≠ []) (now : Instant) : p.deadlineAt now = p.deadline := by
  rw [deadlineAt, if_neg]
  rwa [List.isEmpty_iff]

/-- A producer that has nothing to do is not overdue. -/
theorem Sound.lt_of_idle (hp : p.Sound) {deadline : Instant} (hdeadline : p.deadline = some deadline)
    (hidle : p.step? now = none) : now < deadline.roundUp := by
  have hbuffer : p.buffer ≠ [] := fun hnil ↦ by
    rw [hp.armed.2 hnil] at hdeadline
    cases hdeadline
  have hstage : p.stage = .listening := by
    by_contra hstage
    exact hbuffer (hp.empty hstage)
  by_contra hle
  have hoverdue : p.isOverdue now = true := isOverdue_iff.2 ⟨deadline, hdeadline, Nat.not_lt.1 hle⟩
  rw [step?, hstage] at hidle
  cases hinbox : p.inbox with
  | nil =>
    simp only [hinbox, hoverdue, if_true] at hidle
    split at hidle <;> cases hidle
  | cons m rest => simp [hinbox] at hidle

/-- What is left to submit is in the stage, in the buffer and in the inbox, in this order. -/
theorem submits_todo (p : Producer) :
    submits p.todo = submits p.stage.todo ++ p.buffer ++ submits p.inbox := by
  rw [todo, submits_append, submits_append, submits_map_submit]

end Producer

namespace Traffic

variable {c : StreamConfig} {t : Traffic} {done : List Message} {acts : Nat → Act} {n m : Nat}
  {s : Submitted} {entered : Instant}

/-- The producer changes its buffer when it gets to run. -/
theorem act_buffers (t : Traffic) (a : Act) :
    ((t.act a).producer.buffer = t.producer.buffer ∧ (t.act a).producer.deadline = t.producer.deadline) ∨
      ∃ now deadlineFirst, a = .proceed now deadlineFirst ∧ t.producer.Buffers (t.act a).producer now := by
  have hsay (m : Message) : (t.say m).producer.buffer = t.producer.buffer ∧
      (t.say m).producer.deadline = t.producer.deadline := by
    rw [Traffic.say]
    split <;> exact ⟨rfl, rfl⟩
  cases a with
  | submit record => exact Or.inl (hsay _)
  | flush => exact Or.inl (hsay _)
  | close => exact Or.inl ⟨rfl, rfl⟩
  | proceed now deadlineFirst =>
    rw [Traffic.act]
    cases hchoose : t.producer.choose? now deadlineFirst with
    | none => exact Or.inl ⟨rfl, rfl⟩
    | some x => exact Or.inr ⟨now, deadlineFirst, rfl, (Producer.move_of_choose? hchoose).buffers⟩
  | answer id draw answer =>
    refine Or.inl ?_
    rw [Traffic.act]
    split
    · rename_i b _
      rw [take]
      cases b.next? draw answer <;> exact ⟨rfl, rfl⟩
    · exact ⟨rfl, rfl⟩

/-- A record is in the buffer once. -/
theorem Sound.nodup_buffer (h : t.Sound c done) (halive : t.producer.stage ≠ .crashed) :
    t.producer.buffer.Nodup := by
  have honce : (submits t.said).Nodup := List.Nodup.of_map _ h.nodup_handles
  rw [h.done_eq halive, submits_append, Producer.submits_todo, List.nodup_append] at honce
  have hrest := honce.2.1
  rw [List.nodup_append, List.nodup_append] at hrest
  exact hrest.1.2.1

/-! ### When records came in -/

/-- After `n` acts the record is in the buffer. It came in with the act `m`, at the instant at which the producer got
to run, and has been there ever since. -/
structure Entered (c : StreamConfig) (acts : Nat → Act) (n : Nat) (s : Submitted) (m : Nat)
    (entered : Instant) : Prop where
  lt : m < n
  proceeds : ∃ deadlineFirst, acts m = .proceed entered deadlineFirst
  absent : s ∉ (after c acts m).producer.buffer
  stays : ∀ k, m < k → k ≤ n → s ∈ (after c acts k).producer.buffer

/-- A record that came in and has stayed is in the buffer. -/
theorem Entered.mem (h : Entered c acts n s m entered) : s ∈ (after c acts n).producer.buffer :=
  h.stays n h.lt le_rfl

/-- A record that stays in the buffer came in when it did. -/
theorem Entered.succ (h : Entered c acts n s m entered) (hs : s ∈ (after c acts (n + 1)).producer.buffer) :
    Entered c acts (n + 1) s m entered :=
  { h with
    lt := Nat.lt_succ_of_lt h.lt
    stays := fun k hk hle ↦ by
      rcases Nat.le_succ_iff.1 hle with hle | rfl
      · exact h.stays k hk hle
      · exact hs }

/-- A record that is in the buffer came in just now or was there before. -/
theorem Entered.of_succ (h : Entered c acts (n + 1) s m entered) : m = n ∨ Entered c acts n s m entered := by
  rcases Nat.lt_succ_iff_lt_or_eq.1 h.lt with hlt | rfl
  · exact Or.inr { h with lt := hlt, stays := fun k hk hle ↦ h.stays k hk (Nat.le_succ_of_le hle) }
  · exact Or.inl rfl

/-- A record that is put into the buffer comes in. -/
theorem Entered.of_added {deadlineFirst : Bool} (hact : acts n = .proceed entered deadlineFirst)
    (hbuffer : (after c acts (n + 1)).producer.buffer = (after c acts n).producer.buffer ++ [s])
    (honce : (after c acts (n + 1)).producer.buffer.Nodup) : Entered c acts (n + 1) s n entered where
  lt := Nat.lt_succ_self n
  proceeds := ⟨deadlineFirst, hact⟩
  absent hs := by
    rw [hbuffer, List.nodup_append] at honce
    exact honce.2.2 s hs s (List.mem_singleton_self s) rfl
  stays k hk hle := by
    rw [Nat.le_antisymm hle hk, hbuffer]
    exact List.mem_append_right _ (List.mem_singleton_self s)

/-- What came in first stays the first that came in. -/
theorem Entered.least_succ (h : Entered c acts n s m entered)
    (hleast : ∀ s' m' entered', Entered c acts n s' m' entered' → m ≤ m') (s' : Submitted) (m' : Nat)
    (entered' : Instant) (hm' : Entered c acts (n + 1) s' m' entered') : m ≤ m' := by
  rcases hm'.of_succ with rfl | hold
  · exact h.lt.le
  · exact hleast s' m' entered' hold

/-- Every record in the buffer came in at some time. The first of them came in before the others, and the deadline is
its own. -/
structure Dated (c : StreamConfig) (acts : Nat → Act) (n : Nat) : Prop where
  each : ∀ s ∈ (after c acts n).producer.buffer, ∃ m entered, Entered c acts n s m entered
  oldest : ∀ s, (after c acts n).producer.buffer.head? = some s →
    ∃ m entered, Entered c acts n s m entered ∧
      (after c acts n).producer.deadline = some (entered.after c.maxBufferedTime) ∧
      ∀ s' m' entered', Entered c acts n s' m' entered' → m ≤ m'

/-- The buffer stays dated while neither it nor its deadline changes. -/
theorem Dated.of_kept (h : Dated c acts n)
    (hbuffer : (after c acts (n + 1)).producer.buffer = (after c acts n).producer.buffer)
    (hdeadline : (after c acts (n + 1)).producer.deadline = (after c acts n).producer.deadline) :
    Dated c acts (n + 1) where
  each s hs := by
    obtain ⟨m, entered, hm⟩ := h.each s (hbuffer ▸ hs)
    exact ⟨m, entered, hm.succ hs⟩
  oldest s hs := by
    obtain ⟨m, entered, hm, hset, hleast⟩ := h.oldest s (hbuffer ▸ hs)
    exact ⟨m, entered, hm.succ (hbuffer ▸ hm.mem), hdeadline.trans hset, hm.least_succ hleast⟩

theorem Dated.of_emptied (hbuffer : (after c acts (n + 1)).producer.buffer = []) : Dated c acts (n + 1) where
  each s hs := by
    rw [hbuffer] at hs
    cases hs
  oldest s hs := by
    rw [hbuffer] at hs
    cases hs

/-- The buffer stays dated when a record goes to its end. -/
theorem Dated.of_added (h : Dated c acts n) {now deadline : Instant} {deadlineFirst : Bool}
    (hwait : (after c acts n).producer.maxBufferedTime = c.maxBufferedTime)
    (hact : acts n = .proceed now deadlineFirst)
    (hbuffer : (after c acts (n + 1)).producer.buffer = (after c acts n).producer.buffer ++ [s])
    (hset : (after c acts (n + 1)).producer.deadline = some deadline)
    (hdeadline : (after c acts n).producer.deadlineAt now = some deadline)
    (honce : (after c acts (n + 1)).producer.buffer.Nodup) : Dated c acts (n + 1) := by
  have hold {s' : Submitted} (hs' : s' ∈ (after c acts n).producer.buffer) :
      s' ∈ (after c acts (n + 1)).producer.buffer := hbuffer ▸ List.mem_append_left _ hs'
  have hnew : Entered c acts (n + 1) s n now := .of_added hact hbuffer honce
  refine ⟨fun s' hs' ↦ ?_, fun s' hs' ↦ ?_⟩
  · rw [hbuffer, List.mem_append, List.mem_singleton] at hs'
    rcases hs' with hs' | rfl
    · obtain ⟨m, entered, hm⟩ := h.each s' hs'
      exact ⟨m, entered, hm.succ (hold hs')⟩
    · exact ⟨n, now, hnew⟩
  · rw [hbuffer] at hs'
    cases hfirst : (after c acts n).producer.buffer with
    | nil =>
      -- the record is the first, and the deadline is set for it
      rw [hfirst] at hs'
      obtain rfl := Option.some.inj hs'
      refine ⟨n, now, hnew, ?_, fun s' m' entered' hm' ↦ ?_⟩
      · rw [hset, Producer.deadlineAt_of_empty hfirst hdeadline, hwait]
      · rcases hm'.of_succ with rfl | hm'
        · exact le_rfl
        · have hmem := hm'.mem
          rw [hfirst] at hmem
          cases hmem
    | cons first rest =>
      rw [hfirst] at hs'
      obtain rfl := Option.some.inj hs'
      obtain ⟨m, entered, hm, hfor, hleast⟩ := h.oldest first (by rw [hfirst]; rfl)
      refine ⟨m, entered, hm.succ (hold hm.mem), ?_, hm.least_succ hleast⟩
      rw [hset, ← hfor, ← hdeadline, Producer.deadlineAt_of_ne_nil (by rw [hfirst]; simp)]

/-- A producer that has not crashed had not crashed before. -/
theorem stage_ne_crashed_of_succ (halive : (after c acts (n + 1)).producer.stage ≠ .crashed) :
    (after c acts n).producer.stage ≠ .crashed :=
  fun hcrashed ↦ halive (gone_act hcrashed (acts n)).stage

/-- Until the producer crashes its buffer is dated. -/
theorem dated_after (hc : c.validate = .ok ()) (acts : Nat → Act) (n : Nat)
    (halive : (after c acts n).producer.stage ≠ .crashed) : Dated c acts n := by
  induction n with
  | zero => exact ⟨fun _ hs ↦ absurd hs List.not_mem_nil, fun _ hs ↦ nomatch hs⟩
  | succ n ih =>
    have h := ih (stage_ne_crashed_of_succ halive)
    rcases act_buffers (after c acts n) (acts n) with
      ⟨hbuffer, hdeadline⟩ | ⟨now, deadlineFirst, hact, hbuffers⟩
    · exact h.of_kept hbuffer hdeadline
    · cases hbuffers with
      | kept hbuffer hdeadline => exact h.of_kept hbuffer hdeadline
      | emptied hbuffer => exact .of_emptied hbuffer
      | added hbuffer hset hdeadline =>
        exact h.of_added (sound_after hc acts n).wait hact hbuffer hset hdeadline
          ((sound_after hc acts (n + 1)).nodup_buffer halive)

/-! ### Virtual time -/

/-- The clock of a course, which says when each act happens. It counts whole milliseconds and never goes back. It
goes on only when the producer has nothing to do, and then not past a deadline that is ahead. -/
structure VirtualTime (c : StreamConfig) (acts : Nat → Act) (clock : Nat → Instant) : Prop where
  whole : ∀ n, Span.nanosPerMilli ∣ (clock n).nanos
  mono : ∀ n, clock n ≤ clock (n + 1)
  proceeds : ∀ n now deadlineFirst, acts n = .proceed now deadlineFirst → now = clock n
  idle : ∀ n, clock n < clock (n + 1) → (after c acts (n + 1)).producer.step? (clock n) = none
  wakes : ∀ n deadline, clock n < clock (n + 1) → (after c acts (n + 1)).producer.deadline = some deadline →
    clock n < deadline.roundUp → clock (n + 1) ≤ deadline.roundUp

namespace VirtualTime

variable {clock : Nat → Instant}

/-- The clock never goes back. -/
theorem le_of_le (h : VirtualTime c acts clock) (hle : m ≤ n) : clock m ≤ clock n := by
  induction n, hle using Nat.le_induction with
  | base => exact Nat.le_refl _
  | succ n _ ih => exact Nat.le_trans ih (h.mono n)

/-- A record came in at the time at which the clock stood. -/
theorem entered_eq (h : VirtualTime c acts clock) (hs : Entered c acts n s m entered) : entered = clock m := by
  obtain ⟨deadlineFirst, hact⟩ := hs.proceeds
  exact h.proceeds m entered deadlineFirst hact

/-- The clock does not go past a deadline that is set. -/
theorem le_deadline (hc : c.validate = .ok ()) (h : VirtualTime c acts clock)
    (halive : (after c acts n).producer.stage ≠ .crashed) {deadline : Instant}
    (hdeadline : (after c acts n).producer.deadline = some deadline) : clock n ≤ deadline.roundUp := by
  induction n generalizing deadline with
  | zero => cases hdeadline
  | succ n ih =>
    have hbefore := stage_ne_crashed_of_succ halive
    have hp := (sound_after hc acts (n + 1)).producer halive
    by_cases hgoes : clock n < clock (n + 1)
    · exact h.wakes n deadline hgoes hdeadline (hp.lt_of_idle hdeadline (h.idle n hgoes))
    -- the clock stands still, and the deadline is an old one or is set now
    refine Nat.le_trans (Nat.not_lt.1 hgoes) ?_
    rcases act_buffers (after c acts n) (acts n) with ⟨-, hsame⟩ | ⟨now, deadlineFirst, hact, hbuffers⟩
    · exact ih hbefore (hsame.symm.trans hdeadline)
    · cases hbuffers with
      | kept _ hsame => exact ih hbefore (hsame.symm.trans hdeadline)
      | emptied hempty => exact absurd (hdeadline.symm.trans (hp.armed.2 hempty)) (by simp)
      | added _ hset hat =>
        obtain rfl := Option.some.inj (hset.symm.trans hdeadline)
        by_cases hempty : (after c acts n).producer.buffer = []
        · rw [Producer.deadlineAt_of_empty hempty hat, h.proceeds n now deadlineFirst hact]
          exact Nat.le_trans (Nat.le_add_right _ _) (Instant.le_roundUp _)
        · exact ih hbefore ((Producer.deadlineAt_of_ne_nil hempty now).symm.trans hat)

/-- A record waits no longer than is configured. -/
theorem since_le (hc : c.validate = .ok ()) (h : VirtualTime c acts clock)
    (halive : (after c acts n).producer.stage ≠ .crashed) (hs : Entered c acts n s m entered) :
    (clock n).since entered ≤ c.maxBufferedTime.roundUp := by
  obtain ⟨first, rest, hbuffer⟩ := List.exists_cons_of_ne_nil (List.ne_nil_of_mem hs.mem)
  obtain ⟨m₀, entered₀, hfirst, hset, hleast⟩ :=
    (dated_after hc acts n halive).oldest first (by rw [hbuffer]; rfl)
  have hentered : entered = clock m := h.entered_eq hs
  have hlater : entered₀ ≤ entered := by
    rw [h.entered_eq hfirst, hentered]
    exact h.le_of_le (hleast s m entered hs)
  have hwhole : Span.nanosPerMilli ∣ entered.nanos := hentered ▸ h.whole m
  have hclock : clock n ≤ entered.after c.maxBufferedTime.roundUp := by
    rw [← Instant.roundUp_after hwhole]
    refine Nat.le_trans (h.le_deadline hc halive hset) (Instant.roundUp_mono ?_)
    exact Nat.add_le_add_right hlater _
  exact Nat.sub_le_iff_le_add'.2 hclock

end VirtualTime

/-! ### The buffer and its deadline -/

/-- As long as the producer has not crashed, there is a deadline exactly if the buffer is not empty, namely the time
that is configured after the oldest record came in. The buffer has room for a record, its bytes are counted, and it is
empty whenever the producer waits for a permit or for its batches. So in virtual time no record stays in the buffer
for longer than is configured, in whole milliseconds. -/
theorem buffer_waits_for_oldest (hc : c.validate = .ok ()) (acts : Nat → Act) (n : Nat)
    (halive : (after c acts n).producer.stage ≠ .crashed) :
    let p := (after c acts n).producer
    (p.deadline ≠ none ↔ p.buffer ≠ []) ∧
      p.buffer.length < c.maxBatchRecords ∧
      p.bufferedBytes = bytes p.buffer ∧
      (p.stage ≠ .listening → p.buffer = []) ∧
      Dated c acts n ∧
      ∀ clock, VirtualTime c acts clock → ∀ s m entered, Entered c acts n s m entered →
        (clock n).since entered ≤ c.maxBufferedTime.roundUp := by
  intro p
  have hs := sound_after hc acts n
  have hp : p.Sound := hs.producer halive
  refine ⟨not_congr hp.armed, ?_, hp.bytes_eq, hp.empty, dated_after hc acts n halive, ?_⟩
  · rw [← hs.most]
    exact hp.room
  · exact fun clock hclock s m entered hentered ↦ hclock.since_le hc halive hentered

/-- A record is submitted, and the producer gets to run at once and again when its deadline has come. -/
def submitOnce : Nat → Act
  | 0 => .submit ⟨.empty, .byKey "a"⟩
  | 1 => .proceed Instant.start false
  | _ => .proceed (Instant.start.after (Span.ofSeconds 1)) false

def submitOnceClock : Nat → Instant
  | 0 | 1 => Instant.start
  | _ => Instant.start.after (Span.ofSeconds 1)

/-- The clock starts at once and stands still for good when the deadline has come. -/
theorem virtualTime_submitOnce : VirtualTime pairs submitOnce submitOnceClock where
  whole
    | 0 | 1 => ⟨0, rfl⟩
    | _ + 2 => ⟨1000, rfl⟩
  mono
    | 0 => Nat.le_refl _
    | 1 => Nat.zero_le _
    | _ + 2 => Nat.le_refl _
  proceeds
    | 0, _, _, h => nomatch h
    | 1, _, _, rfl => rfl
    | _ + 2, _, _, rfl => rfl
  idle
    | 1, _ => by decide +kernel
    | 0, hgoes => absurd hgoes (Nat.lt_irrefl _)
    | _ + 2, hgoes => absurd hgoes (Nat.lt_irrefl _)
  wakes
    | 1, deadline, _, hdeadline, _ => by
      have hset : (after pairs submitOnce 2).producer.deadline = some (submitOnceClock 2) := by decide +kernel
      obtain rfl := Option.some.inj (hset.symm.trans hdeadline)
      exact Instant.le_roundUp _
    | 0, _, hgoes, _, _ => absurd hgoes (Nat.lt_irrefl _)
    | _ + 2, _, hgoes, _, _ => absurd hgoes (Nat.lt_irrefl _)

/-- The record that is submitted is in the buffer for as long as is configured, and no longer. -/
theorem buffer_waits_for_oldest_submitOnce :
    pairs.validate = .ok () ∧ (after pairs submitOnce 2).producer.stage ≠ .crashed ∧
      ∃ s m entered, Entered pairs submitOnce 2 s m entered ∧
        (submitOnceClock 2).since entered = pairs.maxBufferedTime ∧
        (submitOnceClock 2).since entered ≤ pairs.maxBufferedTime.roundUp ∧
        (after pairs submitOnce 3).producer.buffer = [] := by
  have halive : (after pairs submitOnce 2).producer.stage ≠ .crashed := by
    have hlistens : (after pairs submitOnce 2).producer.stage = .listening := rfl
    rw [hlistens]
    exact nofun
  obtain ⟨-, -, -, -, hdated, hstays⟩ := buffer_waits_for_oldest rfl submitOnce 2 halive
  obtain ⟨m, entered, hs⟩ := hdated.each ⟨0, .empty, .byKey "a"⟩ (List.mem_singleton_self _)
  have hentered : entered = Instant.start := by
    rw [virtualTime_submitOnce.entered_eq hs]
    have hm : m = 0 ∨ m = 1 := Nat.le_one_iff_eq_zero_or_eq_one.1 (Nat.le_of_lt_succ hs.lt)
    rcases hm with rfl | rfl <;> rfl
  refine ⟨rfl, halive, _, m, entered, hs, ?_, hstays _ virtualTime_submitOnce _ m entered hs, rfl⟩
  rw [hentered]
  rfl

end Traffic

end Tidemark.Shards
