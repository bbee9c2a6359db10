import Tidemark.Shards.Producer

/-!
# What one step of a producer can do

A producer that has both a message and an overdue deadline may go either way: `choose?` is its step under
either choice, and `step?` the one that takes the message (`choose?_false`). `Producer.Move` lists the
outcomes, guards included, and `move_of_choose?` says that there are no others. What is later proved along a
run looks at a step through this list:

```
handedOver      the buffer is to be written, for one of four reasons       (Triggers)
gathered        a record goes into the buffer, which may be full then      (Gathers)
regathered      the same, once an older buffer is handed over
resumed         the producer listens again
flushing        it waits for its batches, to answer a flush
closing         it waits for its batches, to stop
spawned         a batch begins
flushed         a flush is answered
stopped         the producer has ended
```
-/

namespace Tidemark.Shards

namespace Producer

/-- The deadline that a record has which goes into the buffer now. -/
def deadlineAt (p : Producer) (now : Instant) : Option Instant :=
  if p.buffer.isEmpty then now.after? p.maxBufferedTime else p.deadline

/-- The producer with one more record in its buffer. -/
def keep (p : Producer) (deadline : Option Instant) (s : Submitted) : Producer :=
  { p with
    stage := .listening
    deadline
    bufferedBytes := p.bufferedBytes + s.record.size
    buffer := p.buffer ++ [s] }

/-- The producer after a crash. -/
def crash (p : Producer) : Producer :=
  { p with stage := .crashed, inbox := [], buffer := [] }

@[simp] theorem keep_stage (p : Producer) (deadline : Option Instant) (s : Submitted) :
    (p.keep deadline s).stage = .listening :=
  rfl

@[simp] theorem handOver_stage (p : Producer) (next : Continuation) :
    (p.handOver next).stage = .dispatching p.buffer next :=
  rfl

@[simp] theorem settle_stage (p : Producer) (next : Option Nat) : (p.settle next).stage = .settling next :=
  rfl

/-- The next step of a producer, which takes either the message or the deadline first if it has both. -/
def choose? (p : Producer) (now : Instant) (deadlineFirst : Bool) : Option (Producer × ProducerAct) :=
  match p.stage with
  | .listening =>
    if deadlineFirst && p.isOverdue now then some (p.handOver .listen, .quiet) else p.step? now
  | _ => p.step? now

/-- Unless the deadline goes first, the choice is the step that a producer takes. -/
theorem choose?_false (p : Producer) (now : Instant) : p.choose? now false = p.step? now := by
  rw [choose?]
  split <;> rfl

/-! ### The list of moves -/

/-- Why a buffer is handed over, what the producer goes on with, and the messages that are left. -/
inductive Triggers (p : Producer) (now : Instant) : Continuation → List Message → Prop where
  | tooLarge {s : Submitted} {rest : List Message} :
      p.inbox = .submit s :: rest → mostBytes < p.bufferedBytes + s.record.size →
      Triggers p now (.gather s) rest
  | flush {id : Nat} {rest : List Message} :
      p.inbox = .flush id :: rest → Triggers p now (.flush id) rest
  | closed : p.inbox = [] → p.closed = true → Triggers p now .close []
  | overdue {deadline : Instant} :
      p.deadline = some deadline → deadline.roundUp ≤ now → Triggers p now .listen p.inbox

/-- A record goes into the buffer. The buffer is handed over if that makes it full, and everything is lost
if no clock counts to the deadline. -/
inductive Gathers (p : Producer) (now : Instant) (s : Submitted) : Producer → ProducerAct → Prop where
  | crashed : p.deadlineAt now = none → Gathers p now s p.crash (.crash (p.lostHandles s))
  | kept {deadline : Instant} :
      p.deadlineAt now = some deadline → p.buffer.length + 1 < p.maxBatchRecords →
      Gathers p now s (p.keep (some deadline) s) .quiet
  | filled {deadline : Instant} :
      p.deadlineAt now = some deadline → p.maxBatchRecords ≤ p.buffer.length + 1 →
      Gathers p now s ((p.keep (some deadline) s).handOver .listen) .quiet

inductive Move (p : Producer) (now : Instant) : Producer → ProducerAct → Prop where
  | handedOver {next : Continuation} {rest : List Message} :
      p.stage = .listening → p.Triggers now next rest →
      Move p now ({ p with inbox := rest }.handOver next) .quiet
  | gathered {s : Submitted} {rest : List Message} {p' : Producer} {act : ProducerAct} :
      p.stage = .listening → p.inbox = .submit s :: rest →
      p.bufferedBytes + s.record.size ≤ mostBytes →
      Gathers { p with inbox := rest } now s p' act → Move p now p' act
  | regathered {s : Submitted} {p' : Producer} {act : ProducerAct} :
      p.stage = .dispatching [] (.gather s) → p.Gathers now s p' act → Move p now p' act
  | resumed : p.stage = .dispatching [] .listen → Move p now { p with stage := .listening } .quiet
  | flushing {id : Nat} :
      p.stage = .dispatching [] (.flush id) → Move p now (p.settle (some id)) .quiet
  | closing : p.stage = .dispatching [] .close → Move p now (p.settle none) .quiet
  | spawned {batch : List Submitted} {next : Continuation} :
      p.stage = .dispatching batch next → batch ≠ [] → p.running < p.maxOutstandingBatches →
      Move p now { p with stage := .dispatching [] next, running := p.running + 1 } (.spawn batch)
  | flushed {id : Nat} :
      p.stage = .settling (some id) → p.running = 0 →
      Move p now { p with stage := .listening } (.flushed id)
  | stopped :
      p.stage = .settling none → p.running = 0 → Move p now { p with stage := .stopped } .stop

variable {p p' : Producer} {now : Instant} {act : ProducerAct}

/-- What becomes of a record that is gathered is in the list. -/
theorem gathers_gather (p : Producer) (now : Instant) (s : Submitted) :
    p.Gathers now s (p.gather now s).1 (p.gather now s).2 := by
  rw [gather]
  cases hdeadline : p.deadlineAt now with
  | none =>
    have hcrash := hdeadline
    rw [deadlineAt] at hcrash
    dsimp only
    rw [hcrash]
    exact .crashed hdeadline
  | some deadline =>
    have hset := hdeadline
    rw [deadlineAt] at hset
    dsimp only
    rw [hset, List.length_append, List.length_singleton]
    dsimp only
    split
    · rename_i hfull
      exact .filled hdeadline hfull
    · rename_i hroom
      exact .kept hdeadline (Nat.lt_of_not_le hroom)

/-- A producer is overdue when its deadline, at the next millisecond, has come. -/
theorem isOverdue_iff : p.isOverdue now = true ↔ ∃ d, p.deadline = some d ∧ d.roundUp ≤ now := by
  rw [isOverdue]
  cases p.deadline <;> simp

theorem move_take {m : Message} {rest : List Message} (hstage : p.stage = .listening)
    (hinbox : p.inbox = m :: rest) :
    p.Move now ({ p with inbox := rest }.take now m).1 ({ p with inbox := rest }.take now m).2 := by
  cases m with
  | flush id => exact .handedOver hstage (.flush hinbox)
  | submit s =>
    rw [take]
    split
    · rename_i hlarge
      exact .handedOver hstage (.tooLarge hinbox hlarge)
    · rename_i hfits
      exact .gathered hstage hinbox (Nat.le_of_not_lt hfits) (gathers_gather _ now s)

theorem move_resume {next : Continuation} (hstage : p.stage = .dispatching [] next) :
    p.Move now (p.resume now next).1 (p.resume now next).2 := by
  cases next with
  | gather s => exact .regathered hstage (gathers_gather p now s)
  | listen => exact .resumed hstage
  | flush id => exact .flushing hstage
  | close => exact .closing hstage

/-- What a producer does when it runs is a step. -/
theorem move_of_step? (h : p.step? now = some (p', act)) : p.Move now p' act := by
  rw [step?] at h
  split at h
  · rename_i hstage
    split at h
    · rename_i m rest hinbox
      have hmove : p.Move now _ _ := move_take hstage hinbox
      rwa [Option.some.inj h] at hmove
    · rename_i hinbox
      split at h
      · rename_i hclosed
        obtain ⟨rfl, rfl⟩ := Prod.mk.inj (Option.some.inj h)
        have hmove : p.Move now _ _ := .handedOver hstage (.closed hinbox hclosed)
        rwa [← hinbox] at hmove
      · split at h
        · rename_i hoverdue
          obtain ⟨rfl, rfl⟩ := Prod.mk.inj (Option.some.inj h)
          obtain ⟨d, hd, hle⟩ := isOverdue_iff.1 hoverdue
          exact .handedOver hstage (.overdue hd hle)
        · exact absurd h (by simp)
  · rename_i next hstage
    have hmove : p.Move now _ _ := move_resume hstage
    rwa [Option.some.inj h] at hmove
  · rename_i batch next hne hstage
    split at h
    · rename_i hlt
      obtain ⟨rfl, rfl⟩ := Prod.mk.inj (Option.some.inj h)
      exact .spawned hstage hne hlt
    · exact absurd h (by simp)
  · rename_i next hstage
    split at h
    · rename_i hzero
      split at h
      · obtain ⟨rfl, rfl⟩ := Prod.mk.inj (Option.some.inj h)
        exact .flushed hstage hzero
      · obtain ⟨rfl, rfl⟩ := Prod.mk.inj (Option.some.inj h)
        exact .stopped hstage hzero
    · exact absurd h (by simp)
  · exact absurd h (by simp)
  · exact absurd h (by simp)

/-- Every step is in the list. -/
theorem move_of_choose? {deadlineFirst : Bool} (h : p.choose? now deadlineFirst = some (p', act)) :
    p.Move now p' act := by
  rw [choose?] at h
  split at h
  · rename_i hstage
    split at h
    · rename_i hfirst
      obtain ⟨rfl, rfl⟩ := Prod.mk.inj (Option.some.inj h)
      obtain ⟨d, hd, hle⟩ := isOverdue_iff.1 (Bool.and_eq_true_iff.1 hfirst).2
      exact .handedOver hstage (.overdue hd hle)
    · exact move_of_step? h
  · exact move_of_step? h

end Producer

end Tidemark.Shards
