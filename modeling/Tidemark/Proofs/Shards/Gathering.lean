import Mathlib.Algebra.GroupWithZero.Nat
import Mathlib.Data.List.Basic
import Tidemark.Proofs.Shards.Moves

/-!
# What a producer has yet to do

A producer deals with its messages in the order in which they were said. `todo` are those that it has not
dealt with: a record is dealt with when it is launched in a batch, a flush when it is answered. Wherever
they are kept, they stand in the order in which they were said:

```
listening             buffer │ inbox
dispatching           batch │ the record or the flush it goes on with │ inbox
settling              the flush │ inbox
```

A step takes from their front what it deals with, and leaves the others as they are (`Move.sound`). Only a
crash loses them. `Sound` is what else the steps keep: the buffer is within the limits, its bytes are
counted and its deadline is set, and a batch that is to be launched is within the limits as well.
-/

namespace Tidemark.Shards

/-! ### Messages -/

/-- The records among messages. -/
def submits (messages : List Message) : List Submitted :=
  messages.filterMap fun
    | .submit s => some s
    | .flush _ => none

/-- The flushes among messages. -/
def flushes (messages : List Message) : List Nat :=
  messages.filterMap fun
    | .submit _ => none
    | .flush id => some id

@[simp] theorem submits_nil : submits [] = [] :=
  rfl

@[simp] theorem submits_submit_cons (s : Submitted) (rest : List Message) :
    submits (.submit s :: rest) = s :: submits rest :=
  rfl

@[simp] theorem submits_flush_cons (id : Nat) (rest : List Message) :
    submits (.flush id :: rest) = submits rest :=
  rfl

@[simp] theorem submits_append (l m : List Message) : submits (l ++ m) = submits l ++ submits m :=
  List.filterMap_append

@[simp] theorem flushes_append (l m : List Message) : flushes (l ++ m) = flushes l ++ flushes m :=
  List.filterMap_append

@[simp] theorem submits_map_submit (l : List Submitted) : submits (l.map .submit) = l := by
  rw [submits, List.filterMap_map]
  exact List.filterMap_some

@[simp] theorem flushes_map_submit (l : List Submitted) : flushes (l.map .submit) = [] := by
  rw [flushes, List.filterMap_map]
  exact List.filterMap_eq_nil_iff.2 fun _ _ ↦ rfl

/-- The bytes that records take in a request. -/
def bytes (records : List Submitted) : Nat :=
  (records.map (·.record.size)).sum

/-- So many records may stand in one request. A record that is too large is written alone. -/
def Fits (most : Nat) (records : List Submitted) : Prop :=
  records.length ≤ most ∧ (bytes records ≤ Producer.mostBytes ∨ records.length ≤ 1)

/-! ### What is left to do -/

def Continuation.todo : Continuation → List Message
  | gather s => [.submit s]
  | listen => []
  | flush id => [.flush id]
  | close => []

def ProducerStage.todo : ProducerStage → List Message
  | dispatching batch next => batch.map .submit ++ next.todo
  | settling (some id) => [.flush id]
  | _ => []

/-- The messages that an act deals with. -/
def ProducerAct.done : ProducerAct → List Message
  | spawn batch => batch.map .submit
  | flushed id => [.flush id]
  | _ => []

/-- The batches that an act launches, one or none. -/
def ProducerAct.batches : ProducerAct → List (List Submitted)
  | spawn batch => [batch]
  | _ => []

/-- The handles that an act loses. -/
def ProducerAct.lost : ProducerAct → List Nat
  | crash handles => handles
  | _ => []

/-- The records that an act deals with are those of its batch. -/
theorem ProducerAct.submits_done (act : ProducerAct) : submits act.done = act.batches.flatten := by
  cases act with
  | spawn batch => simp [done, batches]
  | _ => rfl

theorem ProducerAct.batches_eq (act : ProducerAct) : act.batches = [] ∨ ∃ batch, act.batches = [batch] := by
  cases act with
  | spawn batch => exact Or.inr ⟨batch, rfl⟩
  | _ => exact Or.inl rfl

/-- The stage is one of those after which a producer ends. -/
@[simp] def ProducerStage.IsEnding : ProducerStage → Prop
  | dispatching _ .close => True
  | settling none => True
  | stopped => True
  | _ => False

namespace Producer

/-- The messages that a producer has not dealt with, in the order in which they were said. -/
def todo (p : Producer) : List Message :=
  p.stage.todo ++ p.buffer.map .submit ++ p.inbox

/-- What the steps of a producer keep. -/
structure Sound (p : Producer) : Prop where
  bytes_eq : p.bufferedBytes = bytes p.buffer
  room : p.buffer.length < p.maxBatchRecords
  small : bytes p.buffer ≤ mostBytes ∨ p.buffer.length ≤ 1
  armed : p.deadline = none ↔ p.buffer = []
  /-- Records are gathered while the producer listens. -/
  empty : p.stage ≠ .listening → p.buffer = []
  fits : ∀ batch next, p.stage = .dispatching batch next → Fits p.maxBatchRecords batch
  ending : p.stage.IsEnding → p.closed = true ∧ p.inbox = []
  idle : p.stage = .stopped → p.running = 0

variable {p p' : Producer} {now : Instant} {act : ProducerAct}

/-- A crash loses the record that is gathered with all that are buffered or still to come. -/
theorem lostHandles_eq (p : Producer) (s : Submitted) :
    p.lostHandles s = (p.buffer ++ s :: submits p.inbox).map (·.handle) := by
  rw [List.map_append, List.map_cons, submits, List.map_filterMap]
  refine congrArg (fun l ↦ p.buffer.map (·.handle) ++ s.handle :: l) (List.filterMap_congr fun m _ ↦ ?_)
  cases m <;> rfl

/-- What becomes of a producer that takes a record into its buffer. -/
theorem Gathers.sound {s : Submitted} (h : p.Gathers now s p' act) (hbytes : p.bufferedBytes = bytes p.buffer)
    (hroom : p.buffer.length < p.maxBatchRecords)
    (hsmall : bytes p.buffer + s.record.size ≤ mostBytes ∨ p.buffer = []) :
    p'.stage = .crashed ∧ act = .crash ((p.buffer ++ s :: submits p.inbox).map (·.handle)) ∧ p'.todo = [] ∨
      p'.stage ≠ .crashed ∧ act = .quiet ∧ p'.todo = p.buffer.map .submit ++ .submit s :: p.inbox ∧
        p'.Sound := by
  have hbytes' : bytes (p.buffer ++ [s]) = bytes p.buffer + s.record.size := by
    simp [bytes]
  have hsmall' : bytes (p.buffer ++ [s]) ≤ mostBytes ∨ (p.buffer ++ [s]).length ≤ 1 := by
    rw [hbytes']
    exact hsmall.imp_right fun hnil ↦ by simp [hnil]
  cases h with
  | crashed hdeadline => exact Or.inl ⟨rfl, by rw [lostHandles_eq], rfl⟩
  | kept hdeadline hlt =>
    refine Or.inr ⟨by simp, rfl, ?_, ?_⟩
    · simp [todo, keep, ProducerStage.todo]
    · exact {
        bytes_eq := by rw [keep, hbytes', hbytes]
        room := by simpa [keep] using hlt
        small := hsmall'
        armed := by simp [keep]
        empty := fun hstage ↦ absurd rfl hstage
        fits := by simp
        ending := by simp
        idle := by simp }
  | filled hdeadline hle =>
    refine Or.inr ⟨by simp, rfl, ?_, ?_⟩
    · simp [todo, keep, handOver, ProducerStage.todo, Continuation.todo]
    · exact {
        bytes_eq := rfl
        room := Nat.lt_of_le_of_lt (Nat.zero_le _) hroom
        small := Or.inr (Nat.zero_le _)
        armed := ⟨fun _ ↦ rfl, fun _ ↦ rfl⟩
        empty := fun _ ↦ rfl
        fits := by
          rintro batch next ⟨⟩
          exact ⟨by simpa [keep, handOver] using Nat.succ_le_of_lt hroom, hsmall'⟩
        ending := by simp
        idle := by simp }

/-- A producer that gathers nothing at the moment may change its stage. -/
theorem Sound.enter (hp : p.Sound) (hstage : p.stage ≠ .listening) (stage : ProducerStage) (running : Nat)
    (hfits : ∀ batch next, stage = .dispatching batch next → batch = [])
    (hending : stage.IsEnding → p.stage.IsEnding) (hidle : stage = .stopped → running = 0) :
    { p with stage, running }.Sound :=
  { hp with
    empty := fun _ ↦ hp.empty hstage
    fits := fun batch next hbatch ↦ by
      rw [hfits batch next hbatch]
      exact ⟨Nat.zero_le _, Or.inr (Nat.zero_le _)⟩
    ending := fun h ↦ hp.ending (hending h)
    idle := hidle }

/-- What triggers a batch is dealt with by handing the buffer over. -/
theorem Triggers.sound {next : Continuation} {rest : List Message} (h : p.Triggers now next rest)
    (hp : p.Sound) (hstage : p.stage = .listening) :
    p.todo = ({ p with inbox := rest }.handOver next).todo ∧
      ({ p with inbox := rest }.handOver next).Sound := by
  constructor
  · have htodo : p.inbox = next.todo ++ rest := by
      cases h with
      | tooLarge hinbox _ => exact hinbox
      | flush hinbox => exact hinbox
      | closed hinbox _ => exact hinbox
      | overdue _ _ => rfl
    simp [todo, hstage, handOver, ProducerStage.todo, htodo]
  · exact {
      bytes_eq := rfl
      room := Nat.lt_of_le_of_lt (Nat.zero_le _) hp.room
      small := Or.inr (Nat.zero_le _)
      armed := ⟨fun _ ↦ rfl, fun _ ↦ rfl⟩
      empty := fun _ ↦ rfl
      fits := by
        rintro batch next ⟨⟩
        exact ⟨Nat.le_of_lt hp.room, hp.small⟩
      ending := by
        cases h with
        | closed hinbox hclosed => exact fun _ ↦ ⟨hclosed, rfl⟩
        | _ => simp
      idle := by simp }

/-- A step deals with what is first to be done, and keeps the producer sound; or it crashes, and loses
everything that is to be done. -/
theorem Move.sound (h : p.Move now p' act) (hp : p.Sound) :
    p'.stage = .crashed ∧ act = .crash ((submits p.todo).map (·.handle)) ∧ p'.todo = [] ∨
      p'.stage ≠ .crashed ∧ act.lost = [] ∧ p.todo = act.done ++ p'.todo ∧ p'.Sound := by
  cases h with
  | handedOver hstage htriggers =>
    obtain ⟨htodo, hsound⟩ := htriggers.sound hp hstage
    exact Or.inr ⟨by simp, rfl, htodo, hsound⟩
  | gathered hstage hinbox hle hgathers =>
    rw [hp.bytes_eq] at hle
    have htodo : p.todo = p.buffer.map .submit ++ p.inbox := by
      rw [todo, hstage]
      rfl
    rcases hgathers.sound hp.bytes_eq hp.room (Or.inl hle) with
      ⟨hcrashed, hact, hnil⟩ | ⟨halive, hact, htodo', hsound⟩
    · refine Or.inl ⟨hcrashed, ?_, hnil⟩
      rw [hact, htodo, hinbox, submits_append, submits_map_submit]
      rfl
    · refine Or.inr ⟨halive, by rw [hact]; rfl, ?_, hsound⟩
      rw [htodo', htodo, hact, hinbox]
      rfl
  | @regathered s _ _ hstage hgathers =>
    have hempty : p.buffer = [] := hp.empty (by rw [hstage]; simp)
    have htodo : p.todo = p.buffer.map .submit ++ .submit s :: p.inbox := by
      rw [todo, hstage, hempty]
      rfl
    rcases hgathers.sound hp.bytes_eq hp.room (Or.inr hempty) with
      ⟨hcrashed, hact, hnil⟩ | ⟨halive, hact, htodo', hsound⟩
    · refine Or.inl ⟨hcrashed, ?_, hnil⟩
      rw [hact, htodo, submits_append, submits_map_submit]
      rfl
    · refine Or.inr ⟨halive, by rw [hact]; rfl, ?_, hsound⟩
      rw [htodo', htodo, hact]
      rfl
  | resumed hstage =>
    refine Or.inr ⟨by simp, rfl, ?_, hp.enter (by rw [hstage]; simp) _ _ (by simp) (by simp) (by simp)⟩
    rw [todo, hstage]
    rfl
  | flushing hstage =>
    refine Or.inr ⟨by simp, rfl, ?_, hp.enter (by rw [hstage]; simp) _ _ (by simp) (by simp) (by simp)⟩
    rw [todo, hstage]
    rfl
  | closing hstage =>
    refine Or.inr ⟨by simp, rfl, ?_, hp.enter (by rw [hstage]; simp) _ _ (by simp) ?_ (by simp)⟩
    · rw [todo, hstage]
      rfl
    · rw [hstage]
      exact id
  | @spawned batch next hstage hne hlt =>
    refine Or.inr ⟨by simp, rfl, ?_, hp.enter (by rw [hstage]; simp) _ _ ?_ ?_ (by simp)⟩
    · simp [todo, hstage, ProducerStage.todo, ProducerAct.done]
    · rintro _ _ ⟨⟩
      rfl
    · rw [hstage]
      cases next <;> exact id
  | flushed hstage hzero =>
    have hempty : p.buffer = [] := hp.empty (by rw [hstage]; simp)
    refine Or.inr ⟨by simp, rfl, ?_, hp.enter (by rw [hstage]; simp) _ _ (by simp) (by simp) (by simp)⟩
    rw [todo, hstage, hempty]
    rfl
  | stopped hstage hzero =>
    refine Or.inr ⟨by simp, rfl, ?_, hp.enter (by rw [hstage]; simp) _ _ (by simp) ?_ fun _ ↦ hzero⟩
    · rw [todo, hstage]
      rfl
    · rw [hstage]
      exact fun _ ↦ trivial

end Producer

end Tidemark.Shards
