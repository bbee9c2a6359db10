import Tidemark.Proofs.Cycle.Accounts
import Tidemark.Proofs.Replay.Watermarks

/-!
# The cycles of a replay

A replay runs its cycles one exchange at a time, between everything else that happens to it. What becomes
of the cycle under way in a step is one of five things (`Beat`), unless the step breaks the replay off:

```
quiet     no cycle begins and none takes an answer                    opened     a cycle begins
went      the cycle under way takes an answer, and goes on            closed     the same, and ends well
disabled  a cycle that is not to be written is booked at once
```

The totals of the emitter change when a cycle is closed or disabled, and not otherwise. `beat_step` derives
the beats from the list of moves, and those of a cycle under way from its exchanges.
-/

namespace Tidemark

/-- The emitter without what tells when the next cycle is due. -/
def Emitter.totals (e : Emitter) : Emitter :=
  { e with eventsSince := 0, lastCycle := none }

theorem Emitter.totals_recordEvents (e : Emitter) (count : Nat) :
    (e.recordEvents count).totals = e.totals :=
  rfl

/-- A cycle that is booked adds to the totals, and its watermark is the last one. -/
theorem Emitter.totals_booked (e : Emitter) (now : Instant) (w : Timestamp) (outcome : EmitOutcome) :
    (e.booked now w outcome).totals =
      { e.totals with
        lastWatermark := some w
        recordsEmitted := e.totals.recordsEmitted + outcome.partitions
        cyclesSkipped := e.totals.cyclesSkipped + outcome.skips } := by
  rw [booked, complete_eq]
  rfl

namespace Cycle

/-- The cycle takes the answer of an exchange. -/
def take (c : Cycle) (x : Exchange) (i : Instruments) : Cycle × Instruments :=
  match x with
  | .list call => c.listed call.answer i
  | .put call => c.wrote call.answer i

/-- A cycle that goes on has something to ask for. -/
theorem Goes.request? {w : Timestamp} {stage next : CycleStage} {x : Exchange}
    (hx : Goes w stage x next) :
    (∃ result, next = .ended result) ∨ (⟨w, next⟩ : Cycle).request?.isSome := by
  have honward : ∀ left listed, (∃ result, onward left listed = .ended result) ∨
      (⟨w, onward left listed⟩ : Cycle).request?.isSome := by
    intro left listed
    cases left with
    | nil => exact Or.inl ⟨_, rfl⟩
    | cons d rest => exact Or.inr rfl
  cases hx with
  | paged _ => exact Or.inr rfl
  | listed _ => exact honward _ _
  | unlisted => exact Or.inl ⟨_, rfl⟩
  | written => exact honward _ _
  | unwritten => exact Or.inl ⟨_, rfl⟩

end Cycle

namespace Replay

/-- What a cycle asked the destination for, with the answer that it takes in a step. -/
def exchange? (r : Replay) : Happening → Option Exchange
  | .answered _ _ a =>
    match r.request, a with
    | .list token, .listed answer => some (.list ⟨token, answer⟩)
    | .put record, .wrote answer => some (.put ⟨record, answer⟩)
    | _, _ => none
  | .completed _ _ => none

/-- The cycle under way. -/
def cycle? (r : Replay) : Option Cycle :=
  match r.stage with
  | .emitting cycle _ _ => some cycle
  | _ => none

/-- A cycle under way has something to ask for. -/
def IsAsking (r : Replay) : Prop :=
  ∀ c, r.cycle? = some c → c.request?.isSome

/-- The loop has ended with a fault. -/
def IsBroken (r : Replay) : Prop :=
  match r.stage with
  | .flushing (.error _) => True
  | .settling (.error _) => True
  | .ended (.error _) => True
  | _ => False

variable {r : Replay} {h : Happening}

/-- A cycle is under way while the loop emits. -/
theorem cycle?_eq_some_iff {c : Cycle} :
    r.cycle? = some c ↔ ∃ e checkedAt, r.stage = .emitting c e checkedAt := by
  rw [cycle?]
  split
  · rename_i cycle e checkedAt hs
    simp [hs]
  · rename_i hne
    constructor
    · intro hc
      exact absurd hc (by simp)
    · rintro ⟨e, checkedAt, hs⟩
      exact absurd hs (hne c e checkedAt)

theorem cycle?_eq_none_of_not_looping (hr : ¬ r.IsLooping) : r.cycle? = none := by
  refine Option.eq_none_iff_forall_ne_some.2 fun c hc ↦ ?_
  obtain ⟨e, checkedAt, hs⟩ := cycle?_eq_some_iff.1 hc
  exact hr (by simp [IsLooping, hs])

/-! ### Exchanges -/

/-- A listing is asked for by the cycle under way, with its token. -/
theorem emitting_of_request_list {token : Option String} (hq : r.request = .list token) :
    ∃ w l e checkedAt, r.stage = .emitting ⟨w, .listing l⟩ e checkedAt ∧ l.token = token := by
  cases hs : r.stage with
  | emitting cycle e checkedAt =>
    obtain ⟨w, stage⟩ := cycle
    simp only [request, hs, Cycle.request?] at hq
    cases stage with
    | listing l =>
      simp only [ReplayRequest.list.injEq] at hq
      exact ⟨w, l, e, checkedAt, rfl, hq⟩
    | writing left listed => cases left <;> simp at hq
    | ended result => simp at hq
  | _ => simp [request, hs] at hq

/-- A step in which the cycle under way takes the answer to what it asked for. -/
structure Exchanged (r : Replay) (h : Happening) (x : Exchange) (w : Timestamp)
    (stage next : CycleStage) (e : Event) (checkedAt now : Instant) (cancelled : Bool) : Prop where
  stage_eq : r.stage = .emitting ⟨w, stage⟩ e checkedAt
  goes : Cycle.Goes w stage x next
  take_fst : ((⟨w, stage⟩ : Cycle).take x r.instruments).1 = ⟨w, next⟩
  step_eq : r.step h = r.advance ⟨w, next⟩ ((⟨w, stage⟩ : Cycle).take x r.instruments).2
    checkedAt now cancelled e

/-- Whatever is exchanged is an answer that the cycle under way has asked for. -/
theorem exchanged_of_answer {x : Exchange} {now : Instant} {cancelled : Bool} {a : ReplayAnswer}
    (hx : r.exchange? (.answered now cancelled a) = some x) :
    ∃ w stage next e checkedAt,
      r.Exchanged (.answered now cancelled a) x w stage next e checkedAt now cancelled := by
  simp only [exchange?] at hx
  split at hx
  · rename_i token answer hq
    obtain ⟨w, l, e, checkedAt, hs, rfl⟩ := emitting_of_request_list hq
    obtain rfl := Option.some.inj hx
    obtain ⟨next, hfst, hgoes⟩ := Cycle.goes_listed w r.instruments l answer
    refine ⟨w, .listing l, next, e, checkedAt, hs, hgoes, hfst, ?_⟩
    simp only [step, Replay.answer, hs, Cycle.take, ← hfst]
  · rename_i record answer hq
    obtain ⟨w, d, rest, listed, e, checkedAt, hs, rfl⟩ := emitting_of_request_put hq
    obtain rfl := Option.some.inj hx
    obtain ⟨next, hfst, hgoes⟩ := Cycle.goes_wrote w r.instruments d rest listed answer
    refine ⟨w, .writing (d :: rest) listed, next, e, checkedAt, hs, hgoes, hfst, ?_⟩
    simp only [step, Replay.answer, hs, Cycle.take, ← hfst]
  · exact absurd hx (by simp)

/-- Every exchange is one of the cycle under way. -/
theorem exchanged_of_exchange? {x : Exchange} (hx : r.exchange? h = some x) :
    ∃ w stage next e checkedAt now cancelled,
      r.Exchanged h x w stage next e checkedAt now cancelled := by
  cases h with
  | completed id outcome => exact absurd hx (by simp [exchange?])
  | answered now cancelled a =>
    obtain ⟨w, stage, next, e, checkedAt, hex⟩ := exchanged_of_answer hx
    exact ⟨w, stage, next, e, checkedAt, now, cancelled, hex⟩

/-- An answer that a cycle has not asked for changes nothing. -/
theorem answer_of_unasked {c : Cycle} {e : Event} {checkedAt : Instant}
    (hs : r.stage = .emitting c e checkedAt) (hasks : c.request?.isSome) {now : Instant}
    {cancelled : Bool} {a : ReplayAnswer} (hx : r.exchange? (.answered now cancelled a) = none) :
    r.answer now cancelled a = (r, none) := by
  obtain ⟨w, stage⟩ := c
  have hsame : ({ r with stage := .emitting ⟨w, stage⟩ e checkedAt } : Replay) = r := by rw [← hs]
  cases stage with
  | ended result => exact absurd hasks (by simp [Cycle.request?])
  | listing l =>
    cases a with
    | listed answer => exact absurd hx (by simp [exchange?, request, hs, Cycle.request?])
    | wrote answer =>
      simp only [Replay.answer, hs, Cycle.wrote, advance]
      rw [hsame]
    | _ => simp only [Replay.answer, hs]
  | writing left listed =>
    cases left with
    | nil => exact absurd hasks (by simp [Cycle.request?])
    | cons d rest =>
      cases a with
      | listed answer =>
        simp only [Replay.answer, hs, Cycle.listed, advance]
        rw [hsame]
      | wrote answer => exact absurd hx (by simp [exchange?, request, hs, Cycle.request?])
      | _ => simp only [Replay.answer, hs]

/-! ### Beats -/

/-- What becomes of the cycle under way and of the totals of the emitter in a step. -/
inductive Beat (r : Replay) (h : Happening) (r' : Replay) : Prop where
  | quiet :
      r.exchange? h = none → r.opened? h = none → r'.cycle? = r.cycle? →
      r'.emitter.totals = r.emitter.totals → Beat r h r'
  | opened {w : Timestamp} :
      r.exchange? h = none → r.opened? h = some w → r.emitter.config.enabled = true →
      r.cycle? = none → r'.cycle? = some (Cycle.start w) →
      r'.emitter.totals = r.emitter.totals → Beat r h r'
  | disabled {w : Timestamp} {now : Instant} :
      r.exchange? h = none → r.opened? h = some w → r.emitter.config.enabled = false →
      r.cycle? = none → r'.cycle? = none →
      r'.emitter.totals = (r.emitter.booked now w .disabled).totals → Beat r h r'
  | went {x : Exchange} {w : Timestamp} {stage next : CycleStage} :
      r.exchange? h = some x → r.opened? h = none → Cycle.Goes w stage x next →
      (⟨w, next⟩ : Cycle).request?.isSome → r.cycle? = some ⟨w, stage⟩ → r'.cycle? = some ⟨w, next⟩ →
      r'.emitter.totals = r.emitter.totals → Beat r h r'
  | closed {x : Exchange} {w : Timestamp} {stage : CycleStage} {outcome : EmitOutcome} {now : Instant} :
      r.exchange? h = some x → r.opened? h = none → Cycle.Goes w stage x (.ended (.ok outcome)) →
      r.cycle? = some ⟨w, stage⟩ → r'.cycle? = none →
      r'.emitter.totals = (r.emitter.booked now w outcome).totals → Beat r h r'
  | broke : r'.IsBroken → Beat r h r'

/-- The head of the loop is left without a cycle, and with the totals as they are. -/
theorem turn_totals (r : Replay) (now : Instant) (cancelled : Bool) (e : Event) :
    (r.turn now cancelled e).1.cycle? = none ∧
      (r.turn now cancelled e).1.emitter.totals = r.emitter.totals := by
  rw [turn]
  split
  · exact ⟨rfl, rfl⟩
  · split
    · rename_i gap _
      obtain ⟨hl, -⟩ := r.launched_send e gap
      exact ⟨by rw [cycle?, hl.stage], by rw [hl.emitter, Emitter.totals_recordEvents]⟩
    · exact ⟨rfl, rfl⟩

/-- At the head of the loop only a cancellation ends it. -/
theorem looping_or_cancelled (r : Replay) (now : Instant) (cancelled : Bool) (e : Event) :
    (r.turn now cancelled e).1.IsLooping ∨
      ((r.turn now cancelled e).1.stage = .flushing (.ok ()) ∧ cancelled = true) := by
  cases cancelled with
  | true => exact Or.inr ⟨rfl, rfl⟩
  | false =>
    rw [turn, if_neg Bool.false_ne_true]
    split
    · rename_i gap _
      exact Or.inl (by simp [IsLooping, (r.launched_send e gap).1.stage])
    · exact Or.inl trivial

/-- The end of a cycle is booked, and leaves none under way. -/
theorem emitted_totals (r : Replay) (w : Timestamp) (outcome : EmitOutcome) (checkedAt now : Instant)
    (cancelled : Bool) (e : Event) :
    let r' := (r.emitted w outcome checkedAt now cancelled e).1
    r'.cycle? = none ∧ r'.emitter.totals = (r.emitter.booked now w outcome).totals ∧
      (r'.IsLooping ∨ (r'.stage = .flushing (.ok ()) ∧ cancelled = true)) := by
  obtain ⟨s, i, he⟩ := r.emitted_eq w outcome checkedAt now cancelled e
  rw [he]
  obtain ⟨hcycle, htotals⟩ := turn_totals
    { r with emitter := r.emitter.booked now w outcome, statistics := s, instruments := i } now cancelled e
  exact ⟨hcycle, htotals, looping_or_cancelled _ now cancelled e⟩

/-- A cycle that ends well is booked, and only a cancellation ends the loop with it. -/
theorem Exchanged.closed {x : Exchange} {w : Timestamp} {stage : CycleStage} {outcome : EmitOutcome}
    {e : Event} {checkedAt now : Instant} {cancelled : Bool}
    (hex : r.Exchanged h x w stage (.ended (.ok outcome)) e checkedAt now cancelled) :
    (r.step h).1.cycle? = none ∧
      (r.step h).1.emitter.totals = (r.emitter.booked now w outcome).totals ∧
      ((r.step h).1.IsLooping ∨ ((r.step h).1.stage = .flushing (.ok ()) ∧ cancelled = true)) := by
  rw [hex.step_eq, advance]
  exact emitted_totals { r with instruments := ((⟨w, stage⟩ : Cycle).take x r.instruments).2 } w outcome
    checkedAt now cancelled e

/-- A cycle that has something left to ask for stays under way. -/
theorem Exchanged.underway {x : Exchange} {w : Timestamp} {stage next : CycleStage} {e : Event}
    {checkedAt now : Instant} {cancelled : Bool}
    (hex : r.Exchanged h x w stage next e checkedAt now cancelled)
    (hask : (⟨w, next⟩ : Cycle).request?.isSome) :
    (r.step h).1.cycle? = some ⟨w, next⟩ ∧ (r.step h).1.emitter = r.emitter := by
  rw [hex.step_eq, advance]
  cases next with
  | ended result => exact absurd hask (by simp [Cycle.request?])
  | _ => exact ⟨rfl, rfl⟩

/-- No event is checked while a cycle is under way. -/
theorem opened?_of_cycle {c : Cycle} (hc : r.cycle? = some c) : r.opened? h = none := by
  obtain ⟨e, checkedAt, hs⟩ := cycle?_eq_some_iff.1 hc
  refine opened?_eq_none (Option.eq_none_iff_forall_ne_some.2 ?_)
  rintro ⟨now, e'⟩ hchecked
  rcases checked?_cases hchecked with ⟨hs', -⟩ | ⟨d, hs', -⟩ <;> simp [hs] at hs'

theorem beat_of_exchange {x : Exchange} (hx : r.exchange? h = some x) : r.Beat h (r.step h).1 := by
  obtain ⟨w, stage, next, e, checkedAt, now, cancelled, hex⟩ := exchanged_of_exchange? hx
  have hc : r.cycle? = some ⟨w, stage⟩ := cycle?_eq_some_iff.2 ⟨e, checkedAt, hex.stage_eq⟩
  rcases hex.goes.request? with ⟨result, rfl⟩ | hask
  · cases result with
    | error fault =>
      rw [hex.step_eq, advance]
      exact .broke (by simp [IsBroken, drain])
    | ok outcome =>
      obtain ⟨hnone, htotals, -⟩ := hex.closed
      exact .closed hx (opened?_of_cycle hc) hex.goes hc hnone htotals
  · obtain ⟨hcycle, hemitter⟩ := hex.underway hask
    exact .went hx (opened?_of_cycle hc) hex.goes hask hc hcycle (congrArg Emitter.totals hemitter)

/-- Without an exchange the cycle under way stays as it is. -/
theorem kept_of_cycle (hasks : r.IsAsking) {c : Cycle} (hc : r.cycle? = some c)
    (hx : r.exchange? h = none) :
    (r.step h).1.stage = r.stage ∧ (r.step h).1.emitter = r.emitter := by
  obtain ⟨e, checkedAt, hs⟩ := cycle?_eq_some_iff.1 hc
  cases h with
  | completed id outcome =>
    exact ⟨stage_complete (by simp [hs]) id outcome, by simp only [step, complete, hs]⟩
  | answered now cancelled a =>
    rw [step, answer_of_unasked hs (hasks c hc) hx]
    exact ⟨rfl, rfl⟩

/-- Without an exchange the cycle under way does not move. -/
theorem beat_of_cycle (hasks : r.IsAsking) {c : Cycle} (hc : r.cycle? = some c)
    (hx : r.exchange? h = none) : r.Beat h (r.step h).1 := by
  obtain ⟨hstage, hemitter⟩ := kept_of_cycle hasks hc hx
  have hcycle : (r.step h).1.cycle? = r.cycle? := by rw [cycle?, hstage, cycle?]
  exact .quiet hx (opened?_of_cycle hc) hcycle (congrArg Emitter.totals hemitter)

/-- A cycle that is not to be written is booked at the head of the loop. -/
theorem AtHead.booked {r₁ : Replay} {now : Instant} {cancelled : Bool} {e : Event}
    (ha : r.AtHead h now cancelled e r₁) (hc : r.cycle? = none) :
    (r.opened? h = none ∧ r₁.emitter = r.emitter) ∨
      ∃ w, r.opened? h = some w ∧ r.emitter.config.enabled = false ∧
        r₁.emitter = r.emitter.booked now w .disabled := by
  cases ha with
  | first hs => exact Or.inl ⟨opened?_eq_none (by simp [checked?, hs]), rfl⟩
  | unchecked _ ho => exact Or.inl ⟨ho, rfl⟩
  | disabled _ ho hoff => exact Or.inr ⟨_, ho, hoff, rfl⟩
  | emitted hs => exact absurd hc (by simp [cycle?, hs])

/-- The way to the head of the loop is a beat without an exchange. -/
theorem AtHead.beat {r₁ r' : Replay} {now : Instant} {cancelled : Bool} {e : Event}
    (ha : r.AtHead h now cancelled e r₁) (hc : r.cycle? = none) (hx : r.exchange? h = none)
    (hc' : r'.cycle? = none) (htotals : r'.emitter.totals = r₁.emitter.totals) : r.Beat h r' := by
  rcases ha.booked hc with ⟨ho, he⟩ | ⟨w, ho, hoff, he⟩
  · exact .quiet hx ho (hc'.trans hc.symm) (htotals.trans (by rw [he]))
  · exact .disabled hx ho hoff hc hc' (htotals.trans (by rw [he]))

/-- Nothing is checked when the loop stops. -/
theorem Stops.checked?_eq_none {ending : Except Fault Unit} (hst : r.Stops h ending) :
    r.checked? h = none := by
  cases hst with
  | cut _ => rfl
  | exhausted hp => rcases hp with hs | hs <;> simp [checked?, hs]
  | failed hp => rcases hp with hs | hs <;> simp [checked?, hs]
  | woken _ => rfl
  | @broken _ _ cancelled _ _ _ _ hs => cases cancelled <;> simp [checked?, hs]

/-- Only a cycle under way makes exchanges. -/
theorem exchange?_eq_none (hc : r.cycle? = none) (h : Happening) : r.exchange? h = none := by
  refine Option.eq_none_iff_forall_ne_some.2 fun x hx ↦ ?_
  obtain ⟨w, stage, next, e, checkedAt, now, cancelled, hex⟩ := exchanged_of_exchange? hx
  exact absurd hc (by simp [cycle?, hex.stage_eq])

/-- A step without a cycle under way leaves the totals, or opens a cycle. -/
theorem Move.beat {x : Replay × Option Send} (hm : r.Move h x) (hc : r.cycle? = none) :
    r.Beat h x.1 := by
  have hx := exchange?_eq_none hc h
  cases hm with
  | ignored _ hchecked => exact .quiet hx (opened?_eq_none hchecked) rfl rfl
  | landed id outcome i => exact .quiet hx rfl rfl rfl
  | concluded _ hs =>
    exact .quiet hx rfl ((cycle?_eq_none_of_not_looping hs.not_looping).trans hc.symm)
      (congrArg Emitter.totals hs.emitter)
  | stopped hst => exact .quiet hx (opened?_eq_none hst.checked?_eq_none) hc.symm rfl
  | halted ha => exact ha.beat hc hx rfl rfl
  | launched ha _ hl =>
    refine ha.beat hc hx ?_ ?_
    · rw [cycle?, hl.stage]
    · rw [hl.emitter, Emitter.totals_recordEvents]
  | slept ha => exact ha.beat hc hx rfl rfl
  | opened _ ho hon => exact .opened hx ho hon hc rfl rfl
  | advanced hs _ => exact absurd hc (by simp [cycle?, hs])
  | ended hs hend =>
    refine .quiet hx (opened?_eq_none ?_)
      ((cycle?_eq_none_of_not_looping hend.not_looping).trans hc.symm)
      (congrArg Emitter.totals hend.emitter)
    exact checked?_eq_none_of_not_looping (by simp [IsLooping, hs]) _

/-- Every step is one of the beats. -/
theorem beat_step (hasks : r.IsAsking) (h : Happening) : r.Beat h (r.step h).1 := by
  cases hx : r.exchange? h with
  | some x => exact beat_of_exchange hx
  | none =>
    cases hc : r.cycle? with
    | some c => exact beat_of_cycle hasks hc hx
    | none => exact (r.move_step h).beat hc

/-- A cycle that has begun or goes on asks for something. -/
theorem asking_step (hasks : r.IsAsking) (h : Happening) : (r.step h).1.IsAsking := by
  intro c hc
  have hb := r.beat_step hasks h
  generalize (r.step h).1 = r' at hb hc
  cases hb with
  | quiet _ _ hsame _ => exact hasks c (hsame ▸ hc)
  | opened _ _ _ _ hstart _ =>
    rw [← Option.some.inj (hstart.symm.trans hc)]
    rfl
  | disabled _ _ _ _ hnone _ => exact absurd (hnone.symm.trans hc) (by simp)
  | went _ _ _ hnext _ hgoes _ =>
    rw [← Option.some.inj (hgoes.symm.trans hc)]
    exact hnext
  | closed _ _ _ _ hnone _ => exact absurd (hnone.symm.trans hc) (by simp)
  | broke hbroken =>
    obtain ⟨e, checkedAt, hs⟩ := cycle?_eq_some_iff.1 hc
    exact absurd hbroken (by simp [IsBroken, hs])

/-- Cycles have something to ask for all along a run. -/
theorem asking_after (hasks : r.IsAsking) (hs : List Happening) : (r.after hs).IsAsking := by
  induction hs using List.reverseRecOn with
  | nil => exact hasks
  | append_singleton hs h ih =>
    rw [after_concat]
    exact asking_step ih h

@[simp] theorem cycle?_start (c : ReplayConfig) (t : Tracker) (i : Instruments) :
    (start c t i).cycle? = none := by
  rw [start, cycle?]
  cases c.validate <;> rfl

theorem asking_start (c : ReplayConfig) (t : Tracker) (i : Instruments) : (start c t i).IsAsking := by
  intro cycle hc
  exact absurd hc (by simp)

/-! ### Faults -/

/-- A loop that has ended with a fault is not put right any more. -/
theorem broken_step (hr : r.IsBroken) (h : Happening) : (r.step h).1.IsBroken := by
  have hfinish : ∀ (r : Replay) (fault : Fault) drained, (r.finish (.error fault) drained).IsBroken :=
    fun _ _ _ ↦ trivial
  have hsettle : ∀ (r : Replay) (fault : Fault), (r.settle (.error fault)).IsBroken := by
    intro r fault
    rw [settle]
    split
    · exact hfinish r fault _
    · trivial
  rw [IsBroken] at hr
  split at hr
  · rename_i fault hs
    cases h with
    | completed id outcome => simp only [step, complete, hs, IsBroken]
    | answered now cancelled a =>
      cases a with
      | flushed drained =>
        cases drained with
        | ok u => simpa only [step, answer, hs] using hsettle r fault
        | error first => simpa only [step, answer, hs] using hfinish r fault _
      | _ => simp only [step, answer, hs, IsBroken]
  · rename_i fault hs
    cases h with
    | completed id outcome => simpa only [step, complete, hs] using hsettle _ fault
    | answered now cancelled a => simp only [step, answer, hs, IsBroken]
  · rename_i fault hs
    cases h with
    | completed id outcome => simp only [step, complete, hs, IsBroken]
    | answered now cancelled a => simp only [step, answer, hs, IsBroken]
  · exact hr.elim

end Replay

end Tidemark
