import Mathlib.Data.List.Induction
import Tidemark.Proofs.Replay.Moves

/-!
# Runs of a replay

A run is the list of everything that happens to a replay; `observe` collects along it what the steps show.
The answers of a destination, the order and the outcome of the completions, the instants and the moment
of the cancellation are all in the happenings, so a statement about every list of happenings is one about
every destination and every order.

The source is a `Feed`, its answers to the pulls one by one, and `FedBy` ties a run to it: the answers
that the source has given in the run are its first ones. An event lies `Ahead` when it is pending or the
feed has yet to yield it. What a step sends was ahead before it, and nothing comes to lie ahead that was
not before (`ahead_of_sent`, `Ahead.of_step`).
-/

namespace Tidemark

/-- The answers of a source to its pulls, the first one first. -/
abbrev Feed := Nat → Except Fault (Option Event)

namespace Feed

/-- Later events of the feed are no older. -/
def Ordered (feed : Feed) : Prop :=
  ∀ m n a b, m < n → feed m = .ok (some a) → feed n = .ok (some b) → a.timestamp ≤ b.timestamp

/-- No two events of the feed share a key. -/
def Distinct (feed : Feed) : Prop :=
  ∀ m n a b, m < n → feed m = .ok (some a) → feed n = .ok (some b) → a.key ≠ b.key

/-- The feed that yields some events and is exhausted then. -/
def ofList (events : List Event) : Feed :=
  fun n ↦ .ok events[n]?

/-- Related events are related in the feed that yields them. -/
theorem pairwise_ofList {R : Event → Event → Prop} {events : List Event} (h : events.Pairwise R) :
    ∀ m n a b, m < n → ofList events m = .ok (some a) → ofList events n = .ok (some b) → R a b := by
  intro m n a b hlt ha hb
  obtain ⟨hm, rfl⟩ := List.getElem?_eq_some_iff.1 (Except.ok.inj ha)
  obtain ⟨hn, rfl⟩ := List.getElem?_eq_some_iff.1 (Except.ok.inj hb)
  exact List.pairwise_iff_getElem.1 h m n hm hn hlt

end Feed

namespace Replay

/-! ### Running -/

/-- The replay after a run. -/
def after (r : Replay) (hs : List Happening) : Replay :=
  (r.run hs).1

@[simp] theorem after_nil (r : Replay) : r.after [] = r := rfl

@[simp] theorem after_cons (r : Replay) (h : Happening) (hs : List Happening) :
    r.after (h :: hs) = (r.step h).1.after hs := rfl

@[simp] theorem after_append (r : Replay) (hs hs' : List Happening) :
    r.after (hs ++ hs') = (r.after hs).after hs' := by
  induction hs generalizing r with
  | nil => rfl
  | cons h hs ih => exact ih _

theorem after_concat (r : Replay) (hs : List Happening) (h : Happening) :
    r.after (hs ++ [h]) = ((r.after hs).step h).1 :=
  r.after_append hs [h]

theorem sent_cons (r : Replay) (h : Happening) (hs : List Happening) :
    (r.run (h :: hs)).2 = (r.step h).2.toList ++ ((r.step h).1.run hs).2 := rfl

theorem sent_append (r : Replay) (hs hs' : List Happening) :
    (r.run (hs ++ hs')).2 = (r.run hs).2 ++ ((r.after hs).run hs').2 := by
  induction hs generalizing r with
  | nil => rfl
  | cons h hs ih =>
    rw [List.cons_append, sent_cons, sent_cons, ih, after_cons, List.append_assoc]

theorem sent_concat (r : Replay) (hs : List Happening) (h : Happening) :
    (r.run (hs ++ [h])).2 = (r.run hs).2 ++ ((r.after hs).step h).2.toList := by
  rw [sent_append, sent_cons]
  exact congrArg _ (List.append_nil _)

/-- What the steps of a run show, in order. -/
def observe {α : Type} (look : Replay → Happening → Option α) (r : Replay) : List Happening → List α
  | [] => []
  | h :: hs => (look r h).toList ++ observe look (r.step h).1 hs

section Observe

variable {α : Type} (look : Replay → Happening → Option α)

theorem observe_append (r : Replay) (hs hs' : List Happening) :
    r.observe look (hs ++ hs') = r.observe look hs ++ (r.after hs).observe look hs' := by
  induction hs generalizing r with
  | nil => rfl
  | cons h hs ih =>
    rw [List.cons_append, observe, observe, ih, after_cons, List.append_assoc]

theorem observe_concat (r : Replay) (hs : List Happening) (h : Happening) :
    r.observe look (hs ++ [h]) = r.observe look hs ++ (look (r.after hs) h).toList := by
  rw [observe_append, observe]
  exact congrArg _ (List.append_nil _)

end Observe

/-- The answers that the source has given in a run, with their instants. -/
def yields (r : Replay) (hs : List Happening) : List (Instant × Except Fault (Option Event)) :=
  r.observe yield? hs

/-- The run is fed by the source: its answers in the run are the first ones of the feed. -/
def FedBy (r : Replay) (feed : Feed) (hs : List Happening) : Prop :=
  ∀ n y, (r.yields hs)[n]? = some y → y.2 = feed n

/-! ### Events held, pulled and sent in one step -/

/-- The event that the source answers in a step. -/
def pulled? (r : Replay) (h : Happening) : Option Event :=
  (r.yield? h).bind fun y ↦ y.2.toOption.join

/-- An event is pulled exactly if the source answers with one. -/
theorem pulled?_eq_some_iff {r : Replay} {h : Happening} {e : Event} :
    r.pulled? h = some e ↔ ∃ now, r.yield? h = some (now, .ok (some e)) := by
  rw [pulled?]
  rcases r.yield? h with _ | ⟨now, fault | _ | f⟩ <;> simp [Except.toOption]

/-- Without an answer of the source nothing is pulled. -/
theorem pulled?_eq_none_of_yield? {r : Replay} {h : Happening} (hy : r.yield? h = none) :
    r.pulled? h = none := by
  rw [pulled?, hy]
  rfl

/-- Only a replay that waits for its source hears of it. -/
theorem yield?_eq_none {r : Replay} (hr : ¬ r.IsPulling) (h : Happening) : r.yield? h = none := by
  rw [IsPulling, not_or] at hr
  unfold yield?
  split
  · split
    · rename_i hs
      exact absurd hs hr.1
    · rename_i hs
      exact absurd hs hr.2
    · rfl
  · rfl

/-- The source answers a replay that waits for it and is not cancelled. -/
theorem yield?_cases {r : Replay} {h : Happening} {now : Instant}
    {a : Except Fault (Option Event)} (hy : r.yield? h = some (now, a)) :
    r.IsPulling ∧ h = .answered now false (.pulled a) := by
  unfold yield? at hy
  split at hy
  · split at hy
    · rename_i hs
      obtain ⟨rfl, rfl⟩ := Prod.mk.inj (Option.some.inj hy)
      exact ⟨Or.inl hs, rfl⟩
    · rename_i hs
      obtain ⟨rfl, rfl⟩ := Prod.mk.inj (Option.some.inj hy)
      exact ⟨Or.inr hs, rfl⟩
    · exact absurd hy (by simp)
  · exact absurd hy (by simp)

/-- Nothing is held while the source is waited for. -/
theorem pending?_eq_none_of_isPulling {r : Replay} (hr : r.IsPulling) : r.pending? = none := by
  rcases hr with hs | hs <;> rw [pending?, hs]

/-- A check follows a pull or a sleep. -/
theorem checked?_cases {r : Replay} {h : Happening} {now : Instant} {e : Event}
    (hc : r.checked? h = some (now, e)) :
    (r.stage = .pulling ∧ h = .answered now false (.pulled (.ok (some e)))) ∨
      ∃ d, r.stage = .sleeping e d ∧ h = .answered now false .slept := by
  unfold checked? at hc
  split at hc
  · split at hc
    · rename_i hs
      obtain ⟨rfl, rfl⟩ := Prod.mk.inj (Option.some.inj hc)
      exact Or.inl ⟨hs, rfl⟩
    · rename_i hs
      obtain ⟨rfl, rfl⟩ := Prod.mk.inj (Option.some.inj hc)
      exact Or.inr ⟨_, hs, rfl⟩
    · exact absurd hc (by simp)
  · exact absurd hc (by simp)

/-- An answer that leads to a check does nothing else. -/
theorem answer_of_checked {r : Replay} {now now' : Instant} {cancelled : Bool} {a : ReplayAnswer} {e : Event}
    (hc : r.checked? (.answered now cancelled a) = some (now', e)) :
    now' = now ∧ r.answer now cancelled a = r.check now false e := by
  rcases checked?_cases hc with ⟨hs, ha⟩ | ⟨d, hs, ha⟩
  · obtain ⟨rfl, rfl, rfl⟩ := Happening.answered.inj ha
    exact ⟨rfl, by simp only [answer, hs, if_neg Bool.false_ne_true]⟩
  · obtain ⟨rfl, rfl, rfl⟩ := Happening.answered.inj ha
    exact ⟨rfl, by simp only [answer, hs, if_neg Bool.false_ne_true]⟩

/-- The event of a check is the one held or the one just pulled. -/
theorem event_of_checked {r : Replay} {h : Happening} {now : Instant} {e : Event}
    (hc : r.checked? h = some (now, e)) : r.pending?.toList ++ (r.pulled? h).toList = [e] := by
  rcases checked?_cases hc with ⟨hs, rfl⟩ | ⟨d, hs, rfl⟩
  · simp [pending?, pulled?, yield?, hs, Except.toOption]
  · simp [pending?, pulled?, yield?, hs]

/-- The head of the loop is reached with the event that was held or just pulled. -/
theorem AtHead.event {r r₁ : Replay} {h : Happening} {now : Instant} {cancelled : Bool} {e : Event}
    (ha : r.AtHead h now cancelled e r₁) : r.pending?.toList ++ (r.pulled? h).toList = [e] := by
  cases ha with
  | first hs => simp [pending?, pulled?, yield?, hs, Except.toOption]
  | unchecked hc _ => exact event_of_checked hc
  | disabled hc _ _ => exact event_of_checked hc
  | emitted hs =>
    rw [pulled?_eq_none_of_yield? (yield?_eq_none (by simp [IsPulling, hs]) _), pending?, hs]
    rfl

theorem Stops.pulled?_eq_none {r : Replay} {h : Happening} {ending : Except Fault Unit}
    (hst : r.Stops h ending) : r.pulled? h = none := by
  cases hst with
  | cut _ => rfl
  | exhausted hp => rcases hp with hs | hs <;> simp [pulled?, yield?, hs, Except.toOption]
  | failed hp => rcases hp with hs | hs <;> simp [pulled?, yield?, hs, Except.toOption]
  | woken _ => rfl
  | broken hs => exact pulled?_eq_none_of_yield? (yield?_eq_none (by simp [IsPulling, hs]) _)

theorem pending?_eq_none_of_not_looping {r : Replay} (hr : ¬ r.IsLooping) : r.pending? = none := by
  rw [IsLooping] at hr
  rw [pending?]
  split at hr <;> simp_all

/-- The loop has not ended while the source is waited for. -/
theorem IsPulling.isLooping {r : Replay} (hr : r.IsPulling) : r.IsLooping := by
  rcases hr with hs | hs <;> simp [IsLooping, hs]

/-- The source is waited for by whoever asks for the next event. -/
theorem isPulling_of_request {r : Replay} (hq : r.request = .pull) : r.IsPulling := by
  cases hs : r.stage with
  | opening => exact Or.inl hs
  | pulling => exact Or.inr hs
  | emitting cycle e checkedAt =>
    simp only [request, hs] at hq
    split at hq <;> exact absurd hq (by simp)
  | _ => simp [request, hs] at hq

/-- A completion leaves the loop where it stands. -/
theorem stage_complete {r : Replay} (hr : ∀ ending, r.stage ≠ .settling ending) (id : Nat)
    (outcome : Outcome) : (r.complete id outcome).stage = r.stage := by
  cases hs : r.stage with
  | settling ending => exact absurd hs (hr ending)
  | _ => simp only [complete, hs]

/-- The event that a step starts with, held or just pulled, is sent in it or left. What is left is held
on to as long as the loop has not ended. -/
theorem Move.events {r : Replay} {h : Happening} {x : Replay × Option Send} (hm : r.Move h x) :
    ∃ left, r.pending?.toList ++ (r.pulled? h).toList = x.2.toList.map Send.event ++ left ∧
      (x.1.IsLooping → left = x.1.pending?.toList) ∧ x.2.toList.length + left.length ≤ 1 := by
  have hheld : 0 + r.pending?.toList.length ≤ 1 := by cases r.pending? <;> simp
  cases hm with
  | ignored hy _ =>
    exact ⟨_, by rw [pulled?_eq_none_of_yield? hy]; simp, fun _ ↦ rfl, hheld⟩
  | landed id outcome i => exact ⟨_, List.append_nil _, fun _ ↦ rfl, hheld⟩
  | concluded _ hs => exact ⟨_, List.append_nil _, fun hl ↦ absurd hl hs.not_looping, hheld⟩
  | stopped hst =>
    exact ⟨r.pending?.toList, by rw [hst.pulled?_eq_none]; simp, fun hl ↦ hl.elim, hheld⟩
  | halted ha => exact ⟨_, ha.event, fun hl ↦ hl.elim, Nat.le_refl 1⟩
  | launched ha _ hl =>
    rw [ha.event]
    exact ⟨[], rfl, fun _ ↦ by rw [pending?, hl.stage]; rfl, Nat.le_refl 1⟩
  | slept ha => exact ⟨_, ha.event, fun _ ↦ rfl, Nat.le_refl 1⟩
  | opened hc _ _ => exact ⟨_, event_of_checked hc, fun _ ↦ rfl, Nat.le_refl 1⟩
  | advanced hs _ =>
    rw [pulled?_eq_none_of_yield? (yield?_eq_none (by simp [IsPulling, hs]) _), pending?, hs]
    exact ⟨_, rfl, fun _ ↦ rfl, Nat.le_refl 1⟩
  | ended hs hend =>
    rw [pulled?_eq_none_of_yield? (yield?_eq_none (by simp [IsPulling, hs]) _), pending?, hs]
    exact ⟨[], rfl, fun hl ↦ absurd hl hend.not_looping, Nat.zero_le 1⟩

/-- The loop has not ended while an event is held. -/
theorem isLooping_of_pending {r : Replay} {e : Event} (hp : r.pending? = some e) : r.IsLooping := by
  by_contra hr
  rw [pending?_eq_none_of_not_looping hr] at hp
  exact absurd hp (by simp)

/-- What is held after a step was held before it or just pulled. -/
theorem pending_of_step {r : Replay} {h : Happening} {e : Event}
    (hp : (r.step h).1.pending? = some e) : r.pending? = some e ∨ r.pulled? h = some e := by
  obtain ⟨left, he, hleft, -⟩ := (r.move_step h).events
  rw [hleft (isLooping_of_pending hp), hp] at he
  have hmem : e ∈ r.pending?.toList ++ (r.pulled? h).toList := by
    rw [he]
    simp
  simpa using hmem

/-- What a step sends was held before it or just pulled, and nothing is held after it. -/
theorem pending_of_sent {r : Replay} {h : Happening} {s : Send} (hs : (r.step h).2 = some s) :
    (r.pending? = some s.event ∨ r.pulled? h = some s.event) ∧ (r.step h).1.pending? = none := by
  obtain ⟨left, he, hleft, hlen⟩ := (r.move_step h).events
  rw [hs] at he hlen
  constructor
  · have hmem : s.event ∈ r.pending?.toList ++ (r.pulled? h).toList := by
      rw [he]
      simp
    simpa using hmem
  · cases hp : (r.step h).1.pending? with
    | none => rfl
    | some e =>
      rw [hleft (isLooping_of_pending hp), hp] at hlen
      exact absurd hlen (by simp)

/-! ### After the loop -/

theorem pulled?_eq_none_of_not_looping {r : Replay} (hr : ¬ r.IsLooping) (h : Happening) :
    r.pulled? h = none :=
  pulled?_eq_none_of_yield? (yield?_eq_none (mt IsPulling.isLooping hr) h)

/-- Nothing is checked once the loop has ended. -/
theorem checked?_eq_none_of_not_looping {r : Replay} (hr : ¬ r.IsLooping) (h : Happening) :
    r.checked? h = none := by
  cases hc : r.checked? h with
  | none => rfl
  | some y =>
    rcases checked?_cases hc with ⟨hs, -⟩ | ⟨d, hs, -⟩ <;> simp [IsLooping, hs] at hr

/-- The head of a loop is not reached once it has ended. -/
theorem AtHead.isLooping {r r₁ : Replay} {h : Happening} {now : Instant} {cancelled : Bool} {e : Event}
    (ha : r.AtHead h now cancelled e r₁) : r.IsLooping := by
  by_contra hr
  have he := ha.event
  rw [pending?_eq_none_of_not_looping hr, pulled?_eq_none_of_not_looping hr] at he
  exact absurd he (by simp)

/-- A loop that has ended stays so, and sends nothing. -/
theorem Move.of_not_looping {r : Replay} {h : Happening} {x : Replay × Option Send}
    (hm : r.Move h x) (hr : ¬ r.IsLooping) : ¬ x.1.IsLooping ∧ x.2 = none := by
  cases hm with
  | ignored _ _ => exact ⟨hr, rfl⟩
  | landed id outcome i => exact ⟨hr, rfl⟩
  | concluded _ hs => exact ⟨hs.not_looping, rfl⟩
  | stopped _ => exact ⟨id, rfl⟩
  | halted ha => exact absurd ha.isLooping hr
  | launched ha _ _ => exact absurd ha.isLooping hr
  | slept ha => exact absurd ha.isLooping hr
  | opened hc _ _ =>
    rw [checked?_eq_none_of_not_looping hr] at hc
    exact absurd hc (by simp)
  | advanced hs _ => exact absurd (by simp [IsLooping, hs]) hr
  | ended _ hend => exact ⟨hend.not_looping, rfl⟩

theorem isLooping_of_step {r : Replay} {h : Happening} (hl : (r.step h).1.IsLooping) :
    r.IsLooping := by
  by_contra hr
  exact ((r.move_step h).of_not_looping hr).1 hl

/-- Once the loop has ended nothing is pulled or sent any more. -/
theorem run_of_not_looping {r : Replay} (hr : ¬ r.IsLooping) (hs : List Happening) :
    ¬ (r.after hs).IsLooping ∧ (r.run hs).2 = [] ∧ r.yields hs = [] := by
  induction hs generalizing r with
  | nil => exact ⟨hr, rfl, rfl⟩
  | cons h hs ih =>
    obtain ⟨hstep, hnone⟩ := (r.move_step h).of_not_looping hr
    obtain ⟨hafter, hsent, hyields⟩ := ih hstep
    refine ⟨hafter, ?_, ?_⟩
    · rw [sent_cons, hnone, hsent]
      rfl
    · rw [yields, observe, yield?_eq_none (mt IsPulling.isLooping hr)]
      exact hyields

/-! ### Events along a run -/

/-- The events that the source has yielded in a run. -/
def pulled (r : Replay) (hs : List Happening) : List Event :=
  (r.yields hs).filterMap fun y ↦ y.2.toOption.join

theorem pulled_cons (r : Replay) (h : Happening) (hs : List Happening) :
    r.pulled (h :: hs) = (r.pulled? h).toList ++ (r.step h).1.pulled hs := by
  rw [pulled, yields, observe, List.filterMap_append, pulled, pulled?, yields]
  congr 1
  cases r.yield? h with
  | none => rfl
  | some y => cases hy : y.2.toOption.join <;> simp [hy]

/-- A source that is found exhausted ends the loop, and nothing is held then. -/
theorem step_of_exhausted {r : Replay} {h : Happening} {now : Instant}
    (hy : r.yield? h = some (now, .ok none)) :
    r.pending? = none ∧ r.pulled? h = none ∧ ¬ (r.step h).1.IsLooping := by
  obtain ⟨hp, rfl⟩ := yield?_cases hy
  refine ⟨pending?_eq_none_of_isPulling hp, by rw [pulled?, hy]; rfl, ?_⟩
  rcases hp with hs | hs <;> simp [step, answer, hs, drain, note, IsLooping]

/-- A pull that the cancellation cuts short ends the loop. -/
theorem not_isLooping_of_cut {r : Replay} (hr : r.IsPulling) (now : Instant)
    (a : Except Fault (Option Event)) :
    ¬ (r.step (.answered now true (.pulled a))).1.IsLooping := by
  rcases hr with hs | hs <;> simp [step, answer, hs, drain, note, IsLooping]

/-- Along a run the events held and pulled are sent in their order, and at most one of them is left.
It is the one held, unless the loop has ended; and none is left once the source was found exhausted. -/
theorem run_events (r : Replay) (hs : List Happening) :
    ∃ left, r.pending?.toList ++ r.pulled hs = (r.run hs).2.map Send.event ++ left ∧
      left.length ≤ 1 ∧
      ((r.after hs).IsLooping → left = (r.after hs).pending?.toList) ∧
      (∀ now, (now, .ok none) ∈ r.yields hs → left = []) := by
  induction hs generalizing r with
  | nil =>
    refine ⟨r.pending?.toList, List.append_nil _, ?_, fun _ ↦ rfl, fun _ hy ↦ ?_⟩
    · cases r.pending? <;> simp
    · exact absurd hy (by simp [yields, observe])
  | cons h hs ih =>
    obtain ⟨left₁, he₁, hloop₁, hlen₁⟩ := (r.move_step h).events
    rw [pulled_cons, sent_cons, List.map_append, ← List.append_assoc, he₁, List.append_assoc]
    by_cases hl : (r.step h).1.IsLooping
    · obtain ⟨left, he, hlen, hloop, hdry⟩ := ih (r.step h).1
      refine ⟨left, ?_, hlen, hloop, ?_⟩
      · -- what the step leaves is what the rest of the run starts with
        rw [hloop₁ hl, he, List.append_assoc]
      · intro now hy
        rcases List.mem_append.1 hy with hy | hy
        · exact absurd hl (step_of_exhausted (Option.mem_toList.1 hy)).2.2
        · exact hdry now hy
    · -- the loop ends in this step, so nothing is pulled or sent after it
      obtain ⟨hafter, hsent, hyields⟩ := run_of_not_looping hl hs
      refine ⟨left₁, ?_, by omega, fun h ↦ absurd h hafter, ?_⟩
      · rw [hsent, pulled, hyields]
        simp
      · intro now hy
        rcases List.mem_append.1 hy with hy | hy
        · -- the source was found exhausted in this very step, in which nothing was held or pulled
          obtain ⟨hp, hq, -⟩ := step_of_exhausted (Option.mem_toList.1 hy)
          rw [hp, hq] at he₁
          exact (List.append_eq_nil_iff.1 he₁.symm).2
        · rw [← yields, hyields] at hy
          exact absurd hy (by simp)

/-- A replay that holds nothing sends a prefix of what it pulls. -/
theorem sent_prefix_pulled {r : Replay} (hr : r.pending? = none) (hs : List Happening) :
    (r.run hs).2.map Send.event <+: r.pulled hs := by
  obtain ⟨left, he, -⟩ := r.run_events hs
  rw [hr] at he
  exact ⟨left, he.symm⟩

/-! ### Runs that are fed -/

section Fed

variable {r : Replay} {feed : Feed} {hs hs' : List Happening} {h : Happening}

theorem yields_append (r : Replay) (hs hs' : List Happening) :
    r.yields (hs ++ hs') = r.yields hs ++ (r.after hs).yields hs' :=
  r.observe_append yield? hs hs'

theorem yields_concat (r : Replay) (hs : List Happening) (h : Happening) :
    r.yields (hs ++ [h]) = r.yields hs ++ ((r.after hs).yield? h).toList :=
  r.observe_concat yield? hs h

theorem FedBy.of_append (hf : r.FedBy feed (hs ++ hs')) : r.FedBy feed hs := by
  intro n y hy
  refine hf n y ?_
  rw [yields_append, List.getElem?_append_left (List.getElem?_eq_some_iff.1 hy).1]
  exact hy

/-- A run that goes on stays fed if what the source answers next is the next answer of the feed. -/
theorem FedBy.concat (hf : r.FedBy feed hs) {h : Happening}
    (hy : ∀ y, (r.after hs).yield? h = some y → y.2 = feed (r.yields hs).length) :
    r.FedBy feed (hs ++ [h]) := by
  intro n y hn
  rw [yields_concat] at hn
  by_cases hlt : n < (r.yields hs).length
  · rw [List.getElem?_append_left hlt] at hn
    exact hf n y hn
  · rw [List.getElem?_append_right (Nat.le_of_not_lt hlt)] at hn
    cases ha : (r.after hs).yield? h with
    | none => simp [ha] at hn
    | some z =>
      rw [ha, Option.toList_some, List.getElem?_singleton] at hn
      split at hn
      · rename_i hzero
        have hn' : n = (r.yields hs).length := by omega
        rw [← Option.some.inj hn, hn']
        exact hy z ha
      · exact absurd hn (by simp)

/-- A run is fed by a list of events if its answers are those events in order. -/
theorem fedBy_ofList {events : List Event}
    (h : ∀ n < (r.yields hs).length, ((r.yields hs)[n]?.bind fun y ↦ y.2.toOption) = some events[n]?) :
    r.FedBy (.ofList events) hs := by
  rintro n ⟨now, answer⟩ hy
  have hn := h n (List.getElem?_eq_some_iff.1 hy).1
  rw [hy] at hn
  cases answer with
  | error fault => exact absurd hn (by simp [Except.toOption])
  | ok e => exact congrArg Except.ok (Option.some.inj hn)

/-- The events of a fed run are related as those of the feed are. -/
theorem FedBy.pairwise_pulled {R : Event → Event → Prop} (hf : r.FedBy feed hs)
    (hR : ∀ m n a b, m < n → feed m = .ok (some a) → feed n = .ok (some b) → R a b) :
    (r.pulled hs).Pairwise R := by
  have hevent : ∀ {y : Except Fault (Option Event)} {e}, y.toOption.join = some e → y = .ok (some e) := by
    rintro (_ | _ | _) e he <;> simp_all [Except.toOption]
  rw [pulled, List.pairwise_filterMap, List.pairwise_iff_getElem]
  intro m n hm hn hlt a ha b hb
  refine hR m n a b hlt ?_ ?_
  · rw [← hf m _ (List.getElem?_eq_getElem hm)]
    exact hevent ha
  · rw [← hf n _ (List.getElem?_eq_getElem hn)]
    exact hevent hb

/-- No two sends of a run share a key if the feed gives none twice. -/
theorem FedBy.nodup_keys (hf : r.FedBy feed hs) (hr : r.pending? = none) (hd : feed.Distinct) :
    ((r.run hs).2.map fun s ↦ s.event.key).Nodup := by
  have hpulled : (r.pulled hs).Pairwise fun a b ↦ a.key ≠ b.key := hf.pairwise_pulled hd
  have hsent := hpulled.sublist (sent_prefix_pulled hr hs).sublist
  rw [List.pairwise_map] at hsent
  exact List.pairwise_map.2 hsent

/-- The next answer of the source is the next one of the feed. -/
theorem FedBy.feed_of_yield (hf : r.FedBy feed (hs ++ [h])) {now : Instant}
    {a : Except Fault (Option Event)} (hy : (r.after hs).yield? h = some (now, a)) :
    (r.yields (hs ++ [h])).length = (r.yields hs).length + 1 ∧ feed (r.yields hs).length = a := by
  have he : r.yields (hs ++ [h]) = r.yields hs ++ [(now, a)] := by
    rw [yields, observe_concat, hy]
    rfl
  refine ⟨by rw [he]; simp, (hf _ (now, a) ?_).symm⟩
  rw [he]
  simp

/-- The event that is pulled next is the next one of the feed. -/
theorem FedBy.feed_of_pulled (hf : r.FedBy feed (hs ++ [h])) {e : Event}
    (he : (r.after hs).pulled? h = some e) :
    (r.yields (hs ++ [h])).length = (r.yields hs).length + 1 ∧
      feed (r.yields hs).length = .ok (some e) := by
  obtain ⟨now, hy⟩ := pulled?_eq_some_iff.1 he
  exact hf.feed_of_yield hy

/-- A run that goes on has no fewer answers of its source. -/
theorem length_yields_le (r : Replay) (hs hs' : List Happening) :
    (r.yields hs).length ≤ (r.yields (hs ++ hs')).length := by
  rw [yields_append, List.length_append]
  exact Nat.le_add_right _ _

/-- What a replay holds is one of the events that its source has yielded. -/
theorem FedBy.exists_feed_of_pending (hf : r.FedBy feed hs) (hr : r.pending? = none) {e : Event}
    (hp : (r.after hs).pending? = some e) :
    ∃ m, m < (r.yields hs).length ∧ feed m = .ok (some e) := by
  induction hs using List.reverseRecOn with
  | nil => exact absurd (hr.symm.trans hp) (by simp)
  | append_singleton hs h ih =>
    rw [after_concat] at hp
    rcases pending_of_step hp with hp | he
    · -- held before the step as well: an earlier answer
      obtain ⟨m, hm, hfeed⟩ := ih hf.of_append hp
      exact ⟨m, Nat.lt_of_lt_of_le hm (r.length_yields_le hs [h]), hfeed⟩
    · obtain ⟨hlen, hfeed⟩ := hf.feed_of_pulled he
      exact ⟨_, by omega, hfeed⟩

/-! ### What lies ahead -/

/-- The event is held, or the feed has yet to yield it. -/
def Ahead (r : Replay) (feed : Feed) (hs : List Happening) (e : Event) : Prop :=
  (r.after hs).pending? = some e ∨ ∃ n, (r.yields hs).length ≤ n ∧ feed n = .ok (some e)

/-- Nothing comes to lie ahead that did not before. -/
theorem Ahead.of_step (hf : r.FedBy feed (hs ++ [h])) {e : Event} (ha : r.Ahead feed (hs ++ [h]) e) :
    r.Ahead feed hs e := by
  rcases ha with hp | ⟨n, hn, hfeed⟩
  · rw [after_append] at hp
    rcases pending_of_step hp with hp | he
    · exact Or.inl hp
    · exact Or.inr ⟨_, Nat.le_refl _, (hf.feed_of_pulled he).2⟩
  · exact Or.inr ⟨n, Nat.le_trans (r.length_yields_le hs [h]) hn, hfeed⟩

theorem Ahead.of_append (hf : r.FedBy feed (hs ++ hs')) {e : Event} (ha : r.Ahead feed (hs ++ hs') e) :
    r.Ahead feed hs e := by
  induction hs' using List.reverseRecOn with
  | nil => simpa using ha
  | append_singleton hs' h ih =>
    rw [← List.append_assoc] at hf ha
    exact ih hf.of_append (ha.of_step hf)

/-- What a step checks for a cycle lay ahead before it. -/
theorem ahead_of_checked (hf : r.FedBy feed (hs ++ [h])) {now : Instant} {e : Event}
    (hc : (r.after hs).checked? h = some (now, e)) : r.Ahead feed hs e := by
  have hmem : e ∈ (r.after hs).pending?.toList ++ ((r.after hs).pulled? h).toList := by
    rw [event_of_checked hc]
    exact List.mem_singleton.2 rfl
  rcases List.mem_append.1 hmem with hp | he
  · exact Or.inl (Option.mem_toList.1 hp)
  · exact Or.inr ⟨_, Nat.le_refl _, (hf.feed_of_pulled (Option.mem_toList.1 he)).2⟩

/-- What a step sends lay ahead before it. -/
theorem ahead_of_sent (hf : r.FedBy feed (hs ++ [h])) {s : Send}
    (hs' : ((r.after hs).step h).2 = some s) : r.Ahead feed hs s.event := by
  rcases (pending_of_sent hs').1 with hp | he
  · exact Or.inl hp
  · exact Or.inr ⟨_, Nat.le_refl _, (hf.feed_of_pulled he).2⟩

/-- What is sent later in a run lies ahead now. -/
theorem ahead_of_mem_sent (hf : r.FedBy feed (hs ++ hs')) {s : Send}
    (hmem : s ∈ ((r.after hs).run hs').2) : r.Ahead feed hs s.event := by
  induction hs' using List.reverseRecOn with
  | nil => exact absurd hmem (by simp [run])
  | append_singleton hs' h ih =>
    rw [← List.append_assoc] at hf
    rw [sent_concat] at hmem
    rcases List.mem_append.1 hmem with hmem | hmem
    · exact ih hf.of_append hmem
    · -- ahead right before its step, and so ahead since the first part of the run
      rw [← after_append] at hmem
      exact (ahead_of_sent hf (Option.mem_toList.1 hmem)).of_append hf.of_append

/-- In a feed that is ordered by time nothing ahead is older than what has just been sent. -/
theorem le_of_ahead_of_sent (hf : r.FedBy feed (hs ++ [h])) (hr : r.pending? = none)
    (ho : feed.Ordered) {s : Send} (hsent : ((r.after hs).step h).2 = some s) {e : Event}
    (ha : r.Ahead feed (hs ++ [h]) e) : s.event.timestamp ≤ e.timestamp := by
  obtain ⟨hheld, hnone⟩ := pending_of_sent hsent
  -- the event just sent is an answer of the feed from before
  have hm : ∃ m, m < (r.yields (hs ++ [h])).length ∧ feed m = .ok (some s.event) := by
    rcases hheld with hp | he
    · obtain ⟨m, hm, hfeed⟩ := hf.of_append.exists_feed_of_pending hr hp
      exact ⟨m, Nat.lt_of_lt_of_le hm (r.length_yields_le hs [h]), hfeed⟩
    · obtain ⟨hlen, hfeed⟩ := hf.feed_of_pulled he
      exact ⟨_, by omega, hfeed⟩
  obtain ⟨m, hm, hfeed⟩ := hm
  rcases ha with hp | ⟨n, hn, hfeed'⟩
  · rw [after_concat] at hp
    exact absurd (hnone.symm.trans hp) (by simp)
  · exact ho m n _ _ (Nat.lt_of_lt_of_le hm hn) hfeed hfeed'

end Fed

end Replay

end Tidemark
