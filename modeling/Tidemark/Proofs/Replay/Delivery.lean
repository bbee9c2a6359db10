import Tidemark.Proofs.Replay.Watermarks

/-!
# What a replay delivers

The events that a replay submits, against those that its source yields and the instants of the
submissions:

```
pulled = submitted ++ left, at most one left, none at the end of the source          (run_events)
submitted at an instant at which the pace says that the event is due                  (due_of_mem)
nothing is submitted and no cycle begins after the cancellation               (run_of_cancelled)
a good end counts the submissions                                                (counts_after)
```

The pace is anchored at the first event once and for all, `anchored_after`. Nothing is assumed of the
source, and the completions may end in any order.
-/

namespace Tidemark

namespace Replay

/-! ### Submissions -/

/-- The event that a step submits, with the instant of the step. -/
def submission? (r : Replay) : Happening → Option (Instant × Event)
  | .answered now cancelled a => (r.step (.answered now cancelled a)).2.map fun s ↦ (now, s.event)
  | .completed _ _ => none

/-- The submissions are those of the events that the run sends. -/
theorem map_snd_submissions (r : Replay) (hs : List Happening) :
    (r.observe submission? hs).map Prod.snd = (r.run hs).2.map Send.event := by
  induction hs generalizing r with
  | nil => rfl
  | cons h hs ih =>
    rw [observe, List.map_append, ih, sent_cons, List.map_append]
    congr 1
    cases h with
    | completed id outcome => rfl
    | answered now cancelled a =>
      rw [submission?]
      cases (r.step (.answered now cancelled a)).2 <;> rfl

/-- The step comes with the answer to a request, at an instant and before any cancellation. -/
def IsAnswer (h : Happening) (now : Instant) : Prop :=
  ∃ a, h = .answered now false a

theorem isAnswer_of_checked {r : Replay} {h : Happening} {now : Instant} {e : Event}
    (hc : r.checked? h = some (now, e)) : IsAnswer h now := by
  rcases checked?_cases hc with ⟨-, rfl⟩ | ⟨d, -, rfl⟩ <;> exact ⟨_, rfl⟩

/-- The head of the loop is reached with the answer to a request. -/
theorem AtHead.isAnswer {r r₁ : Replay} {h : Happening} {now : Instant} {e : Event}
    (ha : r.AtHead h now false e r₁) : IsAnswer h now := by
  cases ha with
  | first _ => exact ⟨_, rfl⟩
  | unchecked hc _ => exact isAnswer_of_checked hc
  | disabled hc _ _ => exact isAnswer_of_checked hc
  | emitted _ => exact ⟨_, rfl⟩

/-- An event is sent at the head of the loop, where the pace says that it is due. -/
theorem Move.sent {r : Replay} {h : Happening} {x : Replay × Option Send} (hm : r.Move h x) {s : Send}
    (hs : x.2 = some s) :
    ∃ now r₁ gap, r.AtHead h now false s.event r₁ ∧
      r₁.pace.decide now s.event.timestamp = .due gap := by
  cases hm with
  | launched ha hdue _ =>
    rw [← Option.some.inj hs]
    exact ⟨_, _, _, ha, hdue⟩
  | _ => exact absurd hs (by simp)

/-! ### Cancellation -/

/-- Once the replay is cancelled nothing is sent, and no cycle begins. -/
theorem run_of_cancelled {r : Replay} {hs : List Happening}
    (hc : ∀ now a, Happening.answered now false a ∉ hs) :
    (r.run hs).2 = [] ∧ r.observe opened? hs = [] := by
  induction hs generalizing r with
  | nil => exact ⟨rfl, rfl⟩
  | cons h hs ih =>
    have hanswer : ∀ now, ¬ IsAnswer h now := by
      rintro now ⟨a, rfl⟩
      exact hc now a List.mem_cons_self
    have hsent : (r.step h).2 = none := by
      refine Option.eq_none_iff_forall_ne_some.2 fun s hs ↦ ?_
      obtain ⟨now, r₁, gap, ha, -⟩ := (r.move_step h).sent hs
      exact hanswer now ha.isAnswer
    have hopened : r.opened? h = none := by
      refine Option.eq_none_iff_forall_ne_some.2 fun w hw ↦ ?_
      obtain ⟨now, e, hc, -⟩ := opened?_cases hw
      exact hanswer now (isAnswer_of_checked hc)
    obtain ⟨hrun, hobserve⟩ := ih fun now a ha ↦ hc now a (List.mem_cons_of_mem h ha)
    rw [sent_cons, observe, hsent, hopened, hrun, hobserve]
    exact ⟨rfl, rfl⟩

/-! ### Counting -/

/-- A good end reports how many events were sent. -/
def Reported (r : Replay) : Prop :=
  ∀ s, r.stage = .ended (.ok s) → s.eventsSent = r.eventsSent

/-- To wait for the last completions reports nothing new. -/
theorem Settled.reported {r r' : Replay} (hs : Settled r r') : r'.Reported := by
  intro s hst
  rw [hs.summary s hst, hs.eventsSent]
  rfl

/-- A step keeps the configuration, counts what it sends and reports the count. -/
theorem Move.counts {r : Replay} {h : Happening} {x : Replay × Option Send} (hm : r.Move h x)
    (hr : r.Reported) :
    x.1.config = r.config ∧ x.1.eventsSent = r.eventsSent + x.2.toList.length ∧ x.1.Reported := by
  cases hm with
  | ignored _ _ => exact ⟨rfl, rfl, hr⟩
  | landed id outcome i => exact ⟨rfl, rfl, hr⟩
  | concluded _ hs => exact ⟨hs.config, hs.eventsSent, hs.reported⟩
  | stopped _ => exact ⟨rfl, rfl, by simp [Reported]⟩
  | halted ha => exact ⟨ha.kept.config, ha.kept.eventsSent, by simp [Reported]⟩
  | launched ha _ hl =>
    rw [hl.config, hl.eventsSent, ha.kept.config, ha.kept.eventsSent]
    exact ⟨rfl, rfl, by simp [Reported, hl.stage]⟩
  | slept ha => exact ⟨ha.kept.config, ha.kept.eventsSent, by simp [Reported]⟩
  | opened _ _ _ => exact ⟨rfl, rfl, by simp [Reported]⟩
  | advanced _ _ => exact ⟨rfl, rfl, by simp [Reported]⟩
  | ended _ hs => exact ⟨hs.config, hs.eventsSent, hs.reported⟩

/-- A run keeps the configuration and counts what it sends. -/
theorem counts_after {r : Replay} (hr : r.Reported) (hs : List Happening) :
    (r.after hs).config = r.config ∧ (r.after hs).eventsSent = r.eventsSent + (r.run hs).2.length ∧
      (r.after hs).Reported := by
  induction hs using List.reverseRecOn with
  | nil => exact ⟨rfl, rfl, hr⟩
  | append_singleton hs h ih =>
    obtain ⟨hconfig, hcount, hreported⟩ := ih
    obtain ⟨hconfig', hcount', hreported'⟩ := ((r.after hs).move_step h).counts hreported
    rw [after_concat, sent_concat, List.length_append]
    exact ⟨hconfig'.trans hconfig, by omega, hreported'⟩

/-! ### Pacing -/

/-- The pace starts from the first event that the source yielded, at the instant when it did. -/
def Anchored (c : ReplayConfig) (yields : List (Instant × Except Fault (Option Event))) (p : Pace) :
    Prop :=
  ∃ start first rest, yields = (start, .ok (some first)) :: rest ∧
    p = ⟨start, first.timestamp, c.speedup, c.minSleep⟩

theorem Anchored.append {c : ReplayConfig} {yields : List (Instant × Except Fault (Option Event))}
    {p : Pace} (ha : Anchored c yields p) (more : List (Instant × Except Fault (Option Event))) :
    Anchored c (yields ++ more) p := by
  obtain ⟨start, first, rest, rfl, rfl⟩ := ha
  exact ⟨start, first, rest ++ more, rfl, rfl⟩

/-- The head of the loop is reached with the first event, which sets the pace, or it has been reached
before. -/
theorem AtHead.pace {r r₁ : Replay} {h : Happening} {now : Instant} {cancelled : Bool} {e : Event}
    (ha : r.AtHead h now cancelled e r₁) :
    (r.stage = .opening ∧ r.yield? h = some (now, .ok (some e)) ∧
        r₁.pace = ⟨now, e.timestamp, r.config.speedup, r.config.minSleep⟩) ∨
      (r.stage ≠ .opening ∧ r₁.pace = r.pace) := by
  have hchecked : ∀ {now e}, r.checked? h = some (now, e) → r.stage ≠ .opening := by
    intro now e hc
    rcases checked?_cases hc with ⟨hs, -⟩ | ⟨d, hs, -⟩ <;> simp [hs]
  cases ha with
  | first hs => exact Or.inl ⟨hs, by simp [yield?, hs], rfl⟩
  | unchecked hc _ => exact Or.inr ⟨hchecked hc, rfl⟩
  | disabled hc _ _ => exact Or.inr ⟨hchecked hc, rfl⟩
  | emitted hs => exact Or.inr ⟨by simp [hs], rfl⟩

/-- A loop that goes on keeps its pace, unless the head is reached in the step. -/
theorem Move.pace {r : Replay} {h : Happening} {x : Replay × Option Send} (hm : r.Move h x)
    (hl : x.1.IsLooping) :
    (r.IsLooping ∧ (x.1.stage = .opening ↔ r.stage = .opening) ∧
        (r.stage = .opening → r.yield? h = none) ∧ x.1.pace = r.pace) ∨
      (x.1.stage ≠ .opening ∧ ∃ now cancelled e r₁, r.AtHead h now cancelled e r₁ ∧
        x.1.pace = r₁.pace) := by
  cases hm with
  | ignored hy _ => exact Or.inl ⟨hl, Iff.rfl, fun _ ↦ hy, rfl⟩
  | landed id outcome i => exact Or.inl ⟨hl, Iff.rfl, fun _ ↦ rfl, rfl⟩
  | concluded _ hs => exact absurd hl hs.not_looping
  | stopped _ => exact hl.elim
  | halted _ => exact hl.elim
  | launched ha _ hlaunched =>
    exact Or.inr ⟨by simp [hlaunched.stage], _, _, _, _, ha, hlaunched.pace⟩
  | slept ha => exact Or.inr ⟨by simp, _, _, _, _, ha, rfl⟩
  | opened hc _ _ =>
    rcases checked?_cases hc with ⟨hs, -⟩ | ⟨d, hs, -⟩
    · exact Or.inl ⟨by simp [IsLooping, hs], by simp [hs], by simp [hs], rfl⟩
    · exact Or.inl ⟨by simp [IsLooping, hs], by simp [hs], by simp [hs], rfl⟩
  | advanced hs _ => exact Or.inl ⟨by simp [IsLooping, hs], by simp [hs], by simp [hs], rfl⟩
  | ended _ hs => exact absurd hl hs.not_looping

/-- A loop that goes on waits for its first event, or its pace is anchored at it. -/
structure Paced (r : Replay) (hs : List Happening) : Prop where
  opening : (r.after hs).stage = .opening → r.yields hs = []
  anchored : (r.after hs).IsLooping → (r.after hs).stage ≠ .opening →
    Anchored r.config (r.yields hs) (r.after hs).pace

/-- Wherever the head of the loop is reached, the pace is anchored. -/
theorem Paced.atHead {r : Replay} {hs : List Happening} (hp : r.Paced hs)
    (hconfig : (r.after hs).config = r.config) {h : Happening} {now : Instant} {cancelled : Bool}
    {e : Event} {r₁ : Replay} (ha : (r.after hs).AtHead h now cancelled e r₁) :
    Anchored r.config (r.yields (hs ++ [h])) r₁.pace := by
  rw [yields_concat]
  rcases ha.pace with ⟨hopening, hy, hpace⟩ | ⟨hopening, hpace⟩
  · -- the first answer of the source is this event
    rw [hp.opening hopening, hy, hpace, hconfig]
    exact ⟨now, e, [], rfl, rfl⟩
  · rw [hpace]
    exact (hp.anchored ha.isLooping hopening).append _

/-- Along every run the pace of a loop that goes on is anchored. -/
theorem anchored_after {r : Replay} (hr : r.Reported) (hopening : r.IsLooping → r.stage = .opening)
    (hs : List Happening) : r.Paced hs := by
  induction hs using List.reverseRecOn with
  | nil => exact ⟨fun _ ↦ rfl, fun hl hne ↦ absurd (hopening hl) hne⟩
  | append_singleton hs h ih =>
    have hconfig := (counts_after hr hs).1
    have hm := (r.after hs).move_step h
    have hafter := r.after_concat hs h
    constructor
    · intro hst
      rw [hafter] at hst
      rcases hm.pace (by simp [IsLooping, hst]) with ⟨-, hiff, hy, -⟩ | ⟨hne, -⟩
      · rw [yields_concat, ih.opening (hiff.1 hst), hy (hiff.1 hst)]
        rfl
      · exact absurd hst hne
    · intro hl hne
      rw [hafter] at hl hne ⊢
      rcases hm.pace hl with ⟨hl', hiff, -, hpace⟩ | ⟨-, now, cancelled, e, r₁, ha, hpace⟩
      · -- the pace was set by an earlier answer, and the first answer stays the same
        rw [hpace, yields_concat]
        exact (ih.anchored hl' fun he ↦ hne (hiff.2 he)).append _
      · rw [hpace]
        exact ih.atHead hconfig ha

/-- Every submission comes at an instant at which the event is due. -/
theorem due_of_mem {r : Replay} (hr : r.Reported) (hopening : r.IsLooping → r.stage = .opening)
    {hs : List Happening} {now : Instant} {e : Event} (he : (now, e) ∈ r.observe submission? hs) :
    ∃ p gap, Anchored r.config (r.yields hs) p ∧ p.decide now e.timestamp = .due gap := by
  induction hs using List.reverseRecOn with
  | nil => exact absurd he (by simp [observe])
  | append_singleton hs h ih =>
    rw [observe_concat] at he
    rcases List.mem_append.1 he with he | he
    · -- the first answer stays the first one as more come
      obtain ⟨p, gap, hp, hdue⟩ := ih he
      rw [yields_concat]
      exact ⟨p, gap, hp.append _, hdue⟩
    · cases h with
      | completed id outcome => exact absurd he (by simp [submission?])
      | answered now' cancelled a =>
        rw [submission?, Option.mem_toList, Option.map_eq_some_iff] at he
        obtain ⟨s, hsent, he⟩ := he
        obtain ⟨rfl, rfl⟩ := Prod.mk.inj he
        obtain ⟨now, r₁, gap, ha, hdue⟩ := ((r.after hs).move_step _).sent hsent
        obtain ⟨a', hanswer⟩ := ha.isAnswer
        obtain ⟨rfl, -, -⟩ := Happening.answered.inj hanswer
        exact ⟨r₁.pace, gap, (anchored_after hr hopening hs).atHead (counts_after hr hs).1 ha, hdue⟩

/-! ### Delivery -/

theorem reported_start (c : ReplayConfig) (t : Tracker) (i : Instruments) :
    (start c t i).Reported := by
  rw [start, Reported]
  cases c.validate <;> simp

/-- A replay that has not begun waits for its first event, unless its configuration is refused. -/
theorem opening_start (c : ReplayConfig) (t : Tracker) (i : Instruments) :
    (start c t i).IsLooping → (start c t i).stage = .opening := by
  rw [start, IsLooping]
  cases c.validate <;> simp

/-- The driving loop submits a prefix of the events that the source yielded, in their order. All but at
most one of them are submitted, and all once the source was found exhausted; a good end reports their
number. Each is submitted at an instant at which it is due at the pace that the first event set, and after
the cancellation none is submitted and no cycle begins. -/
theorem delivers_prefix (c : ReplayConfig) (t : Tracker) (i : Instruments) (hs : List Happening) :
    let r := start c t i
    (∃ n, (r.run hs).2.map (fun s ↦ Record.ofEvent s.event) =
          ((r.pulled hs).take n).map Record.ofEvent ∧
        n ≤ (r.pulled hs).length ∧ (r.pulled hs).length ≤ n + 1 ∧
        (∀ now, (now, .ok none) ∈ r.yields hs → n = (r.pulled hs).length) ∧
        ∀ s, (r.after hs).stage = .ended (.ok s) → s.eventsSent = n) ∧
      (r.observe submission? hs).map Prod.snd = (r.run hs).2.map Send.event ∧
      (∀ now e, (now, e) ∈ r.observe submission? hs →
        ∃ start first rest gap, r.yields hs = (start, .ok (some first)) :: rest ∧
          Pace.decide ⟨start, first.timestamp, c.speedup, c.minSleep⟩ now e.timestamp = .due gap) ∧
      ∀ before later, hs = before ++ later → (∀ now a, Happening.answered now false a ∉ later) →
        ((r.after before).run later).2 = [] ∧ (r.after before).observe opened? later = [] := by
  intro r
  have hreported : r.Reported := reported_start c t i
  refine ⟨?_, map_snd_submissions r hs, ?_, ?_⟩
  · obtain ⟨left, he, hleft, -, hdry⟩ := r.run_events hs
    rw [show r.pending? = none from pending?_start c t i] at he
    have hpulled : r.pulled hs = (r.run hs).2.map Send.event ++ left := he
    have hlength : (r.pulled hs).length = (r.run hs).2.length + left.length := by
      rw [hpulled, List.length_append, List.length_map]
    -- the prefix ends where the submissions do; what is left of the pulled events is one at most
    refine ⟨(r.run hs).2.length, ?_, by omega, by omega, ?_, ?_⟩
    · rw [hpulled, List.take_left' (by simp), List.map_map]
      rfl
    · intro now hy
      rw [hlength, hdry now hy]
      rfl
    · intro s hs'
      obtain ⟨-, hcount, hend⟩ := counts_after hreported hs
      rw [hend s hs', hcount]
      exact Nat.zero_add _
  · intro now e he
    obtain ⟨p, gap, ⟨start, first, rest, hy, rfl⟩, hdue⟩ :=
      due_of_mem hreported (opening_start c t i) he
    exact ⟨start, first, rest, gap, hy, hdue⟩
  · intro before later _ hc
    exact run_of_cancelled hc

end Replay

end Tidemark
