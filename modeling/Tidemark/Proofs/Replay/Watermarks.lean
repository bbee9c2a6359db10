import Tidemark.Proofs.Destination.WatermarkPayload
import Tidemark.Proofs.Replay.Flight

/-!
# Watermarks along a run

A watermark keeps its promise towards an event if it lies before it (`Timestamp.Clears`). What bounds the
watermarks that a replay computes:

```
compute tracker next ≤ pred of every tracked key                          whatever the feed
compute tracker next ≥ every bound of the tracked keys and the next event
tracked keys ≤ whatever lies ahead                                        an ordered feed
```

From the first line a cycle under way clears every outstanding send, `covers_after`. From the other two
every watermark of a run clears all that is tracked and all that lies ahead, `bounds_of_mem_opened`; this
is the invariant behind both the promise of the records (`watermark_clears`) and the order of the
watermarks (`pairwise_opened`).
-/

namespace Tidemark

namespace Timestamp

/-- The watermark lies before the event time. Nothing lies before the least event time, so a watermark at
that time is all that can be said there. -/
def Clears (w t : Timestamp) : Prop :=
  w < t ∨ (w = least ∧ t = least)

/-- A watermark clears a time if it is no later than the tick before. -/
theorem clears_iff {w t : Timestamp} : w.Clears t ↔ w ≤ t.pred := by
  have hw := w.le_millis
  rw [Clears, lt_iff, le_iff, millis_pred]
  by_cases ht : t = least
  · rw [if_pos ht, ht]
    constructor
    · rintro (hlt | ⟨rfl, -⟩)
      · exact Int.le_of_lt hlt
      · exact Int.le_refl _
    · intro hle
      exact Or.inr ⟨eq_of_millis (Int.le_antisymm hle hw), rfl⟩
  · rw [if_neg ht]
    constructor
    · rintro (hlt | ⟨-, he⟩)
      · omega
      · exact absurd he ht
    · intro hle
      exact Or.inl (by omega)

/-- Of two times, the tick before the later one is the later tick, or the same. -/
theorem pred_le_pred {s t : Timestamp} (h : s ≤ t) : s.pred ≤ t.pred := by
  rw [le_iff] at h ⊢
  rw [millis_pred, millis_pred]
  by_cases hs : s = least
  · have ht := t.pred.le_millis
    rw [millis_pred] at ht
    rw [if_pos hs, hs]
    exact ht
  · have ht : t ≠ least := by
      rintro rfl
      exact hs (eq_of_millis (Int.le_antisymm h s.le_millis))
    rw [if_neg hs, if_neg ht]
    omega

theorem le_refl (t : Timestamp) : t ≤ t :=
  Int.le_refl t.millis

end Timestamp

namespace Emitter

/-- The watermark lies before whatever is in flight. -/
theorem compute_le_of_mem {t : Tracker} (ht : t.Sorted) {k : EventKey} (hk : k ∈ t.keys)
    (next : Timestamp) : compute t next ≤ k.timestamp.pred := by
  cases ho : t.oldest? with
  | none => exact absurd hk (Tracker.oldest?_eq_none_iff.1 ho k)
  | some oldest =>
    rw [compute, ho]
    exact Timestamp.pred_le_pred (ht.timestamp_le ho hk)

/-- The watermark lies before what is no older than anything in flight and the next event. -/
theorem compute_le {t : Tracker} {next u : Timestamp} (hnext : next ≤ u)
    (hkeys : ∀ k ∈ t.keys, k.timestamp ≤ u) : compute t next ≤ u.pred := by
  rw [compute]
  split
  · rename_i ho
    exact Timestamp.pred_le_pred (hkeys _ (Tracker.mem_of_oldest? ho))
  · exact Timestamp.pred_le_pred hnext

/-- What lies before everything in flight and before the next event is no later than the watermark. -/
theorem le_compute {t : Tracker} {next w : Timestamp} (hnext : w ≤ next.pred)
    (hkeys : ∀ k ∈ t.keys, w ≤ k.timestamp.pred) : w ≤ compute t next := by
  rw [compute]
  split
  · rename_i ho
    exact hkeys _ (Tracker.mem_of_oldest? ho)
  · exact hnext

end Emitter

namespace Replay

/-! ### Cycles -/

/-- The watermark of a cycle that begins is computed from what is in flight and the event checked. -/
theorem opened?_cases {r : Replay} {h : Happening} {w : Timestamp} (ho : r.opened? h = some w) :
    ∃ now e, r.checked? h = some (now, e) ∧ w = Emitter.compute r.tracker e.timestamp := by
  rw [opened?] at ho
  split at ho
  · rename_i now e hc
    split at ho
    · exact ⟨now, e, hc, (Option.some.inj ho).symm⟩
    · exact absurd ho (by simp)
  · exact absurd ho (by simp)

theorem opened?_eq_none {r : Replay} {h : Happening} (hc : r.checked? h = none) :
    r.opened? h = none := by
  rw [opened?, hc]

/-- A cycle that begins lists the partitions, to write its watermark to them. When cycles are disabled it
is booked at once. -/
theorem step_of_opened {r : Replay} {h : Happening} {w : Timestamp} (ho : r.opened? h = some w) :
    ∃ now e, r.step h =
      if r.emitter.config.enabled then
        ({ r with stage := .emitting (Cycle.start w) e now }, none)
      else r.emitted w .disabled now now false e := by
  rw [opened?] at ho
  split at ho
  · rename_i now e hc
    split at ho
    · rename_i hdue
      have hstep : r.step h = r.check now false e := by
        rcases checked?_cases hc with ⟨hs, rfl⟩ | ⟨d, hs, rfl⟩ <;> simp [step, answer, hs]
      rw [hstep, check, if_pos hdue, Option.some.inj ho]
      exact ⟨now, e, rfl⟩
    · exact absurd ho (by simp)
  · exact absurd ho (by simp)

/-- A cycle under way was under way before the step, or begins in it. -/
theorem Move.emitting {r : Replay} {h : Happening} {x : Replay × Option Send} (hm : r.Move h x)
    {cycle : Cycle} {e : Event} {checkedAt : Instant}
    (hs : x.1.stage = .emitting cycle e checkedAt) :
    x.2 = none ∧
      ((r.opened? h = none ∧
          ∃ before, r.stage = .emitting before e checkedAt ∧ before.watermark = cycle.watermark) ∨
        (r.opened? h = some cycle.watermark ∧ x.1.dispatch = r.dispatch)) := by
  have hloop : x.1.IsLooping := by simp [IsLooping, hs]
  cases hm with
  | ignored _ hc => exact ⟨rfl, Or.inl ⟨opened?_eq_none hc, cycle, hs, rfl⟩⟩
  | landed id outcome i => exact ⟨rfl, Or.inl ⟨rfl, cycle, hs, rfl⟩⟩
  | concluded _ hend => exact absurd hloop hend.not_looping
  | stopped _ => exact hloop.elim
  | halted _ => exact hloop.elim
  | launched _ _ hl =>
    rw [hl.stage] at hs
    exact absurd hs (by simp)
  | slept _ => exact absurd hs (by simp)
  | opened hc ho _ =>
    simp only [ReplayStage.emitting.injEq] at hs
    obtain ⟨rfl, rfl, rfl⟩ := hs
    exact ⟨rfl, Or.inr ⟨ho, rfl⟩⟩
  | advanced hst hw =>
    -- a step between two writes of a cycle checks no event, so it begins no cycle
    rename_i cancelled _ _ _ _ _
    simp only [ReplayStage.emitting.injEq] at hs
    obtain ⟨rfl, rfl, rfl⟩ := hs
    refine ⟨rfl, Or.inl ⟨opened?_eq_none ?_, _, hst, hw.symm⟩⟩
    cases cancelled <;> simp [checked?, hst]
  | ended _ hend => exact absurd hloop hend.not_looping

/-- A cycle under way writes the watermark of the cycle that began last. -/
theorem getLast?_opened {r : Replay} (hr : r.pending? = none) {hs : List Happening} {cycle : Cycle}
    {e : Event} {checkedAt : Instant} (hst : (r.after hs).stage = .emitting cycle e checkedAt) :
    (r.observe opened? hs).getLast? = some cycle.watermark := by
  induction hs using List.reverseRecOn generalizing cycle with
  | nil =>
    rw [after_nil] at hst
    rw [pending?, hst] at hr
    exact absurd hr (by simp)
  | append_singleton hs h ih =>
    rw [after_concat] at hst
    rw [observe_concat]
    obtain ⟨-, ⟨hnone, before, hbefore, hw⟩ | ⟨hsome, -⟩⟩ := ((r.after hs).move_step h).emitting hst
    · rw [hnone, ← hw, ← ih hbefore]
      simp
    · rw [hsome]
      simp

/-- A put is asked for by a cycle that has partitions left. -/
theorem emitting_of_request_put {r : Replay} {record : Record} (hq : r.request = .put record) :
    ∃ w d rest listed e checkedAt, r.stage = .emitting ⟨w, .writing (d :: rest) listed⟩ e checkedAt ∧
      record = Record.ofWatermark w d.lower := by
  cases hs : r.stage with
  | emitting cycle e checkedAt =>
    obtain ⟨w, stage⟩ := cycle
    simp only [request, hs, Cycle.request?] at hq
    cases stage with
    | listing l => simp at hq
    | ended result => simp at hq
    | writing left listed =>
      cases left with
      | nil => simp at hq
      | cons d rest =>
        simp only [ReplayRequest.put.injEq] at hq
        exact ⟨w, d, rest, listed, e, checkedAt, rfl, hq.symm⟩
  | _ => simp [request, hs] at hq

/-- What the replay asks to be put is a watermark record of the cycle under way. -/
theorem emitting_of_request {r : Replay} {record : Record} (hq : r.request = .put record) :
    ∃ cycle e checkedAt lower, r.stage = .emitting cycle e checkedAt ∧
      record = Record.ofWatermark cycle.watermark lower := by
  obtain ⟨w, d, rest, listed, e, checkedAt, hs, hrecord⟩ := emitting_of_request_put hq
  exact ⟨_, e, checkedAt, d.lower, hs, hrecord⟩

/-! ### What is in flight -/

/-- The keys in flight are in order all along a run. -/
theorem sorted_after {r : Replay} (hr : r.tracker.Sorted) (hs : List Happening) :
    (r.after hs).tracker.Sorted := by
  induction hs using List.reverseRecOn with
  | nil => exact hr
  | append_singleton hs h ih =>
    rw [after_concat]
    rcases ((r.after hs).move_step h).flight with
      ⟨id, o, -, -, -, ht⟩ | ⟨-, -, ht⟩ | ⟨e, i, -, -, ht⟩
    · rw [ht]
      exact Dispatch.sorted_untracked ih id
    · rw [ht]
      exact ih
    · rw [ht]
      exact ih.add e.key

/-- A cycle under way clears every outstanding send, whatever the order of the feed. -/
theorem covers_after {r : Replay} (hd : r.dispatch = {}) (ht : r.tracker = {})
    (hr : r.pending? = none) {hs : List Happening}
    (hkeys : ((r.run hs).2.map fun s ↦ s.event.key).Nodup) {cycle : Cycle} {e : Event}
    {checkedAt : Instant} (hst : (r.after hs).stage = .emitting cycle e checkedAt) :
    ∀ s ∈ (r.after hs).dispatch.outstanding, cycle.watermark ≤ s.event.timestamp.pred := by
  induction hs using List.reverseRecOn generalizing cycle with
  | nil =>
    rw [after_nil] at hst
    rw [pending?, hst] at hr
    exact absurd hr (by simp)
  | append_singleton hs h ih =>
    intro s hmem
    rw [sent_concat, List.map_append] at hkeys
    have hkeys := (List.nodup_append.1 hkeys).1
    rw [after_concat] at hst hmem
    obtain ⟨hnone, hcases⟩ := ((r.after hs).move_step h).emitting hst
    rcases hcases with ⟨-, before, hbefore, hw⟩ | ⟨hopened, hdispatch⟩
    · -- nothing is sent while the cycle goes on
      rw [← hw]
      refine ih hkeys hbefore s ?_
      exact mem_outstanding_of_step hnone hmem
    · -- the cycle begins: the tracker holds the key of every outstanding send
      obtain ⟨now, next, -, hw⟩ := opened?_cases hopened
      have htracks := tracks_after hd ht hkeys
      rw [hw]
      refine Emitter.compute_le_of_mem htracks.sorted (k := s.event.key) ?_ _
      rw [htracks.mem_keys]
      exact ⟨s, hdispatch ▸ hmem, rfl⟩

/-! ### An ordered feed -/

section Ordered

variable {r : Replay} {feed : Feed} {hs : List Happening} {h : Happening} {w : Timestamp}

/-- Nothing ahead is older than the event that is checked for a cycle. -/
theorem le_of_ahead_of_checked (hf : r.FedBy feed (hs ++ [h])) (hr : r.pending? = none)
    (ho : feed.Ordered) {now : Instant} {e : Event} (hc : (r.after hs).checked? h = some (now, e))
    {e' : Event} (ha : r.Ahead feed hs e') : e.timestamp ≤ e'.timestamp := by
  rcases checked?_cases hc with ⟨hs', rfl⟩ | ⟨d, hs', rfl⟩
  · -- the event was just pulled: it is the first one that the feed had yet to yield
    have hy : (r.after hs).yield? (.answered now false (.pulled (.ok (some e)))) =
        some (now, .ok (some e)) := by simp [yield?, hs']
    have hfeed := (hf.feed_of_yield hy).2
    rcases ha with hp | ⟨n, hn, hfeed'⟩
    · rw [pending?, hs'] at hp
      exact absurd hp (by simp)
    · rcases Nat.eq_or_lt_of_le hn with rfl | hlt
      · rw [hfeed, Except.ok.injEq, Option.some.injEq] at hfeed'
        rw [hfeed']
        exact Timestamp.le_refl _
      · exact ho _ _ _ _ hlt hfeed hfeed'
  · -- the event was held through a sleep
    have hpending : (r.after hs).pending? = some e := by rw [pending?, hs']
    obtain ⟨m, hm, hfeed⟩ := hf.of_append.exists_feed_of_pending hr hpending
    rcases ha with hp | ⟨n, hn, hfeed'⟩
    · rw [Option.some.inj (hpending.symm.trans hp)]
      exact Timestamp.le_refl _
    · exact ho _ _ _ _ (Nat.lt_of_lt_of_le hm hn) hfeed hfeed'

/-- The key of an event that is in flight after a step was in flight before it, or lay ahead. -/
theorem mem_tracker_of_step (hf : r.FedBy feed (hs ++ [h])) {k : EventKey}
    (hk : k ∈ (r.after (hs ++ [h])).tracker.keys) :
    k ∈ (r.after hs).tracker.keys ∨
      ∃ s, ((r.after hs).step h).2 = some s ∧ k = s.event.key ∧ r.Ahead feed hs s.event := by
  rw [after_concat] at hk
  rcases ((r.after hs).move_step h).flight with
    ⟨id, o, -, -, -, ht⟩ | ⟨-, -, ht⟩ | ⟨e, i, hsent, -, ht⟩
  · rw [ht] at hk
    exact Or.inl (Dispatch.mem_of_mem_untracked hk)
  · rw [ht] at hk
    exact Or.inl hk
  · rw [ht, Tracker.mem_add] at hk
    rcases hk with rfl | hk
    · exact Or.inr ⟨_, hsent, rfl, ahead_of_sent hf hsent⟩
    · exact Or.inl hk

/-- Nothing ahead is older than anything in flight. -/
theorem le_of_ahead_of_tracked (ht : r.tracker = {}) (hr : r.pending? = none) (ho : feed.Ordered)
    (hf : r.FedBy feed hs) {k : EventKey} (hk : k ∈ (r.after hs).tracker.keys) {e : Event}
    (ha : r.Ahead feed hs e) : k.timestamp ≤ e.timestamp := by
  induction hs using List.reverseRecOn with
  | nil =>
    rw [after_nil, ht] at hk
    exact absurd hk (by simp)
  | append_singleton hs h ih =>
    rcases mem_tracker_of_step hf hk with hk | ⟨s, hsent, rfl, -⟩
    · exact ih hf.of_append hk (ha.of_step hf)
    · exact le_of_ahead_of_sent hf hr ho hsent ha

/-- The watermark lies before everything that is in flight or ahead. -/
structure Bounds (r : Replay) (feed : Feed) (hs : List Happening) (w : Timestamp) : Prop where
  tracked : ∀ k ∈ (r.after hs).tracker.keys, w ≤ k.timestamp.pred
  ahead : ∀ e, r.Ahead feed hs e → w ≤ e.timestamp.pred

/-- What a watermark bounds it bounds after every step. -/
theorem Bounds.step (hf : r.FedBy feed (hs ++ [h])) (hb : r.Bounds feed hs w) :
    r.Bounds feed (hs ++ [h]) w where
  tracked k hk := by
    rcases mem_tracker_of_step hf hk with hk | ⟨s, -, rfl, ha⟩
    · exact hb.tracked k hk
    · exact hb.ahead s.event ha
  ahead e ha := hb.ahead e (ha.of_step hf)

/-- A watermark bounds what is in flight and ahead at the moment when it is computed. -/
theorem bounds_of_opened (ht : r.tracker = {}) (hr : r.pending? = none) (ho : feed.Ordered)
    (hf : r.FedBy feed (hs ++ [h])) (hw : (r.after hs).opened? h = some w) : r.Bounds feed hs w := by
  obtain ⟨now, e, hc, rfl⟩ := opened?_cases hw
  constructor
  · intro k hk
    have hsorted : r.tracker.Sorted := ht ▸ Tracker.sorted_empty
    exact Emitter.compute_le_of_mem (sorted_after hsorted hs) hk _
  · intro e' ha
    exact Emitter.compute_le (le_of_ahead_of_checked hf hr ho hc ha) fun k hk ↦
      le_of_ahead_of_tracked ht hr ho hf.of_append hk ha

/-- Every watermark of a run bounds what is in flight and ahead ever after. -/
theorem bounds_of_mem_opened (ht : r.tracker = {}) (hr : r.pending? = none) (ho : feed.Ordered)
    (hf : r.FedBy feed hs) (hw : w ∈ r.observe opened? hs) : r.Bounds feed hs w := by
  induction hs using List.reverseRecOn with
  | nil => exact absurd hw (by simp [observe])
  | append_singleton hs h ih =>
    rw [observe_concat] at hw
    rcases List.mem_append.1 hw with hw | hw
    · exact (ih hf.of_append hw).step hf
    · exact (bounds_of_opened ht hr ho hf (Option.mem_toList.1 hw)).step hf

/-- The watermarks of consecutive cycles never decrease. -/
theorem pairwise_opened (ht : r.tracker = {}) (hr : r.pending? = none) (ho : feed.Ordered)
    (hf : r.FedBy feed hs) : (r.observe opened? hs).Pairwise (· ≤ ·) := by
  induction hs using List.reverseRecOn with
  | nil => exact List.Pairwise.nil
  | append_singleton hs h ih =>
    rw [observe_concat]
    refine List.pairwise_append.2 ⟨ih hf.of_append, ?_, ?_⟩
    · cases (r.after hs).opened? h <;> simp
    · intro v hv w hw
      -- the earlier watermark lies before all that the later one is computed from
      obtain ⟨now, e, hc, rfl⟩ := opened?_cases (Option.mem_toList.1 hw)
      have hb := bounds_of_mem_opened ht hr ho hf.of_append hv
      refine Emitter.le_compute (hb.ahead e ?_) hb.tracked
      exact ahead_of_checked hf hc

end Ordered

/-! ### The promise of the records -/

/-- A replay that has not begun holds no event. -/
@[simp] theorem pending?_start (c : ReplayConfig) (t : Tracker) (i : Instruments) :
    (start c t i).pending? = none := by
  rw [start, pending?]
  cases c.validate <;> rfl

/-- When a watermark record is put, the watermark clears every event that was submitted and whose
completion has not ended since. If the feed is ordered by time, it also clears what is submitted later,
and the events that are held or that the feed has yet to yield. -/
theorem watermark_clears (c : ReplayConfig) (i : Instruments) {feed : Feed} (hd : feed.Distinct)
    {before later : List Happening} (hf : (start c {} i).FedBy feed (before ++ later)) {w : Timestamp}
    {lower : String}
    (hput : ((start c {} i).after before).request = .put (Record.ofWatermark w lower)) :
    (∀ s, (start c {} i).Unseen before s → w.Clears s.event.timestamp) ∧
      (feed.Ordered →
        (∀ s ∈ (((start c {} i).after before).run later).2, w.Clears s.event.timestamp) ∧
        ∀ e, (start c {} i).Ahead feed before e → w.Clears e.timestamp) := by
  obtain ⟨cycle, e, checkedAt, lower', hst, hrecord⟩ := emitting_of_request hput
  obtain rfl := Record.ofWatermark_inj hrecord
  have hp := pending?_start c {} i
  constructor
  · -- the sends do not rest on the order of the feed, but on the tracker
    intro s hu
    have hkeys := hf.of_append.nodup_keys hp hd
    exact Timestamp.clears_iff.2
      (covers_after rfl rfl hp hkeys hst s (mem_outstanding_of_unseen hu))
  · intro ho
    have hopened := List.mem_of_getLast? (getLast?_opened hp hst)
    have hb := bounds_of_mem_opened rfl hp ho hf.of_append hopened
    constructor
    · intro s hs
      exact Timestamp.clears_iff.2 (hb.ahead s.event (ahead_of_mem_sent hf hs))
    · intro e' ha
      exact Timestamp.clears_iff.2 (hb.ahead e' ha)

/-- Three events, one second apart. -/
def threeEvents : List Event :=
  [⟨⟨1000, by decide, by decide⟩, .empty, "1", 0⟩,
    ⟨⟨2000, by decide, by decide⟩, .empty, "1", 1⟩,
    ⟨⟨3000, by decide, by decide⟩, .empty, "1", 2⟩]

/-- A cycle is due after every event. -/
def everyEvent : ReplayConfig :=
  { watermark := { eventCount := 1 } }

def tenSeconds : Instant :=
  ⟨10000000000⟩

/-- That the only partition was written to. -/
def shardAck : Ack :=
  ⟨"shard", none⟩

/-- Two events are sent, and a cycle follows each of them. The first event is acknowledged between the
cycles, and the second cycle is about to write. -/
def threeRun : List Happening :=
  let pulled (now : Instant) (n : Nat) : Happening :=
    .answered now false (.pulled (.ok threeEvents[n]?))
  let listed : Happening := .answered tenSeconds false (.listed (.ok ⟨[⟨"shard", "0"⟩], none⟩))
  [pulled Instant.start 0, pulled tenSeconds 1, listed,
    .answered tenSeconds false (.wrote (.ok shardAck)), .completed 0 (.ok shardAck),
    pulled tenSeconds 2, listed]

/-- The watermark of the second cycle lies before the second event, which is in flight, and before the
third one, which is sent when the record is written. -/
theorem watermark_clears_threeRun :
    let r := start everyEvent {} {}
    let feed := Feed.ofList threeEvents
    let later : List Happening := [.answered tenSeconds false (.wrote (.ok shardAck))]
    let w : Timestamp := ⟨1999, by decide, by decide⟩
    feed.Distinct ∧ feed.Ordered ∧ r.FedBy feed (threeRun ++ later) ∧
      (r.after threeRun).request = .put (Record.ofWatermark w "0") ∧
      (∀ s, r.Unseen threeRun s → w.Clears s.event.timestamp) ∧
      (∀ s ∈ ((r.after threeRun).run later).2, w.Clears s.event.timestamp) ∧
      ∀ e, r.Ahead feed threeRun e → w.Clears e.timestamp := by
  intro r feed later w
  have hd : feed.Distinct := Feed.pairwise_ofList (by decide)
  have ho : feed.Ordered := Feed.pairwise_ofList (by decide)
  have hf : r.FedBy feed (threeRun ++ later) := fedBy_ofList (by decide +kernel)
  have hput : (r.after threeRun).request = .put (Record.ofWatermark w "0") := by decide +kernel
  have hclears := watermark_clears everyEvent {} hd hf hput
  exact ⟨hd, ho, hf, hput, hclears.1, hclears.2 ho⟩

end Replay

end Tidemark
