import Tidemark.Proofs.Destination.Log
import Tidemark.Proofs.Replay.Watermarks

/-!
# Watermarks in the log of a stream

A replay runs against a stream in memory: `Hosts` relates the run to what the stream has come to. The
watermarks in the log are among those of the cycles that have begun, in their order (`Hosts.ascends`), so
what holds of the cycles (`pairwise_opened`) holds of every partition's part of the log.
-/

namespace Tidemark

namespace Replay

/-- What a stream can have come to while a replay ran against it. What the replay sends is submitted and
what it asks to be put is put, unless it is refused on its way to the stream. In between anything may
happen that leaves the log alone: listings, releases of acknowledgements, injected failures, new
partitions. The answers that the replay takes are left open, so those that the stream gives are among
them. -/
inductive Hosts (r : Replay) (m₀ : InMemory) : List Happening → InMemory → Prop where
  | fresh : Hosts r m₀ [] m₀
  | disturbed {hs : List Happening} {m m' : InMemory} :
      Hosts r m₀ hs m → m'.log = m.log → Hosts r m₀ hs m'
  | put {hs : List Happening} {m : InMemory} {record : Record} :
      Hosts r m₀ hs m → (r.after hs).request = .put record → Hosts r m₀ hs (m.put record).2
  | passed {hs : List Happening} {m : InMemory} (h : Happening) :
      Hosts r m₀ hs m → Hosts r m₀ (hs ++ [h]) m
  | submitted {hs : List Happening} {h : Happening} {m : InMemory} {s : Send} (handle : Nat) :
      Hosts r m₀ hs m → ((r.after hs).step h).2 = some s →
        Hosts r m₀ (hs ++ [h]) (m.submit handle (Record.ofEvent s.event)).2

/-- The stream after a put that is asked for, if its answer is what happens next. -/
def putAsked (r : Replay) (m : InMemory) (h : Happening) : InMemory :=
  match r.request, h with
  | .put record, .answered _ _ (.wrote _) => (m.put record).2
  | _, _ => m

/-- The stream after what a step sent was submitted to it. -/
def submitSent (m : InMemory) : Option Send → InMemory
  | some s => (m.submit s.id (Record.ofEvent s.event)).2
  | none => m

/-- What the stream comes to when every record is put right before the answer to it is taken. -/
def hosted (r : Replay) (m : InMemory) : List Happening → InMemory
  | [] => m
  | h :: hs => (r.step h).1.hosted (submitSent (r.putAsked m h) (r.step h).2) hs

/-- The put that the replay asks for is part of what the stream comes to. -/
theorem Hosts.putAsked {r : Replay} {m₀ m : InMemory} {hs : List Happening} (hm : r.Hosts m₀ hs m)
    (h : Happening) : r.Hosts m₀ hs ((r.after hs).putAsked m h) := by
  unfold Replay.putAsked
  split
  · rename_i hq
    exact hm.put hq
  · exact hm

/-- The send of a step is part of what the stream comes to. -/
theorem Hosts.submitSent {r : Replay} {m₀ m : InMemory} {hs : List Happening} (hm : r.Hosts m₀ hs m)
    (h : Happening) : r.Hosts m₀ (hs ++ [h]) (Replay.submitSent m ((r.after hs).step h).2) := by
  cases hsent : ((r.after hs).step h).2 with
  | some s => exact hm.submitted s.id hsent
  | none => exact hm.passed h

/-- Every run is hosted by a stream. -/
theorem Hosts.hosted {r : Replay} {m₀ m : InMemory} {before : List Happening}
    (hm : r.Hosts m₀ before m) (hs : List Happening) :
    r.Hosts m₀ (before ++ hs) ((r.after before).hosted m hs) := by
  induction hs generalizing before m with
  | nil =>
    rw [List.append_nil]
    exact hm
  | cons h hs ih =>
    have hnext := ih ((hm.putAsked h).submitSent h)
    rw [after_append, List.append_assoc] at hnext
    exact hnext

/-- The watermarks in the log ascend, and are watermarks of cycles that have begun. -/
structure Ascends (r : Replay) (hs : List Happening) (m : InMemory) : Prop where
  sorted : m.logged.Pairwise (· ≤ ·)
  subset : ∀ w ∈ m.logged, w ∈ r.observe opened? hs

variable {r : Replay} {feed : Feed} {hs : List Happening} {h : Happening} {m m' : InMemory}

/-- Nothing changes about the order of the watermarks while nothing is logged. -/
theorem Ascends.of_logged (ha : r.Ascends hs m) (he : m'.logged = m.logged) : r.Ascends hs m' where
  sorted := he ▸ ha.sorted
  subset := he ▸ ha.subset

theorem Ascends.concat (ha : r.Ascends hs m) (h : Happening) : r.Ascends (hs ++ [h]) m where
  sorted := ha.sorted
  subset w hw := by
    rw [observe_concat]
    exact List.mem_append_left _ (ha.subset w hw)

/-- What is sent is an event of the feed. -/
theorem FedBy.exists_feed_of_sent (hf : r.FedBy feed (hs ++ [h])) (hr : r.pending? = none) {s : Send}
    (hs' : ((r.after hs).step h).2 = some s) : ∃ n, feed n = .ok (some s.event) := by
  rcases ahead_of_sent hf hs' with hp | ⟨n, -, hfeed⟩
  · obtain ⟨n, -, hfeed⟩ := hf.of_append.exists_feed_of_pending hr hp
    exact ⟨n, hfeed⟩
  · exact ⟨n, hfeed⟩

/-- No cycle that has begun has a later watermark than the one under way. -/
theorem le_of_mem_opened (hp : (r.observe opened? hs).Pairwise (· ≤ ·)) {v w : Timestamp}
    (hw : (r.observe opened? hs).getLast? = some w) (hv : v ∈ r.observe opened? hs) : v ≤ w := by
  obtain ⟨before, he⟩ := List.getLast?_eq_some_iff.1 hw
  rw [he] at hp hv
  rcases List.mem_append.1 hv with hv | hv
  · exact (List.pairwise_append.1 hp).2.2 v hv w (List.mem_singleton.2 rfl)
  · rw [List.mem_singleton.1 hv]
    exact Timestamp.le_refl w

/-- The watermarks in the log of a stream that was empty are in the order of the cycles. -/
theorem Hosts.ascends {m₀ : InMemory} (hm : r.Hosts m₀ hs m) (hlog : m₀.log = #[])
    (ht : r.tracker = {}) (hr : r.pending? = none) (ho : feed.Ordered)
    (hplain : ∀ n e, feed n = .ok (some e) → watermarkOfPayload? e.payload = none)
    (hf : r.FedBy feed hs) : r.Ascends hs m := by
  induction hm with
  | fresh =>
    have hnone : m₀.logged = [] := by
      rw [InMemory.logged, InMemory.watermarks, hlog]
      rfl
    exact ⟨hnone ▸ List.Pairwise.nil, by simp [hnone]⟩
  | disturbed _ he ih => exact (ih hf).of_logged (InMemory.logged_of_log he)
  | passed h _ ih => exact (ih hf.of_append).concat h
  | submitted handle _ hsent ih =>
    -- the payload of an event carries no watermark
    obtain ⟨n, hfeed⟩ := hf.exists_feed_of_sent hr hsent
    refine ((ih hf.of_append).concat _).of_logged ?_
    rcases (InMemory.appended_submit _ handle _).logged with he | ⟨w, hw, -⟩
    · exact he
    · exact absurd ((hplain n _ hfeed).symm.trans hw) (by simp)
  | put _ hq ih =>
    rename_i hs m record _
    obtain ⟨cycle, e, checkedAt, lower, hst, rfl⟩ := emitting_of_request hq
    have hlast := getLast?_opened hr hst
    have ih := ih hf
    rcases (m.appended_put (Record.ofWatermark cycle.watermark lower)).logged with he | ⟨w, hw, he⟩
    · exact ih.of_logged he
    · -- the record carries the watermark of the cycle that began last
      have hw : cycle.watermark = w :=
        Option.some.inj ((watermarkOfPayload?_watermarkPayload cycle.watermark).symm.trans hw)
      subst hw
      have hmem := List.mem_of_getLast? hlast
      constructor
      · rw [he]
        refine List.pairwise_append.2 ⟨ih.sorted, List.pairwise_singleton _ _, ?_⟩
        intro v hv w hw
        rw [List.mem_singleton.1 hw]
        exact le_of_mem_opened (pairwise_opened ht hr ho hf) hlast (ih.subset v hv)
      · intro v hv
        rw [he] at hv
        rcases List.mem_append.1 hv with hv | hv
        · exact ih.subset v hv
        · rw [List.mem_singleton.1 hv]
          exact hmem

/-- The watermarks of consecutive cycles never decrease, whatever the order and the outcome of the
completions. So they do not decrease in any partition's part of the log of a stream that was empty, if no
event looks like a watermark record. -/
theorem watermarks_never_decrease (c : ReplayConfig) (i : Instruments) {feed : Feed}
    (ho : feed.Ordered) {hs : List Happening} (hf : (start c {} i).FedBy feed hs) :
    ((start c {} i).observe opened? hs).Pairwise (· ≤ ·) ∧
      ∀ m₀ m : InMemory, m₀.log = #[] →
        (∀ n e, feed n = .ok (some e) → watermarkOfPayload? e.payload = none) →
        (start c {} i).Hosts m₀ hs m →
        ∀ partition, ((m.watermarks.filter (·.1 = partition)).map Prod.snd).Pairwise (· ≤ ·) := by
  have hp := pending?_start c {} i
  refine ⟨pairwise_opened rfl hp ho hf, ?_⟩
  intro m₀ m hlog hplain hm partition
  have hsorted : m.logged.Pairwise (· ≤ ·) := (hm.ascends hlog rfl hp ho hplain hf).sorted
  exact hsorted.sublist (List.filter_sublist.map Prod.snd)

/-- Two cycles of the run of three events, and the log that they are written to. -/
theorem watermarks_never_decrease_threeRun :
    let r := start everyEvent {} {}
    let feed := Feed.ofList threeEvents
    let m := r.hosted (InMemory.create 1) threeRun
    feed.Ordered ∧ r.FedBy feed threeRun ∧ r.Hosts (InMemory.create 1) threeRun m ∧
      (r.observe opened? threeRun).map Timestamp.millis = [999, 1999] ∧
      (r.observe opened? threeRun).Pairwise (· ≤ ·) ∧
      ∀ partition, ((m.watermarks.filter (·.1 = partition)).map Prod.snd).Pairwise (· ≤ ·) := by
  intro r feed m
  have ho : feed.Ordered := Feed.pairwise_ofList (by decide)
  have hf : r.FedBy feed threeRun := fedBy_ofList (by decide +kernel)
  have hm : r.Hosts (InMemory.create 1) threeRun m := Hosts.fresh.hosted threeRun
  have hplain : ∀ n e, feed n = .ok (some e) → watermarkOfPayload? e.payload = none := by
    have hall : ∀ e ∈ threeEvents, watermarkOfPayload? e.payload = none := by decide +kernel
    intro n e he
    exact hall e (List.mem_of_getElem? (Except.ok.inj he))
  have hnever := watermarks_never_decrease everyEvent {} ho hf
  exact ⟨ho, hf, hm, by decide +kernel, hnever.1, hnever.2 (InMemory.create 1) m rfl hplain hm⟩

end Replay

end Tidemark
