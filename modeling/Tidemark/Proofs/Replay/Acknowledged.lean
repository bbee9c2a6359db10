import Tidemark.Proofs.Replay.Surroundings
import Tidemark.Proofs.Replay.Watermarks

/-!
# What acknowledgements change

Acknowledgements change the watermarks, and in one direction only. `Seen` tells from the happenings alone
what has come back in a run, as `Unseen` tells what has not. Of two runs that have sent the same,

```
more is seen  ──>  less is tracked  ──>  the watermark is no earlier
           mem_tracker_of_seen     opened?_le
```

The second arrow needs an ordered feed: with nothing in flight the watermark rests on the event that is
checked, which is then no older than anything that the other run still tracks.

Two courses in the same surroundings have sent the same, `sent_asking_eq`, and their logs are fed by the
source of the surroundings, `told_asking`. So both arrows hold between any two courses, and
`acks_move_only_watermarks` puts them beside what the handles do not change at all.
-/

namespace Tidemark

namespace Replay

/-! ### Sends whose outcome has been seen -/

/-- The event was submitted in the run, and its completion has ended since. -/
def Seen (r : Replay) (hs : List Happening) (x : Send) : Prop :=
  ∃ before h later, hs = before ++ h :: later ∧ ((r.after before).step h).2 = some x ∧
    ∃ o, Happening.completed x.id o ∈ later

/-- Whatever was sent was sent in some step. -/
theorem exists_step_of_mem_sent {r : Replay} {hs : List Happening} {x : Send} (hx : x ∈ (r.run hs).2) :
    ∃ before h later, hs = before ++ h :: later ∧ ((r.after before).step h).2 = some x := by
  induction hs generalizing r with
  | nil => exact absurd hx (by simp [run])
  | cons h hs ih =>
    rw [sent_cons] at hx
    rcases List.mem_append.1 hx with hx | hx
    · exact ⟨[], h, hs, rfl, Option.mem_toList.1 hx⟩
    · obtain ⟨before, g, later, rfl, hsent⟩ := ih hx
      exact ⟨h :: before, g, later, rfl, hsent⟩

/-- A send of a run is seen to have come back or it is not. -/
theorem seen_or_unseen {r : Replay} {hs : List Happening} {x : Send} (hx : x ∈ (r.run hs).2) :
    r.Seen hs x ∨ r.Unseen hs x := by
  obtain ⟨before, h, later, he, hsent⟩ := exists_step_of_mem_sent hx
  by_cases hlater : ∃ o, Happening.completed x.id o ∈ later
  · exact Or.inl ⟨before, h, later, he, hsent, hlater⟩
  · exact Or.inr ⟨before, h, later, he, hsent, not_exists.1 hlater⟩

/-- The number was given to a send, and that send is not outstanding. -/
def Landed (r : Replay) (id : Nat) : Prop :=
  id < r.dispatch.nextId ∧ ∀ x ∈ r.dispatch.outstanding, x.id ≠ id

/-- The number of a send whose completion ends has landed. -/
theorem landed_complete {r : Replay} {id : Nat} (hid : id < r.dispatch.nextId) (o : Outcome) :
    (r.complete id o).Landed id := by
  rw [Landed, dispatch_complete, Dispatch.complete_nextId, Dispatch.complete_outstanding]
  exact ⟨hid, fun x hx ↦ by simpa using (List.mem_filter.1 hx).2⟩

theorem nextId_le_step (r : Replay) (h : Happening) : r.dispatch.nextId ≤ (r.step h).1.dispatch.nextId := by
  rcases (r.move_step h).flight with ⟨id, o, -, -, hd, -⟩ | ⟨-, hd, -⟩ | ⟨e, i, -, hd, -⟩
  · exact Nat.le_of_eq (by rw [hd, Dispatch.complete_nextId])
  · exact Nat.le_of_eq (by rw [hd])
  · rw [hd]
    exact Nat.le_succ _

theorem nextId_le_after (r : Replay) (hs : List Happening) :
    r.dispatch.nextId ≤ (r.after hs).dispatch.nextId := by
  induction hs generalizing r with
  | nil => exact Nat.le_refl _
  | cons h hs ih => exact Nat.le_trans (r.nextId_le_step h) (ih _)

/-- A send has a number that was given out. -/
theorem id_lt_of_sent {r : Replay} {h : Happening} {x : Send} (hx : (r.step h).2 = some x) :
    x.id < (r.step h).1.dispatch.nextId := by
  rcases (r.move_step h).flight with ⟨id, o, -, hnone, -, -⟩ | ⟨hnone, -, -⟩ | ⟨e, i, hsent, hd, -⟩
  · exact absurd (hnone.symm.trans hx) (by simp)
  · exact absurd (hnone.symm.trans hx) (by simp)
  · rw [hd, ← Option.some.inj (hsent.symm.trans hx)]
    exact Nat.lt_succ_self _

/-- A number is not given out twice. -/
theorem Landed.step {r : Replay} {id : Nat} (hl : r.Landed id) (h : Happening) : (r.step h).1.Landed id := by
  refine ⟨Nat.lt_of_lt_of_le hl.1 (r.nextId_le_step h), ?_⟩
  intro x hx
  rcases (r.move_step h).flight with ⟨id', o, -, -, hd, -⟩ | ⟨-, hd, -⟩ | ⟨e, i, -, hd, -⟩
  · rw [hd, Dispatch.complete_outstanding] at hx
    exact hl.2 x (List.mem_filter.1 hx).1
  · rw [hd] at hx
    exact hl.2 x hx
  · rw [hd] at hx
    rcases List.mem_append.1 hx with hx | hx
    · exact hl.2 x hx
    · rw [List.mem_singleton.1 hx]
      exact Nat.ne_of_gt hl.1

theorem Landed.after {r : Replay} {id : Nat} (hl : r.Landed id) (hs : List Happening) :
    (r.after hs).Landed id := by
  induction hs generalizing r with
  | nil => exact hl
  | cons h hs ih => exact ih (hl.step h)

/-- What is outstanding has not come back. -/
theorem not_seen_of_mem_outstanding {r : Replay} {hs : List Happening} {x : Send}
    (hx : x ∈ (r.after hs).dispatch.outstanding) : ¬ r.Seen hs x := by
  rintro ⟨before, h, later, rfl, hsent, o, hlater⟩
  obtain ⟨meanwhile, since, rfl⟩ := List.append_of_mem hlater
  rw [after_append, after_cons, after_append, after_cons] at hx
  have hid := Nat.lt_of_lt_of_le (id_lt_of_sent hsent) (nextId_le_after _ meanwhile)
  exact ((landed_complete hid o).after since).2 x hx rfl

/-! ### More seen, less tracked -/

section MoreSeen

variable {r : Replay} {hs hs' : List Happening} {h : Happening} {feed : Feed}

/-- Of two runs that send the same, the one in which more is seen tracks less. -/
theorem mem_tracker_of_seen (hd : r.dispatch = {}) (ht : r.tracker = {})
    (hsent : (r.run hs).2 = (r.run hs').2) (hkeys : ((r.run hs').2.map fun x ↦ x.event.key).Nodup)
    (hseen : ∀ x, r.Seen hs' x → r.Seen hs x) {k : EventKey} (hk : k ∈ (r.after hs).tracker.keys) :
    k ∈ (r.after hs').tracker.keys := by
  have htracks := tracks_after hd ht (hsent ▸ hkeys)
  have htracks' := tracks_after hd ht hkeys
  obtain ⟨x, hx, rfl⟩ := (htracks.mem_keys k).1 hk
  have hx' : x ∈ (r.run hs').2 := hsent ▸ mem_sent_of_mem_outstanding (by rw [hd]) hx
  have hunseen : r.Unseen hs' x :=
    (seen_or_unseen hx').resolve_left fun hx' ↦ not_seen_of_mem_outstanding hx (hseen x hx')
  exact (htracks'.mem_keys _).2 ⟨x, mem_outstanding_of_unseen hunseen, rfl⟩

/-- Of two cycles that begin with the same check after the same sends, the one before which more is seen has
no earlier watermark. -/
theorem opened?_le (hd : r.dispatch = {}) (ht : r.tracker = {}) (hr : r.pending? = none)
    (ho : feed.Ordered) (hdistinct : feed.Distinct) (hf : r.FedBy feed (hs' ++ [h]))
    (hsent : (r.run hs).2 = (r.run hs').2) (hseen : ∀ x, r.Seen hs' x → r.Seen hs x)
    (hchecked : (r.after hs).checked? h = (r.after hs').checked? h) {w w' : Timestamp}
    (hw : (r.after hs).opened? h = some w) (hw' : (r.after hs').opened? h = some w') : w' ≤ w := by
  obtain ⟨now, e, hc, rfl⟩ := opened?_cases hw
  obtain ⟨now', e', hc', rfl⟩ := opened?_cases hw'
  obtain ⟨rfl, rfl⟩ : now = now' ∧ e = e' := by
    rw [hchecked, hc', Option.some.injEq, Prod.mk.injEq] at hc
    exact ⟨hc.1.symm, hc.2.symm⟩
  have hahead := ahead_of_checked hf hc'
  have hkeys := hf.of_append.nodup_keys hr hdistinct
  have hsorted : r.tracker.Sorted := ht ▸ Tracker.sorted_empty
  refine Emitter.le_compute ?_ ?_
  · -- nothing that the second run tracks is older than the event that is checked
    refine Emitter.compute_le (Timestamp.le_refl _) ?_
    intro k hk
    exact le_of_ahead_of_tracked ht hr ho hf.of_append hk hahead
  · intro k hk
    exact Emitter.compute_le_of_mem (sorted_after hsorted hs') (mem_tracker_of_seen hd ht hsent hkeys hseen hk) _

theorem isLooping_of_after (hl : (r.after hs).IsLooping) : r.IsLooping := by
  by_contra hr
  exact (run_of_not_looping hr hs).1 hl

theorem request_of_isPulling (hr : r.IsPulling) : r.request = .pull := by
  rcases hr with hs | hs <;> rw [request, hs]

end MoreSeen

end Replay

/-! ### The log of a course -/

namespace Course

/-- The source answers nothing while completions end. -/
theorem yields_landing (r : Replay) (acks : List (Nat × Outcome)) : r.yields (landing acks) = [] := by
  induction acks generalizing r with
  | nil => rfl
  | cons ack acks ih => exact ih _

theorem sent_landing (r : Replay) (acks : List (Nat × Outcome)) : (r.run (landing acks)).2 = [] := by
  induction acks generalizing r with
  | nil => rfl
  | cons ack acks ih => exact ih _

end Course

namespace Surroundings

open Replay

variable (s : Surroundings)

/-- What the source answers when it is called at these instants. -/
def feed (calls : List Instant) : Feed :=
  fun n ↦ if n < calls.length then (s.pull (calls.take (n + 1))).1 else .ok none

/-- The events of the source are in the order of their times, whenever it is called. -/
def Ordered : Prop :=
  ∀ calls, (s.feed calls).Ordered

/-- No two events of the source share a key, whenever it is called. -/
def Distinct : Prop :=
  ∀ calls, (s.feed calls).Distinct

theorem feed_concat_of_lt {calls : List Instant} {n : Nat} (hn : n < calls.length) (now : Instant) :
    s.feed (calls ++ [now]) n = s.feed calls n := by
  have hn' : n < (calls ++ [now]).length := by
    rw [List.length_append]
    exact Nat.lt_add_right _ hn
  rw [feed, feed, if_pos hn, if_pos hn', List.take_append_of_le_length hn]

theorem feed_concat_length (calls : List Instant) (now : Instant) :
    s.feed (calls ++ [now]) calls.length = (s.pull (calls ++ [now])).1 := by
  have hlength : (calls ++ [now]).length = calls.length + 1 := List.length_append
  rw [feed, if_pos (by omega), List.take_of_length_le (by omega)]

/-- The log of a course tells its replay, and what the source has answered. -/
structure Told (r : Replay) (c : Course) : Prop where
  replay : c.replay = r.after c.log
  fed : r.FedBy (s.feed c.pulls) c.log
  answered : c.replay.IsLooping → (r.yields c.log).length = c.pulls.length

variable {s} {r : Replay} {c : Course}

/-- Nothing is yet to be told of a course that has not begun. -/
theorem Told.fresh (r : Replay) : s.Told r { replay := r } where
  replay := rfl
  fed n y hy := absurd hy (by simp [yields, observe])
  answered _ := rfl

theorem Told.land (h : s.Told r c) (acks : List (Nat × Outcome)) : s.Told r (c.land acks) := by
  have hyields : r.yields (c.log ++ Course.landing acks) = r.yields c.log := by
    rw [yields_append, Course.yields_landing, List.append_nil]
  constructor
  · rw [Course.land, after_append, ← h.replay]
  · intro n y hy
    exact h.fed n y (hyields ▸ hy)
  · intro hl
    exact (congrArg List.length hyields).trans (h.answered (isLooping_of_after hl))

/-- A pull is answered by the source of the surroundings, or cut short. -/
theorem answer?_of_pull (hq : c.replay.request = .pull) {now : Instant} {cancelled : Bool} {a : ReplayAnswer}
    (ha : s.answer? c = some (now, cancelled, a)) : a = .pulled (s.pull (c.pulls ++ [c.now])).1 := by
  simp only [answer?, hq, Option.some.injEq] at ha
  rw [cut] at ha
  split at ha
  · split at ha <;> exact (congrArg (fun x ↦ x.2.2) ha).symm
  · exact (congrArg (fun x ↦ x.2.2) ha).symm

/-- Only a pull is booked as a call of the source. -/
theorem pulls_ask (c : Course) :
    c.ask.pulls = if c.replay.request = .pull then c.pulls ++ [c.now] else c.pulls := by
  rw [Course.ask]
  split <;> simp_all

/-- An answer is told of with what the source says. -/
theorem Told.take (h : s.Told r c) {now : Instant} {cancelled : Bool} {a : ReplayAnswer}
    (ha : s.answer? c = some (now, cancelled, a)) : s.Told r (c.take now cancelled a) := by
  have hlength := h.answered (s.isLooping_of_answer? ha)
  have hreplay : (c.replay.answer now cancelled a).1 = r.after (c.log ++ [.answered now cancelled a]) := by
    rw [after_concat, ← h.replay]
    rfl
  by_cases hq : c.replay.request = .pull
  · have hpulling := isPulling_of_request hq
    have hpulls : c.ask.pulls = c.pulls ++ [c.now] := by rw [pulls_ask, if_pos hq]
    obtain rfl := answer?_of_pull hq ha
    have hfed : r.FedBy (s.feed c.ask.pulls) c.log := by
      intro n y hy
      have hn : n < c.pulls.length := hlength ▸ (List.getElem?_eq_some_iff.1 hy).1
      rw [hpulls, s.feed_concat_of_lt hn]
      exact h.fed n y hy
    cases cancelled with
    | true =>
      -- the source has not answered, but the loop has ended
      refine ⟨hreplay, hfed.concat fun y hy ↦ absurd hy (by simp [yield?]), ?_⟩
      intro hl
      exact absurd hl (not_isLooping_of_cut hpulling now _)
    | false =>
      have hyield : (r.after c.log).yield? (.answered now false (.pulled (s.pull (c.pulls ++ [c.now])).1)) =
          some (now, (s.pull (c.pulls ++ [c.now])).1) := by
        rw [← h.replay]
        rcases hpulling with hs | hs <;> simp only [yield?, hs]
      refine ⟨hreplay, hfed.concat ?_, ?_⟩
      · intro y hy
        rw [← Option.some.inj (hyield.symm.trans hy), hlength, hpulls, feed_concat_length]
      · intro _
        show (r.yields (c.log ++ [_])).length = c.ask.pulls.length
        rw [yields_concat, hyield, hpulls, List.length_append, List.length_append, hlength]
        rfl
  · have hpulls : c.ask.pulls = c.pulls := by rw [pulls_ask, if_neg hq]
    have hyield : (r.after c.log).yield? (.answered now cancelled a) = none := by
      rw [← h.replay]
      exact yield?_eq_none (mt request_of_isPulling hq) _
    refine ⟨hreplay, ?_, ?_⟩
    · show r.FedBy (s.feed c.ask.pulls) _
      rw [hpulls]
      exact h.fed.concat fun y hy ↦ absurd (hyield.symm.trans hy) (by simp)
    · intro _
      show (r.yields (c.log ++ [_])).length = c.ask.pulls.length
      rw [yields_concat, hyield, hpulls]
      simpa using hlength

theorem Told.serve (h : s.Told r c) : s.Told r (s.serve c) := by
  rw [Surroundings.serve]
  cases ha : s.answer? c with
  | none => exact h
  | some x => exact h.take ha

variable (s r)

/-- The log tells the course whenever an answer is due. -/
theorem told_asking (acks : Nat → List (Nat × Outcome)) (n : Nat) : s.Told r (s.asking r acks n) := by
  induction n with
  | zero => exact (Told.fresh r).land (acks 0)
  | succ n ih => exact ih.serve.land (acks (n + 1))

/-! ### What courses send -/

theorem sent_serve {s : Surroundings} {r : Replay} {c : Course} (h : s.Told r c) :
    (r.run (s.serve c).log).2 = (r.run c.log).2 ++ ((s.sight? c).bind Sight.sent).toList := by
  rw [serve, sight?]
  cases ha : s.answer? c with
  | none => exact (List.append_nil _).symm
  | some x =>
    obtain ⟨now, cancelled, a⟩ := x
    show (r.run (c.log ++ [.answered now cancelled a])).2 = _
    rw [sent_concat, ← h.replay]
    rfl

/-- A course has sent what is seen of its answers. -/
theorem sent_asking (acks : Nat → List (Nat × Outcome)) (n : Nat) :
    (r.run (s.asking r acks n).log).2 =
      (List.range n).flatMap fun m ↦ ((s.sight? (s.asking r acks m)).bind Sight.sent).toList := by
  induction n with
  | zero => exact Course.sent_landing r (acks 0)
  | succ n ih =>
    have hland : (r.run (s.asking r acks (n + 1)).log).2 = (r.run (s.serve (s.asking r acks n)).log).2 := by
      show (r.run ((s.serve (s.asking r acks n)).log ++ Course.landing (acks (n + 1)))).2 = _
      rw [sent_append, Course.sent_landing, List.append_nil]
    rw [hland, sent_serve (s.told_asking r acks n), ih, List.range_succ, List.flatMap_append]
    simp

/-- Two courses of unlike handles send the same. -/
theorem sent_asking_eq (hr : Unwaiting r) (acks acks' : Nat → List (Nat × Outcome)) (n : Nat) :
    (r.run (s.asking r acks n).log).2 = (r.run (s.asking r acks' n).log).2 := by
  rw [sent_asking, sent_asking]
  simp only [s.sight?_eq hr acks acks']

/-! ### Any two courses -/

theorem unwaiting_start (c : ReplayConfig) (t : Tracker) (i : Instruments) : Unwaiting (start c t i) := by
  intro ending
  rw [start]
  cases c.validate <;> simp

/-- The handles that resolve before an answer, and their outcomes, move nothing that is seen of the answers up
to the drain: the instants, the submits, the begin and the end of the watermark cycles, and the end of the
loop. The totals differ in the failures and the last watermark at most. In an ordered source without
repetition, the course in which more has come back before a cycle has no earlier watermark there. -/
theorem acks_move_only_watermarks (c : ReplayConfig) (i : Instruments)
    (acks acks' : Nat → List (Nat × Outcome)) :
    let r := start c {} i
    let run := s.asking r acks
    let run' := s.asking r acks'
    (∀ n, s.sight? (run n) = s.sight? (run' n)) ∧
      (∀ n, { (run n).replay.summary with
          sendFailures := (run' n).replay.summary.sendFailures
          lastWatermark := (run' n).replay.summary.lastWatermark } = (run' n).replay.summary) ∧
      (s.Ordered → s.Distinct → ∀ n, (∀ x, r.Seen (run' n).log x → r.Seen (run n).log x) →
        ∀ w w', s.opened? (run n) = some w → s.opened? (run' n) = some w' → w' ≤ w) := by
  intro r run run'
  have hr : Unwaiting r := unwaiting_start c {} i
  refine ⟨s.sight?_eq hr acks acks', fun n ↦ (s.alike_asking hr acks acks' n).summary, ?_⟩
  intro ho hd n hseen w w' hw hw'
  have htold := s.told_asking r acks n
  have htold' := s.told_asking r acks' n
  -- both courses take the same answer, and it checks the same event
  have hanswer := s.answer?_eq hr acks acks' n
  rw [opened?, hanswer] at hw
  rw [opened?] at hw'
  cases ha : s.answer? (run' n) with
  | none => exact absurd (ha ▸ hw') (by simp)
  | some y =>
    rw [ha, Option.bind_some] at hw hw'
    have hveiled : (run n).replay.veiled = (run' n).replay.veiled := s.alike_asking hr acks acks' n
    have hchecked (h : Happening) : (run n).replay.checked? h = (run' n).replay.checked? h := by
      rw [← checked?_veiled, hveiled, checked?_veiled]
    rw [htold.replay] at hw hchecked
    rw [htold'.replay] at hw' hchecked
    have hfed := (htold'.take ha).fed
    exact opened?_le rfl rfl (pending?_start c {} i) (ho _) (hd _) hfed
      (s.sent_asking_eq r hr acks acks' n) hseen (hchecked _) hw hw'

/-- Ten seconds pass between the pulls of three events. -/
def tenSecondsApart : Surroundings where
  pull calls := (.ok threeEvents[calls.length - 1]?, ⟨(calls.length - 1) * tenSeconds.nanos⟩)
  list calls := (.ok ⟨[⟨"shard", "0"⟩], none⟩, calls.getLastD Instant.start)
  put calls := (.ok shardAck, calls.getLastD Instant.start)
  wake now d := now.after d
  cancelledAt := none

/-- The source yields the three events, whenever it is called. -/
theorem ofList_of_feed {calls : List Instant} {n : Nat} {e : Event}
    (h : tenSecondsApart.feed calls n = .ok (some e)) : Feed.ofList threeEvents n = .ok (some e) := by
  rw [feed] at h
  split at h
  · rename_i hn
    have hlength : (calls.take (n + 1)).length - 1 = n := by
      rw [List.length_take]
      omega
    have hpull : (tenSecondsApart.pull (calls.take (n + 1))).1 =
        .ok threeEvents[(calls.take (n + 1)).length - 1]? := rfl
    rw [hpull, hlength] at h
    exact h
  · exact absurd h (by simp)

/-- The first event comes back before the cycle that follows it, or never. The watermark of the cycle is the
one before the second event, or the one before the first. -/
theorem acks_move_only_watermarks_firstAck :
    let s := tenSecondsApart
    let r := start everyEvent {} {}
    let acks (n : Nat) : List (Nat × Outcome) := if n = 1 then [(0, .ok shardAck)] else []
    let run := s.asking r acks
    let run' := s.asking r fun _ ↦ []
    let w : Timestamp := ⟨1999, by decide, by decide⟩
    let w' : Timestamp := ⟨999, by decide, by decide⟩
    s.Ordered ∧ s.Distinct ∧ (∀ x, r.Seen (run' 1).log x → r.Seen (run 1).log x) ∧
      s.opened? (run 1) = some w ∧ s.opened? (run' 1) = some w' ∧ w' ≤ w ∧
      ((s.sight? (run 1)).map Sight.begins, (s.sight? (run' 1)).map Sight.begins) = (some true, some true) ∧
      ∀ n, s.sight? (run n) = s.sight? (run' n) := by
  intro s r acks run run' w w'
  have hordered : (Feed.ofList threeEvents).Ordered := Feed.pairwise_ofList (by decide)
  have hdistinct : (Feed.ofList threeEvents).Distinct := Feed.pairwise_ofList (by decide)
  have ho : s.Ordered := fun calls m n a b hlt ha hb ↦
    hordered m n a b hlt (ofList_of_feed ha) (ofList_of_feed hb)
  have hd : s.Distinct := fun calls m n a b hlt ha hb ↦
    hdistinct m n a b hlt (ofList_of_feed ha) (ofList_of_feed hb)
  have hlog : (run' 1).log.length = 1 := by decide +kernel
  -- nothing has come back in the second course
  have hseen : ∀ x, r.Seen (run' 1).log x → r.Seen (run 1).log x := by
    rintro x ⟨before, h, later, he, -, o, hlater⟩
    rw [he, List.length_append, List.length_cons] at hlog
    have hpos := List.length_pos_of_mem hlater
    omega
  have hw : s.opened? (run 1) = some w := by decide +kernel
  have hw' : s.opened? (run' 1) = some w' := by decide +kernel
  obtain ⟨hsight, -, hlate⟩ := s.acks_move_only_watermarks everyEvent {} acks fun _ ↦ []
  exact ⟨ho, hd, hseen, hw, hw', hlate ho hd 1 hseen w w' hw hw', by decide +kernel, hsight⟩

end Surroundings

end Tidemark
