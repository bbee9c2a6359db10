import Tidemark.Proofs.Replay.Delivery
import Tidemark.Proofs.Replay.Drained
import Tidemark.Proofs.Replay.Metered

/-!
# The books of a finished replay

The summary of a replay that has ended well, against what has happened in its run and against its metrics.
Three accounts have to agree:

```
sends      every event sent has landed, once, with an outcome              (SendBooks)
cycles     every cycle begun is a round, with all that it asked for        (CycleBooks)
metrics    what the summary says, and the puts that were acknowledged      (Metrics.Shows)
```

What is sent is outstanding until it lands (`perm_landings`), and a good end leaves nothing outstanding
and no cycle under way, so that all accounts are closed: `books_agree`.
-/

namespace Tidemark

namespace Dispatch

/-- The send that is found by a number, and the rest. -/
theorem Numbered.perm_filter {d : Dispatch} (h : d.Numbered) {s : Send} (hs : s ∈ d.outstanding) :
    d.outstanding.Perm (s :: d.outstanding.filter (·.id ≠ s.id)) := by
  have hnodup : d.outstanding.Nodup := List.Nodup.of_map _ h.nodup_ids
  rw [List.perm_ext_iff_of_nodup hnodup]
  · intro x
    rw [List.mem_cons, List.mem_filter, decide_eq_true_eq]
    by_cases hx : x = s
    · simp [hx, hs]
    · have hid : x ∈ d.outstanding → x.id ≠ s.id := fun hmem he ↦ hx (h.eq_of_id_eq hmem hs he)
      simpa [hx] using hid
  · exact List.nodup_cons.2 ⟨by simp, hnodup.filter _⟩

end Dispatch

namespace Replay

/-- The send whose completion ends in a step, with its outcome. -/
def landing? (r : Replay) : Happening → Option (Send × Outcome)
  | .completed id outcome => (r.dispatch.find? id).map fun s ↦ (s, outcome)
  | .answered _ _ _ => none

/-! ### Landings -/

/-- What has been sent has landed or is outstanding. -/
theorem perm_landings {r : Replay} (hr : r.dispatch.Numbered) (hnone : r.dispatch.outstanding = [])
    (hs : List Happening) :
    (r.run hs).2.Perm
      ((r.observe landing? hs).map Prod.fst ++ (r.after hs).dispatch.outstanding) := by
  induction hs using List.reverseRecOn with
  | nil =>
    rw [after_nil, hnone]
    exact .nil
  | append_singleton hs h ih =>
    rw [after_concat, sent_concat, observe_concat, List.map_append]
    cases h with
    | completed id o =>
      show ((r.run hs).2 ++ []).Perm _
      rw [List.append_nil]
      refine ih.trans ?_
      rw [List.append_assoc, List.perm_append_left_iff]
      show ((r.after hs).dispatch.outstanding).Perm
        (_ ++ ((r.after hs).complete id o).dispatch.outstanding)
      rw [dispatch_complete, Dispatch.complete_outstanding, landing?]
      cases hf : (r.after hs).dispatch.find? id with
      | none =>
        rw [Dispatch.filter_of_find?_eq_none hf]
        exact .refl _
      | some s =>
        obtain ⟨hmem, rfl⟩ := Dispatch.mem_of_find?_eq_some hf
        exact (numbered_after hr hs).perm_filter hmem
    | answered now cancelled a =>
      rcases ((r.after hs).move_step (.answered now cancelled a)).flight with
        ⟨id, o, he, -⟩ | ⟨hsent, hd, -⟩ | ⟨e, i, hsent, hd, -⟩
      · exact absurd he (by simp)
      · rw [hsent, hd]
        simpa [landing?] using ih
      · rw [hsent, hd]
        simpa [landing?, Dispatch.send] using ih.append_right [_]

/-- The landings with a fault are the failures. -/
theorem failures_after (r : Replay) (hs : List Happening) :
    (r.after hs).dispatch.failures =
      r.dispatch.failures + (r.observe landing? hs).countP fun x ↦ !x.2.isOk := by
  induction hs using List.reverseRecOn with
  | nil => rfl
  | append_singleton hs h ih =>
    rw [after_concat, observe_concat, List.countP_append, ← Nat.add_assoc, ← ih]
    cases h with
    | completed id o =>
      show ((r.after hs).complete id o).dispatch.failures = _
      rw [dispatch_complete, Dispatch.complete_failures, landing?]
      cases (r.after hs).dispatch.find? id with
      | none => rfl
      | some s => cases o <;> rfl
    | answered now cancelled a =>
      rcases ((r.after hs).move_step (.answered now cancelled a)).flight with
        ⟨id, o, he, -⟩ | ⟨-, hd, -⟩ | ⟨e, i, -, hd, -⟩
      · exact absurd he (by simp)
      · rw [hd]
        rfl
      · rw [hd]
        rfl

/-! ### The summary -/

theorem Settled.summary_eq {r r' : Replay} (hs : Settled r r') {s : Summary}
    (hend : r'.stage = .ended (.ok s)) : s = r'.summary := by
  rw [hs.summary s hend, Replay.summary, Replay.summary, hs.eventsSent, hs.dispatch, hs.emitter]

/-- A good end leaves nothing outstanding. -/
theorem outstanding_of_finished {r : Replay} (hr : r.dispatch.outstanding = []) {hs : List Happening}
    {s : Summary} (hend : (r.after hs).stage = .ended (.ok s)) :
    (r.after hs).dispatch.outstanding = [] := by
  rcases outstanding_of_after_ended hr hend with ⟨-, fault, hfault⟩ | hnone
  · exact absurd hfault (by simp)
  · exact hnone

/-- A replay that has ended well goes on to report its totals: they do not change any more. -/
theorem summary_of_finished {r : Replay} (hr : r.dispatch.outstanding = [])
    (hrunning : ∀ s, r.stage ≠ .ended (.ok s)) {hs : List Happening} {s : Summary}
    (hend : (r.after hs).stage = .ended (.ok s)) : s = (r.after hs).summary := by
  induction hs using List.reverseRecOn with
  | nil => exact absurd hend (hrunning s)
  | append_singleton hs h ih =>
    rw [after_concat] at hend ⊢
    have hm := (r.after hs).move_step h
    generalize (r.after hs).step h = x at hm hend
    cases hm with
    | ignored _ _ => exact ih hend
    | landed id o i =>
      -- nothing is outstanding, so the completion is one of no send
      have hsame : ((r.after hs).booked id o i).summary = (r.after hs).summary := by
        simp [booked, summary, Dispatch.complete, Dispatch.find?, outstanding_of_finished hr hend]
      rw [hsame]
      exact ih hend
    | concluded _ hsettled => exact hsettled.summary_eq hend
    | ended _ hsettled => exact hsettled.summary_eq hend
    | launched _ _ hl => exact absurd (hl.stage.symm.trans hend) (by simp)
    | _ => exact absurd hend (by simp)

/-! ### The accounts -/

/-- The sends of a run against a summary. -/
structure SendBooks (r : Replay) (hs : List Happening) (s : Summary) : Prop where
  submitted : s.eventsSent = (r.run hs).2.length
  /-- Every event sent has landed once. -/
  landed : ((r.observe landing? hs).map Prod.fst).Perm (r.run hs).2
  failed : s.sendFailures = (r.observe landing? hs).countP fun x ↦ !x.2.isOk
  acknowledged : s.eventsSent = s.sendFailures + (r.observe landing? hs).countP fun x ↦ x.2.isOk

/-- The cycles of a run, round by round, against a summary. -/
structure CycleBooks (r : Replay) (hs : List Happening) (s : Summary) (rounds : List Round) : Prop where
  exchanges : r.observe exchange? hs = rounds.flatMap Round.exchanges
  watermarks : rounds.map Round.watermark =
    if r.emitter.config.enabled then r.observe opened? hs else []
  skipped : s.cyclesSkipped = rounds.countP Round.isSkipped
  emitted : s.watermarksEmitted = ((rounds.filter fun x ↦ !x.isSkipped).map Round.listed).sum
  /-- Puts are acknowledged in rounds that are skipped afterwards, too. -/
  written : (r.observe exchange? hs).countP Exchange.isWritten =
    s.watermarksEmitted + ((rounds.filter Round.isSkipped).map Round.written).sum
  last : s.lastWatermark = (r.observe opened? hs).getLast?

/-- The sends of a replay that has ended well are as its summary says. -/
theorem sendBooks_of_finished {c : ReplayConfig} {t : Tracker} {i : Instruments} {hs : List Happening}
    {s : Summary} (hend : ((start c t i).after hs).stage = .ended (.ok s))
    (hsummary : s = ((start c t i).after hs).summary)
    (hnone : ((start c t i).after hs).dispatch.outstanding = []) : (start c t i).SendBooks hs s := by
  obtain ⟨-, hcount, hreported⟩ := counts_after (reported_start c t i) hs
  have hsubmitted : s.eventsSent = ((start c t i).run hs).2.length := by
    rw [hreported s hend, hcount]
    exact Nat.zero_add _
  have hlanded := perm_landings (r := start c t i) .empty rfl hs
  rw [hnone, List.append_nil] at hlanded
  have hfailed : s.sendFailures = ((start c t i).observe landing? hs).countP fun x ↦ !x.2.isOk := by
    rw [hsummary]
    exact ((start c t i).failures_after hs).trans (Nat.zero_add _)
  refine ⟨hsubmitted, hlanded.symm, hfailed, ?_⟩
  -- a landing has gone well or not
  rw [hsubmitted, hfailed, hlanded.length_eq, List.length_map,
    List.length_eq_countP_add_countP fun x : Send × Outcome ↦ !x.2.isOk]
  simp

/-- The cycles of a replay that has ended well are as its summary says. -/
theorem cycleBooks_of_finished {c : ReplayConfig} {t : Tracker} {i : Instruments} {hs : List Happening}
    {s : Summary} (hend : ((start c t i).after hs).stage = .ended (.ok s))
    (hsummary : s = ((start c t i).after hs).summary) :
    ∃ rounds, (start c t i).CycleBooks hs s rounds := by
  have hclosed : ((start c t i).after hs).cycle? = none := by rw [cycle?, hend]
  rcases ledger_after (asking_start c t i) (cycle?_start c t i) rfl hs with
    hbroken | ⟨rounds, booked, begun, hl⟩
  · rw [IsBroken, hend] at hbroken
    exact hbroken.elim
  rw [hclosed] at hl
  have hexchanges := hl.exchanges_eq
  rw [hl.idle rfl, List.append_nil] at hexchanges
  have hopened : (start c t i).observe opened? hs = booked := hl.opened_eq.trans (List.append_nil _)
  have hemitted : s.watermarksEmitted = ((rounds.filter fun x ↦ !x.isSkipped).map Round.listed).sum := by
    rw [hsummary, ← Round.sum_partitions]
    exact hl.emitted
  refine ⟨rounds, hexchanges, ?_, ?_, hemitted, ?_, ?_⟩
  · rw [hopened]
    exact hl.watermarks
  · rw [hsummary, ← Round.sum_skips]
    exact hl.skipped
  · rw [hexchanges, Round.countP_flatMap_exchanges, hemitted]
  · rw [hsummary, hopened]
    exact hl.last

/-- Three sends, one of which is dropped, and two cycles over two partitions. The destination throttles the
first cycle at its second put. -/
def mixedRun : List Happening :=
  let pulled (now : Instant) (n : Nat) : Happening :=
    .answered now false (.pulled (.ok threeEvents[n]?))
  let listed : Happening := .answered tenSeconds false (.listed (.ok ⟨[⟨"a", "0"⟩, ⟨"b", "1"⟩], none⟩))
  let wrote (answer : Outcome) : Happening := .answered tenSeconds false (.wrote answer)
  [pulled Instant.start 0, pulled tenSeconds 1, listed, wrote (.ok shardAck),
    wrote (.error (.throttled .injectedPut)), .completed 1 (.error (.destination .dropped)),
    pulled tenSeconds 2, listed, wrote (.ok shardAck), wrote (.ok shardAck),
    .completed 0 (.ok shardAck), pulled tenSeconds 3, .answered tenSeconds false (.flushed (.ok ())),
    .completed 2 (.ok shardAck)]

end Replay

end Tidemark
