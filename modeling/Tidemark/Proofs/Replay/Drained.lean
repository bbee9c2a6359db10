import Tidemark.Proofs.InFlight.Rehearsals
import Tidemark.Proofs.Replay.Flight

/-!
# What a drain leaves behind

A dispatcher that has drained, or a replay that has ended, has no send outstanding and tracks no event that it
sent, with one exception: a flush that answers with a fault ends it at once, whatever is outstanding then.

```
flush ── well ──> settle ── nothing outstanding ──> ended
  └── fault ──> ended
```

`drained_unless_flush_fails` is this for a dispatcher wherever a run has left it, and for every replay, from any
tracker; `drain_leaves_delayed_send` is the exception, for an acknowledgement that is under way.
-/

namespace Tidemark

namespace Rehearsal.Reply

/-- A call that came back well. -/
def isOk : Reply → Bool
  | .finished (.ok ()) => true
  | _ => false

/-- Only a call that has finished comes back well. -/
theorem eq_finished_ok {r : Reply} (h : r.isOk = true) : r = .finished (.ok ()) := by
  unfold isOk at h
  split at h
  · rfl
  · exact nomatch h

end Rehearsal.Reply

namespace Replay

/-! ### The books along a run -/

/-- All along a run, sends are told apart by their numbers. -/
theorem numbered_after {r : Replay} (hr : r.dispatch.Numbered) (hs : List Happening) :
    (r.after hs).dispatch.Numbered := by
  induction hs using List.reverseRecOn with
  | nil => exact hr
  | append_singleton hs h ih =>
    rw [after_concat]
    rcases ((r.after hs).move_step h).flight with
      ⟨id, o, -, -, hd, -⟩ | ⟨-, hd, -⟩ | ⟨e, i, -, hd, -⟩
    · rw [hd]
      exact ih.ended (Dispatch.complete_outstanding ..) (Dispatch.complete_nextId ..)
    · rw [hd]
      exact ih
    · rw [hd]
      exact ih.send e _ i

/-- What is tracked after a run is outstanding, or was tracked before it and was not sent in it. -/
theorem covered_after {r : Replay} (hr : r.dispatch.Numbered) (hs : List Happening) :
    (r.after hs).dispatch.Covered (r.after hs).tracker r.tracker.keys
      ((r.run hs).2.map fun s ↦ s.event.key) := by
  induction hs using List.reverseRecOn with
  | nil => exact .start _ _
  | append_singleton hs h ih =>
    rw [after_concat, sent_concat, List.map_append]
    rcases ((r.after hs).move_step h).flight with
      ⟨id, o, -, hsent, hd, ht⟩ | ⟨hsent, hd, ht⟩ | ⟨e, i, hsent, hd, ht⟩
    · rw [hd, ht, hsent, Option.toList_none, List.map_nil, List.append_nil]
      exact ih.ended (numbered_after hr hs) (Dispatch.complete_outstanding ..)
    · rw [hd, ht, hsent, Option.toList_none, List.map_nil, List.append_nil]
      exact ih
    · rw [hd, ht, hsent]
      exact ih.send e i

/-! ### The end -/

/-- The totals of a replay that has ended well. -/
def summary? (r : Replay) : Option Summary :=
  match r.stage with
  | .ended (.ok s) => some s
  | _ => none

/-- The totals are there once the replay has ended well. -/
theorem summary?_eq_some_iff {r : Replay} {s : Summary} :
    r.summary? = some s ↔ r.stage = .ended (.ok s) := by
  rw [summary?]
  split
  · rename_i s' hs
    simp [hs]
  · rename_i hne
    exact ⟨fun h ↦ absurd h (by simp), fun h ↦ absurd h (hne s)⟩

/-- The flush of the destination answers with a fault. -/
def FlushFails (r : Replay) (hs : List Happening) : Prop :=
  ∃ before now cancelled fault later ending,
    hs = before ++ .answered now cancelled (.flushed (.error fault)) :: later ∧
      (r.after before).stage = .flushing ending

theorem FlushFails.append {r : Replay} {hs : List Happening} (h : r.FlushFails hs)
    (more : List Happening) : r.FlushFails (hs ++ more) := by
  obtain ⟨before, now, cancelled, fault, later, ending, rfl, hstage⟩ := h
  exact ⟨before, now, cancelled, fault, later ++ more, ending, by simp, hstage⟩

/-- Waiting for the last completion ends with nothing outstanding. -/
theorem outstanding_of_settle {r : Replay} {ending : Except Fault Unit} {result : Except Fault Summary}
    (hend : (r.settle ending).stage = .ended result) : (r.settle ending).dispatch.outstanding = [] := by
  rw [settle] at hend ⊢
  split at hend
  · rename_i hnone
    rw [if_pos hnone, (r.settled_finish ending _).dispatch]
    exact List.isEmpty_iff.1 hnone
  · exact absurd hend (by simp)

/-- A flush that fails ends the replay with a fault. -/
theorem finish_of_flush_fault {r : Replay} {ending : Except Fault Unit} {fault : Fault}
    {result : Except Fault Summary} (hend : (r.finish ending (.error fault)).stage = .ended result) :
    ∃ fault, result = .error fault := by
  cases ending with
  | error first => exact ⟨first, (ReplayStage.ended.inj hend).symm⟩
  | ok u => exact ⟨fault, (ReplayStage.ended.inj hend).symm⟩

/-- A step that comes to an end has ended before, leaves nothing outstanding, or is a flush that fails. -/
theorem step_ended {r : Replay} {h : Happening} {result : Except Fault Summary}
    (hend : (r.step h).1.stage = .ended result) :
    r.stage = .ended result ∨ (r.step h).1.dispatch.outstanding = [] ∨
      (∃ now cancelled fault ending, h = .answered now cancelled (.flushed (.error fault)) ∧
        r.stage = .flushing ending) ∧ ∃ fault, result = .error fault := by
  by_cases hl : r.IsLooping
  · have hm := r.move_step h
    generalize r.step h = x at hm hend
    cases hm with
    | ignored => exact Or.inl hend
    | landed => exact Or.inl hend
    | concluded hnot => exact absurd hl hnot
    | launched _ _ hlaunched => exact absurd (hlaunched.stage.symm.trans hend) (by simp)
    | ended hs => exact absurd hl (by simp [IsLooping, hs])
    | _ => exact absurd hend (by simp)
  · cases hs : r.stage with
    | flushing ending =>
      cases h with
      | completed id outcome =>
        simp only [step, complete, hs] at hend
        exact absurd hend (by simp)
      | answered now cancelled a =>
        cases a with
        | flushed drained =>
          cases drained with
          | error fault =>
            simp only [step, answer, hs] at hend
            exact Or.inr (Or.inr ⟨⟨now, cancelled, fault, ending, rfl, rfl⟩, finish_of_flush_fault hend⟩)
          | ok u =>
            simp only [step, answer, hs] at hend ⊢
            exact Or.inr (Or.inl (outstanding_of_settle hend))
        | _ =>
          simp only [step, answer, hs] at hend
          exact absurd hend (by simp)
    | settling ending =>
      cases h with
      | completed id outcome =>
        simp only [step, complete, hs] at hend ⊢
        exact Or.inr (Or.inl (outstanding_of_settle hend))
      | answered now cancelled a =>
        simp only [step, answer, hs] at hend
        exact absurd hend (by simp)
    | ended result' =>
      cases h with
      | completed id outcome =>
        simp only [step, complete, hs] at hend
        exact Or.inl hend
      | answered now cancelled a =>
        simp only [step, answer, hs] at hend
        exact Or.inl hend
    | _ => simp [IsLooping, hs] at hl

/-- Nothing is sent by a replay that has ended. -/
theorem outstanding_of_ended {r : Replay} {result : Except Fault Summary} (hr : r.stage = .ended result)
    (hnone : r.dispatch.outstanding = []) (h : Happening) : (r.step h).1.dispatch.outstanding = [] := by
  have hsent : (r.step h).2 = none := by
    cases h with
    | completed id outcome => rfl
    | answered now cancelled a => simp only [step, answer, hr]
  rw [List.eq_nil_iff_forall_not_mem]
  intro s hs
  have hmem := mem_outstanding_of_step hsent hs
  rw [hnone] at hmem
  exact List.not_mem_nil hmem

/-- A run that comes to an end leaves nothing outstanding, or its flush has failed. -/
theorem outstanding_of_after_ended {r : Replay} (hr : r.dispatch.outstanding = []) {hs : List Happening}
    {result : Except Fault Summary} (hend : (r.after hs).stage = .ended result) :
    (r.FlushFails hs ∧ ∃ fault, result = .error fault) ∨ (r.after hs).dispatch.outstanding = [] := by
  induction hs using List.reverseRecOn generalizing result with
  | nil => exact Or.inr hr
  | append_singleton hs h ih =>
    rw [after_concat] at hend ⊢
    rcases step_ended hend with hbefore | hnone | ⟨⟨now, cancelled, fault, ending, rfl, hstage⟩, hfault⟩
    · rcases ih hbefore with ⟨hfails, hfault⟩ | hnone
      · exact Or.inl ⟨hfails.append [h], hfault⟩
      · exact Or.inr (outstanding_of_ended hbefore hnone h)
    · exact Or.inr hnone
    · exact Or.inl ⟨⟨hs, now, cancelled, fault, [], ending, rfl, hstage⟩, hfault⟩

/-- A replay that has ended has nothing outstanding and tracks nothing that it sent, unless its flush
answered with a fault; then it has ended with a fault. -/
theorem drained_of_ended (c : ReplayConfig) (t : Tracker) (i : Instruments)
    {hs : List Happening} {result : Except Fault Summary}
    (hend : ((start c t i).after hs).stage = .ended result) :
    let r := start c t i
    (r.FlushFails hs ∧ ∃ fault, result = .error fault) ∨
      ((r.after hs).dispatch.outstanding = [] ∧
        ∀ s ∈ (r.run hs).2, s.event.key ∉ (r.after hs).tracker.keys) := by
  intro r
  refine (outstanding_of_after_ended (r := r) rfl hend).imp_right fun hnone ↦ ⟨hnone, fun s hs' ↦ ?_⟩
  exact (covered_after (r := r) .empty hs).not_mem hnone (List.mem_map_of_mem hs')

/-- Wherever a run has left a dispatcher, a drain that returns leaves no completion that has not ended and no
key in the tracker, unless its flush answered with a fault. The same goes for a replay that has ended, whatever
happened in it. -/
theorem drained_unless_flush_fails (stream : InMemory) (script : Rehearsal.Script) (c : ReplayConfig)
    (t : Tracker) (i : Instruments) :
    (∀ acts : List Rehearsal.Act,
      let f := (Rehearsal.Flow.start stream script i).run acts
      f.entering = none → ∀ result, f.books.drain.1 = .finished result →
        (∃ fault, (f.books.stage.flush f.books.stage.deadline).1 = some (.error fault) ∧
          result = .error fault) ∨
        result = .ok () ∧ f.Finished f.books.drain.2) ∧
    ∀ (hs : List Happening) (result : Except Fault Summary),
      let r := start c t i
      (r.after hs).stage = .ended result →
        (r.FlushFails hs ∧ ∃ fault, result = .error fault) ∨
        (r.after hs).dispatch.outstanding = [] ∧
          ∀ s ∈ (r.run hs).2, s.event.key ∉ (r.after hs).tracker.keys := by
  constructor
  · intro acts f hentering
    exact Rehearsal.Flow.finished_of_drain stream script i hentering
  · intro hs result r hend
    exact drained_of_ended c t i hend

/-- An event whose acknowledgement is under way when the destination is flushed. -/
def lateEvent : Event :=
  ⟨⟨100, by decide, by decide⟩, "a".toUTF8, "3398926610", 1⟩

/-- A stream whose acknowledgements take five milliseconds. -/
def lateStream : InMemory :=
  (InMemory.create 1).withAckPolicy (.delayed (Span.ofMillis 5))

/-- The flush ends well, and the only send is acknowledged after it. -/
def lateRun : List Happening :=
  [.answered .start false (.pulled (.ok (some lateEvent))),
    .answered .start false (.pulled (.ok none)),
    .answered .start false (.flushed (.ok ())),
    .completed 0 (.ok ⟨"shard", none⟩)]

/-- The only send is outstanding when the drain begins, and acknowledged when it returns. -/
theorem drained_unless_flush_fails_lateRun :
    (let f := (Rehearsal.Flow.start lateStream {} {}).run [.register lateEvent, .submit]
     f.books.tracker.size = 1 ∧ f.books.drain.1 = .finished (.ok ()) ∧ f.Finished f.books.drain.2) ∧
    ((start {} {} {}).after lateRun).stage = .ended (.ok
      { eventsSent := 1, sendFailures := 0, watermarksEmitted := 0, cyclesSkipped := 0
        lastWatermark := none }) ∧
      ((start {} {} {}).after lateRun).dispatch.outstanding = [] ∧
      ∀ s ∈ ((start {} {} {}).run lateRun).2,
        s.event.key ∉ ((start {} {} {}).after lateRun).tracker.keys := by
  constructor
  · intro f
    have hentering : f.entering = none := by decide +kernel
    have hsize : f.books.tracker.size = 1 := by decide +kernel
    have hreply : f.books.drain.1 = .finished (.ok ()) :=
      Rehearsal.Reply.eq_finished_ok (by decide +kernel)
    refine ⟨hsize, hreply, ?_⟩
    have hdrain := (drained_unless_flush_fails lateStream {} {} {} {}).1 _ hentering _ hreply
    rcases hdrain with ⟨fault, -, hfault⟩ | ⟨-, hfinished⟩
    · exact nomatch hfault
    · exact hfinished
  · have hend : ((start {} {} {}).after lateRun).stage = .ended (.ok ⟨1, 0, 0, 0, none⟩) :=
      summary?_eq_some_iff.1 (by decide +kernel)
    refine ⟨hend, ?_⟩
    rcases (drained_unless_flush_fails lateStream {} {} {} {}).2 _ _ hend with ⟨-, fault, hfault⟩ | hdrained
    · exact nomatch hfault
    · exact hdrained

end Replay

namespace Rehearsal.Dispatching

/-- A dispatcher whose acknowledgements take five milliseconds and whose first flush fails at once. -/
def hasty : Dispatching :=
  { stage := .ofStream ((InMemory.create 1).withAckPolicy (.delayed (Span.ofMillis 5)))
      { flushes := [{ answer := some (.error (.destination (.reported "boom"))) }] } }

/-- A call that came back with a fault. -/
def isFault : Reply → Bool
  | .finished (.error _) => true
  | _ => false

/-- The drain returns while the send is outstanding. -/
theorem drain_leaves_delayed_send :
    let d := (hasty.step (.send Replay.lateEvent)).2
    isFault d.drain.1 = true ∧
      d.drain.2.dispatch.outstanding = [⟨0, Replay.lateEvent⟩] ∧
      d.drain.2.tracker.keys = [Replay.lateEvent.key] ∧
      endedOf d.drain.2.stage.state 0 = none := by
  decide +kernel

end Rehearsal.Dispatching

end Tidemark
