import Tidemark.Proofs.Rehearsal.Staffed
import Tidemark.Proofs.Replay.Drained
import Tidemark.Proofs.Replay.Played
import Tidemark.Proofs.Replay.Steady

/-!
# Watermarks while the loop stalls, and right after a send

Whether the event before the pending one still holds the watermark back depends on whether its completion got
to run, and completions run only while the loop waits:

```
sleep before a distant event   handles resolve ─> completions run ─> clock at the end of the sleep ─> cycle
send, pull without waiting     handle may be resolved, its completion has not run                 ─> cycle
```

In the first case nothing is tracked, and the watermark is one millisecond before the pending event
(`catches_up`). In the second the event just sent is tracked, and the watermark lies before it (`held_back`).
Both are about a whole replay on a stage, in whatever state it is reached. The stream, the script of its answers
and the agenda are any, so handles resolve at any moments, in any order and either way. What carries the first
one is `Manned`: once the books take notice of what has ended, the sends that are outstanding in them are
completions on the stage that have not ended.
-/

namespace Tidemark.Rehearsal.Replaying

/-! ### Requests and their answers -/

/-- What is reached while requests are served. -/
inductive Reaches (limit : Instant) (r₀ : Replaying) : Replaying → Prop where
  | refl : Reaches limit r₀ r₀
  | serve {r : Replaying} : Reaches limit r₀ r → (r.serve limit).1 = true →
      Reaches limit r₀ (r.serve limit).2

/-- The answer to a call that came in time, and the replay that takes it. -/
def returned {α : Type} (r : Replaying) (wrap : α → ReplayAnswer) :
    Option α × Stage → Option (Replaying × ReplayAnswer)
  | (some a, stage) => some (r.absorb stage, wrap a)
  | (none, _) => none

/-- An answer that is held back until a moment. -/
def waited (r : Replaying) (due limit : Instant) (a : ReplayAnswer) : Option (Replaying × ReplayAnswer) :=
  match waitOpen r.stage due limit with
  | (true, stage) => some (r.absorb stage, a)
  | (false, _) => none

/-- The answer to the request, and the replay that takes it. -/
def answered? (r : Replaying) (limit : Instant) : Option (Replaying × ReplayAnswer) :=
  match r.replay.request with
  | .pull =>
    if r.stage.state.cancelled then some (r, .pulled (.ok none))
    else
      let (delay, answer, source) := r.source.pull
      let r := { r with source }
      match delay with
      | none => some (r, .pulled answer)
      | some ms => r.waited (r.stage.agenda.wakeTime (Span.ofMillis ms)) limit (.pulled answer)
  | .sleep d => r.waited (r.stage.agenda.wakeTime d) limit .slept
  | .list token => r.returned .listed (r.stage.list token limit)
  | .put record => r.returned .wrote (r.stage.put record limit)
  | .flush => r.returned .flushed (r.stage.flush limit)
  | .settle => none
  | .nothing => none

/-- The event that is sent when the request is served. -/
def sent? (r : Replaying) (limit : Instant) : Option Send :=
  (r.answered? limit).bind fun x ↦ (x.1.replay.step (x.1.happening x.2)).2

/-- The watermark of the cycle that begins when the request is served. -/
def opened? (r : Replaying) (limit : Instant) : Option Timestamp :=
  (r.answered? limit).bind fun x ↦ x.1.replay.opened? (x.1.happening x.2)

/-- The stages that a sleep of the loop passes through. -/
def sleepTrail (r : Replaying) (d : Span) (limit : Instant) : List Stage :=
  let due := r.stage.agenda.wakeTime d
  World.trail Stage.perform (fun w ↦ due ≤ w.now || w.state.cancelled) (if due < limit then due else limit)
    r.stage

/-- The loop suspends in its next pull. -/
def Suspends (r : Replaying) : Prop :=
  ∃ ms, r.source.pull.1 = some ms ∧ r.stage.now < r.stage.agenda.wakeTime (Span.ofMillis ms)

variable {r r₀ q : Replaying} {a : ReplayAnswer} {limit : Instant}

/-- An answer that is held back comes when the wait is over. -/
theorem answerAfter_of_waited {due : Instant} {b : ReplayAnswer} (h : r.waited due limit b = some (q, a)) :
    r.answerAfter due limit b = (true, q.answer a) := by
  rw [waited] at h
  rw [answerAfter]
  generalize waitOpen r.stage due limit = x at h ⊢
  obtain ⟨came, s⟩ := x
  cases came with
  | false => exact absurd h (by simp)
  | true =>
    obtain ⟨rfl, rfl⟩ := Prod.mk.inj (Option.some.inj h)
    rfl

theorem called_of_returned {α : Type} {wrap : α → ReplayAnswer} {x : Option α × Stage}
    (h : r.returned wrap x = some (q, a)) : r.called wrap x = (true, q.answer a) := by
  obtain ⟨answer, s⟩ := x
  cases answer with
  | none => exact absurd h (by simp [returned])
  | some b =>
    obtain ⟨rfl, rfl⟩ := Prod.mk.inj (Option.some.inj h)
    rfl

/-- A request that is answered is served with that answer. -/
theorem serve_of_answered (h : r.answered? limit = some (q, a)) : r.serve limit = (true, q.answer a) := by
  rw [answered?] at h
  rw [serve]
  cases hq : r.replay.request with
  | nothing => simp [hq] at h
  | settle => simp [hq] at h
  | pull =>
    simp only [hq] at h ⊢
    rw [pull]
    split
    · rename_i hc
      rw [if_pos hc] at h
      obtain ⟨rfl, rfl⟩ := Prod.mk.inj (Option.some.inj h)
      rfl
    · rename_i hc
      rw [if_neg hc] at h
      generalize r.source.pull = x at h ⊢
      obtain ⟨delay, answer, source⟩ := x
      cases delay with
      | none =>
        obtain ⟨rfl, rfl⟩ := Prod.mk.inj (Option.some.inj h)
        rfl
      | some ms => exact answerAfter_of_waited h
  | sleep d =>
    simp only [hq] at h ⊢
    exact answerAfter_of_waited h
  | list token =>
    simp only [hq] at h ⊢
    exact called_of_returned h
  | put record =>
    simp only [hq] at h ⊢
    exact called_of_returned h
  | flush =>
    simp only [hq] at h ⊢
    exact called_of_returned h

/-! ### The sends on the stage -/

/-- The sends in the books, once they take notice of what has ended, are the completions on the stage that
have not ended. Numbers are positions on the stage. -/
structure Manned (replay : Replay) (s : Stage) : Prop where
  staffed : Staffed s.agenda.ready s.state
  nextId : (told replay s.state.endings).dispatch.nextId = s.state.completions.size
  open_of_outstanding : ∀ send ∈ (told replay s.state.endings).dispatch.outstanding,
    send.id < s.state.completions.size ∧ endedOf s.state send.id = none

namespace Manned

variable {replay : Replay} {s s' : Stage}

/-- No completion begins or ends. -/
theorem disturbed (h : Manned replay s) (hs : Staffed s'.agenda.ready s'.state)
    (hsize : s'.state.completions.size = s.state.completions.size)
    (hended : ∀ id, endedOf s'.state id = endedOf s.state id) (he : s'.state.endings = s.state.endings) :
    Manned replay s' where
  staffed := hs
  nextId := by
    rw [he, hsize]
    exact h.nextId
  open_of_outstanding := by
    intro send hmem
    rw [he] at hmem
    rw [hsize, hended]
    exact h.open_of_outstanding send hmem

/-- A completion ends, and the books are to hear of it. -/
theorem ended (h : Manned replay s) (hs : Staffed s'.agenda.ready s'.state) {e : Ending}
    (he : Stage.Ends s s' e) : Manned replay s' := by
  cases e with
  | aborted id =>
    -- nobody aborts the completions of a replay
    have haborted : endedOf s'.state id = some true := by
      rw [he.ended]
      exact if_pos rfl
    rw [endedOf] at haborted
    split at haborted
    · rename_i aborted hc
      rw [hs.unaborted hc] at haborted
      exact absurd haborted (by simp)
    · exact absurd haborted (by simp)
  | completed id outcome =>
    have htold : (told replay s'.state.endings).dispatch =
        ((told replay s.state.endings).dispatch.complete id outcome
          (told replay s.state.endings).tracker (told replay s.state.endings).instruments).1 := by
      rw [he.endings, told_cons]
      exact Replay.dispatch_complete _ id outcome
    refine ⟨hs, ?_, fun send hmem ↦ ?_⟩
    · rw [htold, Dispatch.complete_nextId, he.size]
      exact h.nextId
    · rw [htold, Dispatch.complete_outstanding, List.mem_filter] at hmem
      have hopen := h.open_of_outstanding send hmem.1
      have hne : send.id ≠ (Ending.completed id outcome).id := of_decide_eq_true hmem.2
      rw [he.size, he.ended, if_neg hne]
      exact hopen

/-- The sends stay manned while the lead waits. -/
theorem lasting (replay : Replay) : Stage.Lasting (Manned replay) where
  task {s task agenda} hpop h := by
    have hs := Stage.staffed_lasting.task hpop h.staffed
    rcases Stage.perform_cases task { s with agenda } with hq | ⟨e, he⟩
    · exact h.disturbed hs hq.size hq.ended hq.endings
    · exact h.ended hs ⟨he.lt_size, he.open_before, he.size, he.outstanding, he.ended, he.endings, he.calls⟩
  clock now hready h := h.disturbed (Stage.staffed_lasting.clock now hready h.staffed) rfl (fun _ ↦ rfl) rfl
  script _ h := h.disturbed (h.staffed.disturbed rfl rfl fun _ hmem ↦ hmem) rfl (fun _ ↦ rfl) rfl
  flush h := h.disturbed (h.staffed.disturbed rfl rfl fun _ hmem ↦ hmem) rfl (fun _ ↦ rfl) rfl

theorem record (h : Manned replay s) (c : Call) : Manned replay (s.record c) :=
  h.disturbed (h.staffed.disturbed rfl rfl fun _ hmem ↦ hmem) rfl (fun _ ↦ rfl) rfl

theorem onStream (h : Manned replay s) (f : InMemory → InMemory) : Manned replay (s.onStream f) :=
  h.disturbed (h.staffed.disturbed rfl rfl fun _ hmem ↦ hmem) rfl (fun _ ↦ rfl) rfl

theorem listOwn (h : Manned replay s) (token : Option String) : Manned replay (s.listOwn token).2 := by
  obtain ⟨crashed, hown⟩ := s.listOwn_snd token
  rw [hown]
  exact h.disturbed (h.staffed.disturbed rfl rfl fun _ hmem ↦ hmem) rfl (fun _ ↦ rfl) rfl

theorem waitOpen (h : Manned replay s) (due limit : Instant) : Manned replay (waitOpen s due limit).2 :=
  (lasting replay).toLasting.waitFor _ _ h

/-- The books take notice of what has ended. -/
theorem absorb (h : Manned r.replay s) : Manned (r.absorb s).replay (r.absorb s).stage :=
  ⟨h.staffed.disturbed rfl rfl fun _ hmem ↦ hmem, h.nextId, h.open_of_outstanding⟩

/-- Everything that has ended has been seen. -/
theorem of_seen (hs : Staffed s.agenda.ready s.state) (hseen : s.state.endings = [])
    (hnext : replay.dispatch.nextId = s.state.completions.size)
    (hopen : ∀ send ∈ replay.dispatch.outstanding,
      send.id < s.state.completions.size ∧ endedOf s.state send.id = none) : Manned replay s := by
  refine ⟨hs, ?_, ?_⟩
  · rw [hseen]
    exact hnext
  · rw [hseen]
    exact hopen

/-- An answer sends at most one event, and its completion begins on the stage. -/
theorem answer (h : Manned r.replay r.stage) (hseen : r.stage.state.endings = []) (a : ReplayAnswer) :
    Manned (r.answer a).replay (r.answer a).stage := by
  obtain ⟨hs, hnext, hopen⟩ := h
  rw [hseen] at hnext hopen
  have hflight := (r.replay.move_step (r.happening a)).flight
  rw [Replaying.answer, ← happening]
  generalize r.replay.step (r.happening a) = x at hflight ⊢
  obtain ⟨replay, sent⟩ := x
  rcases hflight with ⟨id, o, he, -⟩ | ⟨hnone, hd, -⟩ | ⟨e, i, hsent, hd, -⟩
  · exact absurd he (by simp [happening])
  · dsimp only at hnone hd
    subst hnone
    refine of_seen hs hseen ?_ ?_
    · rw [hd]
      exact hnext
    · rw [hd]
      exact hopen
  · dsimp only at hsent hd
    subst hsent
    have hbegins := r.stage.dispatch_begins (Record.ofEvent e)
    refine of_seen (hs.dispatch _) (hbegins.endings.trans hseen) ?_ ?_
    · rw [hd, hbegins.size, ← hnext]
      rfl
    · intro send hmem
      rw [hd] at hmem
      rw [hbegins.size, hbegins.ended]
      rcases List.mem_append.1 hmem with hmem | hmem
      · exact (hopen send hmem).imp_left Nat.lt_succ_of_lt
      · -- the new completion has the number of the send
        rw [List.mem_singleton.1 hmem]
        have hid : r.replay.dispatch.nextId = r.stage.state.completions.size := hnext
        dsimp only
        rw [hid, endedOf, Array.getElem?_eq_none (Nat.le_refl _)]
        exact ⟨Nat.lt_succ_self _, rfl⟩

/-- The answer after a wait. -/
theorem answered (h : Manned r.replay s) (a : ReplayAnswer) :
    Manned ((r.absorb s).answer a).replay ((r.absorb s).answer a).stage :=
  h.absorb.answer rfl a

/-- A wait with an answer keeps the sends manned. -/
theorem answerAfter (h : Manned r.replay r.stage) (due limit : Instant) (a : ReplayAnswer) :
    Manned (r.answerAfter due limit a).2.replay (r.answerAfter due limit a).2.stage := by
  have hwait := h.waitOpen due limit
  rw [Replaying.answerAfter]
  generalize Replaying.waitOpen r.stage due limit = x at hwait ⊢
  obtain ⟨came, s⟩ := x
  cases came with
  | false => exact hwait.absorb
  | true => exact hwait.answered a

/-- A call with its answer keeps the sends manned. -/
theorem called {α : Type} {wrap : α → ReplayAnswer} {x : Option α × Stage} (h : Manned r.replay x.2) :
    Manned (r.called wrap x).2.replay (r.called wrap x).2.stage := by
  obtain ⟨answer, s⟩ := x
  cases answer with
  | none => exact h.absorb
  | some b => exact h.answered (wrap b)

/-- Serving a request keeps the sends manned. -/
theorem serve (h : Manned r.replay r.stage) (hseen : r.stage.state.endings = []) (limit : Instant) :
    Manned (r.serve limit).2.replay (r.serve limit).2.stage := by
  have hl := lasting r.replay
  rw [Replaying.serve]
  split
  · exact h
  · rw [Replaying.pull]
    split
    · exact h.answer hseen _
    · generalize r.source.pull = x
      obtain ⟨delay, answer, source⟩ := x
      cases delay with
      | none => exact Manned.answer (r := { r with source }) h hseen _
      | some ms => exact Manned.answerAfter (r := { r with source }) h _ _ _
  · exact h.answerAfter _ _ _
  · exact called (hl.list (fun h ↦ h.record _) (fun h ↦ (h.record _).listOwn _) limit h)
  · exact called (hl.put (fun h ↦ h.record _) (fun h ↦ (h.record _).onStream _) limit h)
  · exact called (hl.flushed limit h)
  · exact absorb (hl.waitFor _ limit h)

/-- Once all completions have ended, no send is outstanding in the books. -/
theorem outstanding_of_allEnded (h : Manned replay s) (hended : s.AllEnded) :
    (told replay s.state.endings).dispatch.outstanding = [] := by
  rw [List.eq_nil_iff_forall_not_mem]
  intro send hmem
  obtain ⟨hlt, hnone⟩ := h.open_of_outstanding send hmem
  exact absurd (hended send.id hlt) (by simp [hnone])

end Manned

/-! ### What is reached -/

theorem Reaches.played (h : Reaches limit r₀ r) (hseen : r₀.stage.state.endings = []) :
    ∃ hs, r₀.Played hs r ∧ r₀.Sourced hs r := by
  induction h with
  | refl => exact ⟨[], played_nil hseen⟩
  | serve _ hgoes ih =>
    obtain ⟨hs, hp, hsrc⟩ := ih
    obtain ⟨hs', hp', hsrc'⟩ := hp.serve hsrc limit
    exact ⟨hs', hp', hsrc' hgoes⟩

/-- The sends are manned wherever the replay comes. -/
theorem Reaches.manned (h : Reaches limit r₀ r) (hseen : r₀.stage.state.endings = [])
    (hm : Manned r₀.replay r₀.stage) : Manned r.replay r.stage := by
  induction h with
  | refl => exact hm
  | serve hr _ ih =>
    obtain ⟨hs, hp, -⟩ := hr.played hseen
    exact ih.serve hp.seen limit

/-- On a stage where nothing was sent yet, a replay that has not begun is manned. -/
theorem manned_start (c : ReplayConfig) (i : Instruments) {stage : Stage} (hf : stage.state.Fresh) :
    Manned (Replay.start c {} i) stage := by
  refine .of_seen (.of_fresh hf _) hf.endings ?_ ?_
  · rw [hf.completions]
    rfl
  · simp [Replay.start]

/-! ### Cycles -/

/-- A cycle that begins right after a sleep is computed for the event that was slept before. -/
theorem opened_of_sleeping {pending : Event} {d : Span} (hst : r.replay.stage = .sleeping pending d)
    {w : Timestamp} (hw : r.opened? limit = some w) :
    ∃ s, waitOpen r.stage (r.stage.agenda.wakeTime d) limit = (true, s) ∧ s.state.cancelled = false ∧
      w = Emitter.compute (told r.replay s.state.endings).tracker pending.timestamp := by
  have hq : r.replay.request = .sleep d := by rw [Replay.request, hst]
  rw [opened?, answered?, hq] at hw
  dsimp only at hw
  rw [waited] at hw
  generalize waitOpen r.stage (r.stage.agenda.wakeTime d) limit = x at hw ⊢
  obtain ⟨came, s⟩ := x
  cases came with
  | false => exact absurd hw (by simp)
  | true =>
    obtain ⟨now, e, hc, he⟩ := Replay.opened?_cases hw
    have hstage : (told r.replay s.state.endings).stage = .sleeping pending d := by
      rw [stage_told (by simp [hst]), hst]
    rcases Replay.checked?_cases hc with ⟨hp, -⟩ | ⟨d', hs', hh⟩
    · exact absurd (hstage.symm.trans hp) (by simp)
    · obtain ⟨rfl, -⟩ := ReplayStage.sleeping.inj (hstage.symm.trans hs')
      exact ⟨s, rfl, (Happening.answered.inj hh).2.1, he⟩

/-- A wait for a moment that has come does nothing. -/
theorem waitOpen_of_le {s : Stage} {due : Instant} (h : due ≤ s.now) (limit : Instant) :
    waitOpen s due limit = (true, s) := by
  rw [waitOpen, World.waitFor, if_pos]
  simp [h]

theorem waited_of_le {due : Instant} (h : due ≤ r.stage.now) (limit : Instant) (a : ReplayAnswer) :
    r.waited due limit a = some (r.absorb r.stage, a) := by
  rw [waited, waitOpen_of_le h]

/-- A pull that does not suspend is answered with the books as they are. -/
theorem replay_of_answered (hq : r.replay.request = .pull) (hseen : r.stage.state.endings = [])
    (hs : ¬ r.Suspends) (h : r.answered? limit = some (q, a)) : q.replay = r.replay := by
  rw [answered?, hq] at h
  dsimp only at h
  split at h
  · rw [← (Prod.mk.inj (Option.some.inj h)).1]
  · rw [Suspends] at hs
    generalize r.source.pull = x at h hs
    obtain ⟨delay, answer, source⟩ := x
    cases delay with
    | none => rw [← (Prod.mk.inj (Option.some.inj h)).1]
    | some ms =>
      have hdue : r.stage.agenda.wakeTime (Span.ofMillis ms) ≤ r.stage.now :=
        Instant.not_lt.1 fun hlt ↦ hs ⟨ms, rfl, hlt⟩
      have hwaited := (waited_of_le (r := { r with source }) hdue limit (.pulled answer)).symm.trans h
      rw [← (Prod.mk.inj (Option.some.inj hwaited)).1]
      show told r.replay r.stage.state.endings = r.replay
      rw [hseen]
      rfl

section Start

variable {c : ReplayConfig} {i : Instruments} {source : EventSource} {stage : Stage}

/-- If all handles are resolved at a moment before the end of a sleep, the cycle that begins when the sleep
ends is computed for the pending event alone. -/
theorem catches_up (hf : stage.state.Fresh)
    (hr : Reaches limit { stage, source, replay := Replay.start c {} i } r) {pending : Event} {d : Span}
    (hst : r.replay.stage = .sleeping pending d) {s : Stage} (hs : s ∈ r.sleepTrail d limit)
    (hlt : s.now < r.stage.agenda.wakeTime d) (hresolved : s.Resolved) {w : Timestamp}
    (hw : r.opened? limit = some w) : w = pending.timestamp.pred := by
  obtain ⟨s', hwait, hcancelled, rfl⟩ := opened_of_sleeping hst hw
  have hm := hr.manned hf.endings (manned_start c i hf)
  -- the sleep came to its end
  have hdue : r.stage.agenda.wakeTime d ≤ s'.now := by
    have hholds := World.holds_of_waitFor (congrArg Prod.fst hwait)
    rw [← waitOpen, hwait] at hholds
    simpa [hcancelled] using hholds
  have hended : s'.AllEnded := by
    have hend : s' = (World.waitFor Stage.perform _ _ r.stage).2 := (congrArg Prod.snd hwait).symm
    rw [hend] at hdue ⊢
    exact Stage.allEnded_of_trail hm.staffed hs hresolved hlt hdue
  have hnone : (told r.replay s'.state.endings).dispatch.outstanding = [] := by
    have hm' := hm.waitOpen (r.stage.agenda.wakeTime d) limit
    rw [hwait] at hm'
    exact hm'.outstanding_of_allEnded hended
  obtain ⟨hs₀, hp, -⟩ := hr.played hf.endings
  obtain ⟨hs', hreplay, -⟩ := hp.leads.waitOpen (r.stage.agenda.wakeTime d) limit
  rw [hwait] at hreplay
  dsimp only at hreplay
  rw [hreplay] at hnone ⊢
  rw [(Replay.covered_after .empty hs').eq_empty hnone]
  rfl

/-- A cycle that begins after a send, without the loop being suspended in between, is computed while the event
sent is tracked. -/
theorem held_back (hf : stage.state.Fresh)
    (hr : Reaches limit { stage, source, replay := Replay.start c {} i } r) {send : Send}
    (hsent : r.sent? limit = some send) (hs : ¬ (r.serve limit).2.Suspends) {w : Timestamp}
    (hw : (r.serve limit).2.opened? limit = some w) : w ≤ send.event.timestamp.pred := by
  rw [sent?, Option.bind_eq_some_iff] at hsent
  obtain ⟨⟨q, a⟩, ha, hsent⟩ := hsent
  have hserve := serve_of_answered ha
  have hgoes : (r.serve limit).1 = true := by rw [hserve]
  obtain ⟨hs₀, hp, -⟩ := (hr.serve hgoes).played hf.endings
  rw [hserve] at hp hs hw
  -- the send leaves its event in the tracker
  obtain ⟨hpulling, htracker⟩ := (q.replay.move_step (q.happening a)).pulling_of_sent hsent
  have hreplay : (q.answer a).replay = (q.replay.step (q.happening a)).1 := rfl
  rw [← hreplay] at hpulling htracker
  have hmem : send.event.key ∈ (q.answer a).replay.tracker.keys := by
    rw [htracker]
    exact Tracker.mem_add.2 (Or.inl rfl)
  have hsorted : (q.answer a).replay.tracker.Sorted := by
    rw [hp.replay]
    exact Replay.sorted_after Tracker.sorted_empty hs₀
  -- and the cycle is computed from it
  rw [opened?, Option.bind_eq_some_iff] at hw
  obtain ⟨⟨q', a'⟩, ha', hw⟩ := hw
  have hq : (q.answer a).replay.request = .pull := by rw [Replay.request, hpulling]
  dsimp only at hw
  rw [replay_of_answered hq hp.seen hs ha'] at hw
  obtain ⟨now, e, -, rfl⟩ := Replay.opened?_cases hw
  exact Emitter.compute_le_of_mem hsorted hmem _

end Start

/-- Watermarks catch up while the loop sleeps before a distant event, and do not run ahead of an event that was
just sent. Let every handle be resolved, be it with an acknowledgement or a fault, at a moment before a sleep
of the loop ends: the watermark of the cycle that begins when the sleep ends is one millisecond before the
pending event. Let a cycle begin when an event was sent and the loop has not suspended since: its watermark is
at least one millisecond before that event, however early the handle was resolved. -/
theorem watermarks_catch_up_in_stalls (c : ReplayConfig) (i : Instruments) (source : EventSource)
    {stage : Stage} (hf : stage.state.Fresh) (limit : Instant) :
    let r₀ : Replaying := { stage, source, replay := Replay.start c {} i }
    (∀ r pending d w, Reaches limit r₀ r → r.replay.stage = .sleeping pending d →
      (∃ s ∈ r.sleepTrail d limit, s.now < r.stage.agenda.wakeTime d ∧ s.Resolved) →
      r.opened? limit = some w → w = pending.timestamp.pred) ∧
    ∀ r send w, Reaches limit r₀ r → r.sent? limit = some send → ¬ (r.serve limit).2.Suspends →
      (r.serve limit).2.opened? limit = some w → w ≤ send.event.timestamp.pred := by
  intro r₀
  constructor
  · intro r pending d w hr hst hearly hw
    obtain ⟨s, hs, hlt, hresolved⟩ := hearly
    exact catches_up hf hr hst hs hlt hresolved hw
  · intro r send w hr hsent hs hw
    exact held_back hf hr hsent hs hw

/-- Two events, the first of which is held by the stream until it is released with a fault, four milliseconds
later. Cycles are due after every event and after five milliseconds. -/
def stalled : Replaying :=
  { stage := (Stage.ofStream ((InMemory.create 1).withAckPolicy .manual) {}).schedule
      (Instant.start.after (Span.ofMillis 4)) (.stream (.release 0 false))
    source := .listed (Replay.threeEvents.take 2)
    replay := Replay.start { watermark := { interval := Span.ofMillis 5, eventCount := 1 } } {} {} }

/-- The replay after so many requests. -/
def stalledAfter : Nat → Replaying
  | 0 => stalled
  | n + 1 => ((stalledAfter n).serve stalled.stage.deadline).2

/-- The cycle right after the first event lies before it. The one after the sleep lies right before the second
event, since the first one was released with a fault while the loop slept. -/
theorem watermarks_catch_up_in_stalls_released :
    let limit := stalled.stage.deadline
    let w : Timestamp := ⟨999, by decide, by decide⟩
    let w' : Timestamp := ⟨1999, by decide, by decide⟩
    stalled.stage.state.Fresh ∧ Reaches limit stalled (stalledAfter 4) ∧
      (∃ e d, (stalledAfter 4).replay.stage = .sleeping e d ∧
        (∃ s ∈ (stalledAfter 4).sleepTrail d limit,
          s.now < (stalledAfter 4).stage.agenda.wakeTime d ∧ s.Resolved) ∧
        (stalledAfter 4).opened? limit = some w' ∧ w' = e.timestamp.pred) ∧
      ∃ send, (stalledAfter 0).sent? limit = some send ∧ ¬ (stalledAfter 1).Suspends ∧
        (stalledAfter 1).opened? limit = some w ∧ w ≤ send.event.timestamp.pred := by
  intro limit w w'
  have hrun : (∀ n < 4, ((stalledAfter n).serve limit).1 = true) ∧
      ((stalledAfter 0).sent? limit).isSome ∧ (stalledAfter 1).source.pull.1 = none ∧
      (stalledAfter 1).opened? limit = some w ∧ (stalledAfter 4).opened? limit = some w' ∧
      (stalledAfter 4).replay.request = .sleep (Span.ofMillis 10) ∧
      ∃ s ∈ (stalledAfter 4).sleepTrail (Span.ofMillis 10) limit,
        s.now < (stalledAfter 4).stage.agenda.wakeTime (Span.ofMillis 10) ∧ s.Resolved := by
    decide +kernel
  obtain ⟨hgoes, hsent, hpull, hopened, hopened', hsleep, hearly⟩ := hrun
  have hfresh : stalled.stage.state.Fresh := ⟨rfl, rfl, rfl⟩
  have hreach : ∀ n ≤ 4, Reaches limit stalled (stalledAfter n) := by
    intro n hn
    induction n with
    | zero => exact .refl
    | succ n ih => exact (ih (by omega)).serve (hgoes n (by omega))
  have hs : ¬ (stalledAfter 1).Suspends := by
    rintro ⟨ms, hms, -⟩
    exact absurd (hpull.symm.trans hms) (by simp)
  obtain ⟨hcaught, hheld⟩ := watermarks_catch_up_in_stalls
    { watermark := { interval := Span.ofMillis 5, eventCount := 1 } } {} _ hfresh limit
  obtain ⟨e, he⟩ := Replay.sleeping_of_request hsleep
  obtain ⟨send, hsend⟩ := Option.isSome_iff_exists.1 hsent
  refine ⟨hfresh, hreach 4 (by decide), ⟨e, _, he, hearly, hopened', ?_⟩, send, hsend, hs, hopened, ?_⟩
  · exact hcaught _ e _ w' (hreach 4 (by decide)) he hearly hopened'
  · exact hheld _ send w (hreach 0 (by decide)) hsend hs hopened

end Tidemark.Rehearsal.Replaying
