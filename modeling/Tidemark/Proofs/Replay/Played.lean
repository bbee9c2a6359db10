import Tidemark.Proofs.InFlight.Endings
import Tidemark.Proofs.Rehearsal.Waiting
import Tidemark.Proofs.Replay.Hosted
import Tidemark.Rehearsal.Replaying

/-!
# Replays that are played

A replay that is played on a stage goes through one of the runs of `Replay.run`: its requests are answered
by the source and by the stream, and the completions that end while it waits are the happenings in
between (`played_run`). The source feeds that run, and the stream hosts it. So what holds of every run
that is fed by its source holds of what is played; for one, the watermarks in the log do not decrease
(`played_watermarks`).

An event that the source gives up in a pull which the cancellation cuts short is taken from the source and
not yielded. It is the last one, since the replay does not pull again.
-/

namespace Tidemark.Rehearsal

/-! ### The log while tasks run -/

namespace Stage

/-- Tasks do not write. -/
theorem log_perform (s : Stage) (task : StageTask) :
    (s.perform task).state.stream.log = s.state.stream.log := by
  have hlog : Steadfast fun u ↦ u.state.stream.log = s.state.stream.log :=
    { untouched := fun h hu ↦ hu.log.trans h
      resolve := fun handle outcome h ↦ (congrArg InMemory.log (apart_resolve _ handle outcome).stream).trans h }
  cases task with
  | complete id => exact congrArg InMemory.log (s.apart_runCompletion id).stream
  | _ => exact hlog.perform nofun rfl

/-- A submission is what the stream makes of it. -/
theorem stream_submitOwn (s : Stage) (record : Record) :
    (s.submitOwn record).2.state.stream =
      (s.state.stream.submit s.state.handles.size record).2 := by
  rw [submitOwn]
  generalize s.state.stream.submit s.state.handles.size record = x
  obtain ⟨submission, m⟩ := x
  cases submission <;> rfl

/-- A submission reaches the stream, or is refused before it. -/
theorem stream_dispatch (s : Stage) (record : Record) :
    (s.dispatch record).state.stream = s.state.stream ∨
      ∃ handle, (s.dispatch record).state.stream = (s.state.stream.submit handle record).2 := by
  show (s.submit record).2.state.stream = _ ∨ ∃ handle, (s.submit record).2.state.stream = _
  rw [submit]
  dsimp only
  split
  · exact Or.inr ⟨_, stream_submitOwn _ record⟩
  · rename_i first rest _
    cases first with
    | own => exact Or.inr ⟨_, stream_submitOwn _ record⟩
    | _ => exact Or.inl rfl

end Stage

/-! ### What a source answers -/

namespace EventSource

/-- The answers of a source to its pulls. -/
def feed : EventSource → Feed
  | s, 0 => s.pull.2.1
  | s, n + 1 => s.pull.2.2.feed n

end EventSource

namespace Replaying

/-! ### Completions that end in a wait -/

/-- The replay after it took notice of endings, the newest first. -/
def told (r : Replay) (endings : List Ending) : Replay :=
  endings.reverse.foldl absorbOne r

theorem told_cons (r : Replay) (e : Ending) (older : List Ending) :
    told r (e :: older) = absorbOne (told r older) e := by
  rw [told, List.reverse_cons, List.foldl_append]
  rfl

theorem stage_told {r : Replay} (hr : ∀ ending, r.stage ≠ .settling ending) (endings : List Ending) :
    (told r endings).stage = r.stage := by
  induction endings with
  | nil => rfl
  | cons e older ih =>
    rw [told_cons]
    cases e with
    | aborted id => exact ih
    | completed id outcome =>
      have hr' : ∀ ending, (told r older).stage ≠ .settling ending := by
        rw [ih]
        exact hr
      exact (Replay.stage_complete hr' id outcome).trans ih

/-- The loop does not begin again. -/
theorem isLooping_of_told {r : Replay} {endings : List Ending} (hl : (told r endings).IsLooping) :
    r.IsLooping := by
  induction endings with
  | nil => exact hl
  | cons e older ih =>
    rw [told_cons] at hl
    cases e with
    | aborted id => exact ih hl
    | completed id outcome => exact ih (Replay.isLooping_of_step hl)

/-- Some happenings lead to where the replay stands once it takes notice of a stage, and the source does
not answer on the way. -/
def Leads (r₀ : Replaying) (before : List Happening) (replay : Replay) (s : Stage) : Prop :=
  ∃ hs, told replay s.state.endings = r₀.replay.after hs ∧
    r₀.replay.Hosts r₀.stage.state.stream hs s.state.stream ∧
    r₀.replay.yields hs = r₀.replay.yields before

namespace Leads

variable {r₀ : Replaying} {before : List Happening} {replay : Replay} {s s' : Stage}

/-- What leaves the endings and the log alone. -/
theorem disturbed (h : r₀.Leads before replay s) (he : s'.state.endings = s.state.endings)
    (hlog : s'.state.stream.log = s.state.stream.log) : r₀.Leads before replay s' := by
  obtain ⟨hs, hreplay, hhosts, hyields⟩ := h
  refine ⟨hs, ?_, hhosts.disturbed hlog, hyields⟩
  rw [he]
  exact hreplay

theorem perform (h : r₀.Leads before replay s) (task : StageTask) :
    r₀.Leads before replay (s.perform task) := by
  have hlog := s.log_perform task
  rcases Stage.perform_cases task s with hq | ⟨e, he⟩
  · exact h.disturbed hq.endings hlog
  · obtain ⟨hs, hreplay, hhosts, hyields⟩ := h
    cases e with
    | aborted id =>
      refine ⟨hs, ?_, hhosts.disturbed hlog, hyields⟩
      rw [he.endings, told_cons, hreplay]
      rfl
    | completed id outcome =>
      refine ⟨hs ++ [.completed id outcome], ?_, (hhosts.passed _).disturbed hlog, ?_⟩
      · rw [he.endings, told_cons, hreplay, Replay.after_concat]
        rfl
      · rw [Replay.yields_concat, hyields]
        exact List.append_nil _

theorem record (h : r₀.Leads before replay s) (c : Call) : r₀.Leads before replay (s.record c) :=
  h.disturbed rfl rfl

/-- Waits and flushes are a few completions. -/
theorem kept (r₀ : Replaying) (before : List Happening) (replay : Replay) :
    Stage.Kept (r₀.Leads before replay) where
  perform task h := h.perform task
  agenda _ h := h.disturbed rfl rfl
  script _ h := h.disturbed rfl rfl
  flush h := h.record .flush

theorem waitOpen (h : r₀.Leads before replay s) (due limit : Instant) :
    r₀.Leads before replay (waitOpen s due limit).2 := by
  rw [Replaying.waitOpen]
  exact (kept r₀ before replay).lasting.toLasting.waitFor _ _ h

/-- A listing leads on, for it leaves the log alone. -/
theorem list (h : r₀.Leads before replay s) (token : Option String) (limit : Instant) :
    r₀.Leads before replay (s.list token limit).2 := by
  refine (kept r₀ before replay).lasting.list (fun h ↦ h.record _) (fun {s} h ↦ ?_) limit h
  obtain ⟨crashed, hown⟩ := (s.record (.list token)).listOwn_snd token
  rw [hown]
  exact (h.record (.list token)).disturbed rfl (s.state.stream.log_list token)

/-- What the replay asks for does not change while completions end. -/
theorem put (h : r₀.Leads before replay s) {record : Record} (hq : replay.request = .put record)
    (limit : Instant) : r₀.Leads before replay (s.put record limit).2 := by
  refine (kept r₀ before replay).lasting.put (fun h ↦ h.record _) (fun {s} h ↦ ?_) limit h
  obtain ⟨hs, hreplay, hhosts, hyields⟩ := h
  -- the run has noticed the endings that the replay has yet to see, and both stand in one stage
  have hstage : (told replay s.state.endings).stage = replay.stage := by
    obtain ⟨cycle, e, checkedAt, lower, hst, -⟩ := Replay.emitting_of_request hq
    exact stage_told (by simp [hst]) _
  have hput : (r₀.replay.after hs).request = .put record := by
    rw [← hreplay, ← hq, Replay.request, Replay.request, hstage]
  exact ⟨hs, hreplay, hhosts.put hput, hyields⟩

end Leads

/-! ### Answers -/

/-- A replay that was played stands where a run has led. The source feeds the run, and the stream hosts
it. -/
structure Played (r₀ : Replaying) (hs : List Happening) (r : Replaying) : Prop where
  replay : r.replay = r₀.replay.after hs
  hosts : r₀.replay.Hosts r₀.stage.state.stream hs r.stage.state.stream
  fed : r₀.replay.FedBy r₀.source.feed hs
  seen : r.stage.state.endings = []

/-- As long as the loop goes on, the source has yielded all that was taken from it. -/
def Sourced (r₀ : Replaying) (hs : List Happening) (r : Replaying) : Prop :=
  r.replay.IsLooping →
    ∀ n, r.source.feed n = r₀.source.feed ((r₀.replay.yields hs).length + n)

variable {r₀ r r' : Replaying} {hs hs' : List Happening}

theorem Sourced.mono (h : r₀.Sourced hs r) (hsource : r'.source = r.source)
    (hl : r'.replay.IsLooping → r.replay.IsLooping)
    (hy : r₀.replay.yields hs' = r₀.replay.yields hs) : r₀.Sourced hs' r' := by
  intro hl' n
  rw [hsource, hy]
  exact h (hl hl') n

/-- A run leads to where the replay stands that was played. -/
theorem Played.leads (h : r₀.Played hs r) : r₀.Leads hs r.replay r.stage := by
  refine ⟨hs, ?_, h.hosts, rfl⟩
  rw [h.seen]
  exact h.replay

/-- When a wait is over the replay takes notice of what has ended. -/
theorem Leads.absorb {s : Stage} (h : r₀.Leads hs r.replay s)
    (hf : r₀.replay.FedBy r₀.source.feed hs) :
    ∃ hs', r₀.Played hs' (r.absorb s) ∧ r₀.replay.yields hs' = r₀.replay.yields hs := by
  obtain ⟨hs', hreplay, hhosts, hyields⟩ := h
  refine ⟨hs', ⟨hreplay, hhosts, ?_, rfl⟩, hyields⟩
  intro n y hy
  rw [hyields] at hy
  exact hf n y hy

/-- The happening that an answer makes. -/
def happening (r : Replaying) (a : ReplayAnswer) : Happening :=
  .answered r.stage.now r.stage.state.cancelled a

/-- An answer is one more happening of the run. -/
theorem Played.answer (h : r₀.Played hs r) {a : ReplayAnswer}
    (hf : r₀.replay.FedBy r₀.source.feed (hs ++ [r.happening a])) :
    r₀.Played (hs ++ [r.happening a]) (r.answer a) := by
  obtain ⟨replay, sent, hx⟩ : ∃ replay sent, r.replay.step (r.happening a) = (replay, sent) :=
    ⟨_, _, rfl⟩
  have hx' := hx
  rw [happening] at hx'
  have hstep : (r₀.replay.after hs).step (r.happening a) = (replay, sent) := by
    rw [← h.replay, hx]
  have hreplay : replay = r₀.replay.after (hs ++ [r.happening a]) := by
    rw [Replay.after_concat, hstep]
  rw [Replaying.answer, hx']
  cases sent with
  | none => exact ⟨hreplay, h.hosts.passed _, hf, h.seen⟩
  | some send =>
    refine ⟨hreplay, ?_, hf, (r.stage.dispatch_begins _).endings.trans h.seen⟩
    show r₀.replay.Hosts _ _ (r.stage.dispatch (Record.ofEvent send.event)).state.stream
    -- the stream takes the record or rejects it, and either way the run goes on
    rcases r.stage.stream_dispatch (Record.ofEvent send.event) with he | ⟨handle, he⟩
    · rw [he]
      exact h.hosts.passed _
    · rw [he]
      exact h.hosts.submitted handle (by rw [hstep])

/-- The answer to any other request than a pull. -/
theorem Leads.answered {s : Stage} (hl : r₀.Leads hs r.replay s) (h : r₀.Played hs r)
    (hsrc : r₀.Sourced hs r) {a : ReplayAnswer} (ha : ∀ p, a ≠ .pulled p) :
    ∃ hs', r₀.Played hs' ((r.absorb s).answer a) ∧ r₀.Sourced hs' ((r.absorb s).answer a) := by
  obtain ⟨hs', hp, hy⟩ := hl.absorb h.fed
  have hnone : (r₀.replay.after hs').yield? ((r.absorb s).happening a) = none := by
    refine Option.eq_none_iff_forall_ne_some.2 fun y hy ↦ ?_
    obtain ⟨now, p⟩ := y
    obtain ⟨-, he⟩ := Replay.yield?_cases hy
    exact ha p (Happening.answered.inj he).2.2
  refine ⟨_, hp.answer (hp.fed.concat (by simp [hnone])), hsrc.mono rfl ?_ ?_⟩
  · intro hloop
    have habsorbed : (r.absorb s).replay.IsLooping :=
      Replay.isLooping_of_step (h := (r.absorb s).happening a) hloop
    exact isLooping_of_told habsorbed
  · rw [Replay.yields_concat, hnone, hy]
    exact List.append_nil _

/-- The answer to a pull: the source yields it, unless the replay was cancelled before. -/
theorem Played.pulled (h : r₀.Played hs r) (hr : r.replay.IsPulling)
    {a : Except Fault (Option Event)}
    (ha : r.stage.state.cancelled = false → a = r₀.source.feed (r₀.replay.yields hs).length ∧
      ∀ n, r.source.feed n = r₀.source.feed ((r₀.replay.yields hs).length + 1 + n)) :
    ∃ hs', r₀.Played hs' (r.answer (.pulled a)) ∧ r₀.Sourced hs' (r.answer (.pulled a)) := by
  refine ⟨hs ++ [r.happening (.pulled a)], ?_⟩
  cases hc : r.stage.state.cancelled with
  | true =>
    -- the cancellation ends the loop, whatever the source has yielded
    have hcut : r.happening (.pulled a) = .answered r.stage.now true (.pulled a) := by
      rw [happening, hc]
    refine ⟨h.answer (h.fed.concat (by simp [hcut, Replay.yield?])), fun hl ↦ absurd hl ?_⟩
    show ¬ (r.replay.step (r.happening (.pulled a))).1.IsLooping
    rw [hcut]
    exact Replay.not_isLooping_of_cut hr _ a
  | false =>
    obtain ⟨ha, hrest⟩ := ha hc
    have hyield : (r₀.replay.after hs).yield? (r.happening (.pulled a)) = some (r.stage.now, a) := by
      rw [happening, hc, ← h.replay]
      rcases hr with hs | hs <;> simp [Replay.yield?, hs]
    refine ⟨h.answer (h.fed.concat ?_), ?_⟩
    · intro y hy
      rw [← Option.some.inj (hyield.symm.trans hy)]
      exact ha
    · intro _ n
      rw [Replay.yields_concat, hyield, List.length_append]
      exact hrest n

/-- What a pull or a sleep comes to: a wait, and the answer if it came in time. -/
theorem Played.answerAfter (h : r₀.Played hs r) (due limit : Instant) {a : ReplayAnswer}
    (ha : ∀ s, r₀.Leads hs r.replay s →
      ∃ hs', r₀.Played hs' ((r.absorb s).answer a) ∧ r₀.Sourced hs' ((r.absorb s).answer a)) :
    ∃ hs', r₀.Played hs' (r.answerAfter due limit a).2 ∧
      ((r.answerAfter due limit a).1 = true → r₀.Sourced hs' (r.answerAfter due limit a).2) := by
  have hwait := h.leads.waitOpen due limit
  rw [Replaying.answerAfter]
  generalize Replaying.waitOpen r.stage due limit = x at hwait ⊢
  obtain ⟨came, s⟩ := x
  cases came with
  | true =>
    obtain ⟨hs', hp, hsrc⟩ := ha s hwait
    exact ⟨hs', hp, fun _ ↦ hsrc⟩
  | false =>
    obtain ⟨hs', hp, -⟩ := hwait.absorb h.fed
    exact ⟨hs', hp, fun hc ↦ absurd hc (by simp)⟩

/-- A pull that comes in time is part of the run, and its event is taken from the source. -/
theorem Played.pull (h : r₀.Played hs r) (hsrc : r₀.Sourced hs r) (hr : r.replay.IsPulling)
    (limit : Instant) :
    ∃ hs', r₀.Played hs' (r.pull limit).2 ∧
      ((r.pull limit).1 = true → r₀.Sourced hs' (r.pull limit).2) := by
  have hfirst : ∀ n, r.source.feed n = r₀.source.feed ((r₀.replay.yields hs).length + n) :=
    hsrc hr.isLooping
  rw [Replaying.pull]
  split
  · rename_i hc
    -- cancelled before: the source is not asked
    obtain ⟨hs', hp, hsrc'⟩ := h.pulled hr (fun hc' ↦ absurd (hc.symm.trans hc') (by simp))
    exact ⟨hs', hp, fun _ ↦ hsrc'⟩
  · generalize hx : r.source.pull = x
    obtain ⟨delay, answer, source⟩ := x
    have ha : answer = r₀.source.feed (r₀.replay.yields hs).length := by
      rw [← Nat.add_zero (r₀.replay.yields hs).length, ← hfirst 0, EventSource.feed, hx]
    have hrest : ∀ n, source.feed n = r₀.source.feed ((r₀.replay.yields hs).length + 1 + n) := by
      intro n
      rw [Nat.add_assoc, Nat.add_comm 1 n, ← hfirst (n + 1), EventSource.feed, hx]
    have htaken : r₀.Played hs { r with source } := ⟨h.replay, h.hosts, h.fed, h.seen⟩
    cases delay with
    | none =>
      obtain ⟨hs', hp, hsrc'⟩ := htaken.pulled hr fun _ ↦ ⟨ha, hrest⟩
      exact ⟨hs', hp, fun _ ↦ hsrc'⟩
    | some ms =>
      refine htaken.answerAfter _ limit fun s hl ↦ ?_
      obtain ⟨hs', hp, hy⟩ := hl.absorb h.fed
      -- completions that end during the wait do not answer the pull
      have hstage : (told r.replay s.state.endings).stage = r.replay.stage := by
        refine stage_told ?_ _
        rcases hr with hs | hs <;> simp [hs]
      have hr' : (told r.replay s.state.endings).IsPulling := by
        rw [Replay.IsPulling, hstage]
        exact hr
      exact hp.pulled hr' fun _ ↦ ⟨hy ▸ ha, hy ▸ hrest⟩

/-- A call of the destination is part of the run when its answer comes in time. -/
theorem Played.called {α : Type} (h : r₀.Played hs r) (hsrc : r₀.Sourced hs r)
    {wrap : α → ReplayAnswer} (ha : ∀ a p, wrap a ≠ .pulled p) {x : Option α × Stage}
    (hl : r₀.Leads hs r.replay x.2) :
    ∃ hs', r₀.Played hs' (r.called wrap x).2 ∧
      ((r.called wrap x).1 = true → r₀.Sourced hs' (r.called wrap x).2) := by
  obtain ⟨answer, s⟩ := x
  cases answer with
  | some a =>
    obtain ⟨hs', hp, hsrc'⟩ := hl.answered h hsrc (ha a)
    exact ⟨hs', hp, fun _ ↦ hsrc'⟩
  | none =>
    obtain ⟨hs', hp, -⟩ := hl.absorb h.fed
    exact ⟨hs', hp, fun hc ↦ absurd hc (by simp [Replaying.called])⟩

/-! ### Playing -/

/-- Serving a request goes on with the run. -/
theorem Played.serve (h : r₀.Played hs r) (hsrc : r₀.Sourced hs r) (limit : Instant) :
    ∃ hs', r₀.Played hs' (r.serve limit).2 ∧
      ((r.serve limit).1 = true → r₀.Sourced hs' (r.serve limit).2) := by
  have hk := (Leads.kept r₀ hs r.replay).lasting
  rw [Replaying.serve]
  split
  · exact ⟨hs, h, fun _ ↦ hsrc⟩
  · rename_i hq
    exact h.pull hsrc (Replay.isPulling_of_request hq) limit
  · exact h.answerAfter _ limit fun s hl ↦ hl.answered h hsrc (by simp)
  · rename_i token _
    exact h.called hsrc (by simp) (h.leads.list token limit)
  · rename_i record hq
    exact h.called hsrc (by simp) (h.leads.put hq limit)
  · exact h.called hsrc (by simp) (hk.flushed limit h.leads)
  · have hsettle := hk.waitFor (fun t ↦ t.outstanding = 0) limit h.leads
    rw [Stage.settle]
    generalize r.stage.waitFor (fun t ↦ t.outstanding = 0) limit = x at hsettle ⊢
    obtain ⟨settled, s⟩ := x
    obtain ⟨hs', hp, hy⟩ := Leads.absorb hsettle h.fed
    exact ⟨hs', hp, fun _ ↦ hsrc.mono rfl isLooping_of_told hy⟩

/-- Playing is serving one request after another. -/
theorem Played.play (h : r₀.Played hs r) (hsrc : r₀.Sourced hs r) (limit : Instant) (n : Nat) :
    ∃ hs', r₀.Played hs' (play limit n r) := by
  induction n generalizing r hs with
  | zero => exact ⟨hs, h⟩
  | succ n ih =>
    obtain ⟨hs', hp, hsrc'⟩ := h.serve hsrc limit
    rw [Replaying.play]
    generalize r.serve limit = x at hp hsrc' ⊢
    obtain ⟨goes, r'⟩ := x
    cases goes with
    | false => exact ⟨hs', hp⟩
    | true => exact ih hp (hsrc' rfl)

/-- A replay that begins is where it begins. -/
theorem played_nil (hseen : r.stage.state.endings = []) : r.Played [] r ∧ r.Sourced [] r := by
  refine ⟨⟨rfl, .fresh, fun n y hy ↦ ?_, hseen⟩, fun _ n ↦ ?_⟩
  · exact absurd hy (by simp [Replay.yields, Replay.observe])
  · rw [Replay.yields, Replay.observe, List.length_nil, Nat.zero_add]

/-- A replay that is played to its end goes through a run. -/
theorem played_run (hseen : r.stage.state.endings = []) : ∃ hs, r.Played hs r.run := by
  obtain ⟨hstart, hsourced⟩ := played_nil hseen
  rw [Replaying.run]
  exact hstart.play hsourced _ manyRequests

/-- The watermarks that a replay has written to a stream do not decrease in any partition's part of the
log, if the log was empty, the source is ordered by time and no event looks like a watermark record. -/
theorem played_watermarks (c : ReplayConfig) (i : Instruments) {source : EventSource} {stage : Stage}
    (ho : source.feed.Ordered)
    (hplain : ∀ n e, source.feed n = .ok (some e) → watermarkOfPayload? e.payload = none)
    (hlog : stage.state.stream.log = #[]) (hseen : stage.state.endings = []) (partition : String) :
    let r : Replaying := { stage, source, replay := Replay.start c {} i }
    ((r.run.stage.state.stream.watermarks.filter (·.1 = partition)).map Prod.snd).Pairwise (· ≤ ·) := by
  intro r
  obtain ⟨hs, hp⟩ := played_run (r := r) hseen
  have hascends := hp.hosts.ascends hlog rfl (Replay.pending?_start c {} i) ho hplain hp.fed
  exact hascends.sorted.sublist (List.filter_sublist.map Prod.snd)

end Replaying

end Tidemark.Rehearsal
