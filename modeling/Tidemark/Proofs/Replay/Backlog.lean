import Tidemark.Proofs.Pacing.Due
import Tidemark.Proofs.Replay.Delivery
import Tidemark.Proofs.Replay.Shutdown

/-!
# A backlog is sent without a sleep

An event that is pulled after a send, and that is not newer than the event sent, is due when it is pulled:
the other one was due by then, and the clock of the run does not go back. So it comes to the head of the loop
once, after at most one cycle, and is sent there:

```
sent s ──> pull: e, not newer ──> cycle, if one is due ──> head: e is due ──> sent e
                                     |                       |
                                     └─ fatal fault          └─ cancelled
```

`Handled` lists how far the loop can have come with the event since the pull. `handled_pull` and
`handled_step` keep the list along a run; a sleep before the event is not on it.
-/

namespace Tidemark

/-- When it happens, as far as the loop looks at its clock. -/
def Happening.instant? : Happening → Option Instant
  | .answered now _ _ => some now
  | .completed _ _ => none

/-- The clock of a run does not go back. -/
def Clocked (hs : List Happening) : Prop :=
  (hs.filterMap Happening.instant?).Pairwise (· ≤ ·)

instance (hs : List Happening) : Decidable (Clocked hs) :=
  inferInstanceAs (Decidable (List.Pairwise _ _))

/-- What happens later in a run has no earlier instant. -/
theorem Clocked.le {hs hs' : List Happening} (hc : Clocked (hs ++ hs')) {now now' : Instant}
    (h : now ∈ hs.filterMap Happening.instant?) (h' : now' ∈ hs'.filterMap Happening.instant?) : now ≤ now' := by
  rw [Clocked, List.filterMap_append, List.pairwise_append] at hc
  exact hc.2.2 now h now' h'

namespace Replay

/-! ### What was sent was due -/

/-- Once it is set, the pace of a loop stays. -/
theorem pace_after {r : Replay} (hr : r.stage ≠ .opening) {hs : List Happening} (hl : (r.after hs).IsLooping) :
    (r.after hs).stage ≠ .opening ∧ (r.after hs).pace = r.pace := by
  induction hs using List.reverseRecOn with
  | nil => exact ⟨hr, rfl⟩
  | append_singleton hs h ih =>
    rw [after_concat] at hl ⊢
    obtain ⟨hopening, hpace⟩ := ih (isLooping_of_step hl)
    rcases ((r.after hs).move_step h).pace hl with ⟨-, hiff, -, hkept⟩ | ⟨hne, now, cancelled, e, r₁, ha, hkept⟩
    · exact ⟨fun he ↦ hopening (hiff.1 he), hkept.trans hpace⟩
    · rcases ha.pace with ⟨hs, -, -⟩ | ⟨-, hr₁⟩
      · exact absurd hs hopening
      · exact ⟨hne, hkept.trans (hr₁.trans hpace)⟩

/-- While the loop waits for the event after one that it has sent, that one was due at an instant that has
come. -/
theorem due_of_pulling {r : Replay} (hr : r.stage ≠ .pulling) {hs : List Happening}
    (hpulling : (r.after hs).stage = .pulling) :
    ∃ s now gap, (r.run hs).2.getLast? = some s ∧ now ∈ hs.filterMap Happening.instant? ∧
      (r.after hs).pace.decide now s.event.timestamp = .due gap := by
  induction hs using List.reverseRecOn with
  | nil => exact absurd hpulling hr
  | append_singleton hs h ih =>
    rw [after_concat] at hpulling
    rw [sent_concat, after_concat, List.filterMap_append]
    -- a step without a send leaves the pace, and what was sent before
    have hkept (hstage : (r.after hs).stage = .pulling) {x : Replay × Option Send}
        (hpace : x.1.pace = (r.after hs).pace) (hsent : x.2 = none) :
        ∃ s now gap, ((r.run hs).2 ++ x.2.toList).getLast? = some s ∧
          now ∈ hs.filterMap Happening.instant? ++ [h].filterMap Happening.instant? ∧
          x.1.pace.decide now s.event.timestamp = .due gap := by
      obtain ⟨s, now, gap, hlast, hnow, hdue⟩ := ih hstage
      rw [hsent, Option.toList_none, List.append_nil, hpace]
      exact ⟨s, now, gap, hlast, List.mem_append_left _ hnow, hdue⟩
    have hm := (r.after hs).move_step h
    generalize (r.after hs).step h = x at hm hpulling hkept
    cases hm with
    | ignored _ _ => exact hkept hpulling rfl rfl
    | landed id outcome i => exact hkept hpulling rfl rfl
    | launched ha hdue hl =>
      obtain ⟨a, rfl⟩ := ha.isAnswer
      have hdue' := (congrArg (fun p : Pace ↦ p.decide _ _) hl.pace).trans hdue
      exact ⟨_, _, _, List.getLast?_concat, List.mem_append_right _ List.mem_cons_self, hdue'⟩
    | concluded _ hs => exact absurd (IsPulling.isLooping (Or.inr hpulling)) hs.not_looping
    | ended _ hs => exact absurd (IsPulling.isLooping (Or.inr hpulling)) hs.not_looping
    | _ => exact absurd hpulling (by simp)

/-! ### An event that is due when it is pulled -/

/-- How far a loop can have come with an event since it was pulled: a cycle that began with the pull waits for
the destination; the event was sent, and nothing before it; or the loop has ended without it, cancelled or by
the fault of the cycle. -/
inductive Handled (r : Replay) (e : Event) (pulledAt : Instant) (hs : List Happening) : Prop where
  | checking (cycle : Cycle) :
      (r.after hs).stage = .emitting cycle e pulledAt → cycle.request?.isSome → (r.run hs).2 = [] →
      Handled r e pulledAt hs
  | submitted (s : Send) (rest : List Send) :
      (r.run hs).2 = s :: rest → s.event = e → Handled r e pulledAt hs
  | cancelled {now : Instant} {a : ReplayAnswer} :
      ¬ (r.after hs).IsLooping → (r.run hs).2 = [] → .answered now true a ∈ hs → Handled r e pulledAt hs
  | failed {fault : Fault} :
      ¬ (r.after hs).IsLooping → (r.run hs).2 = [] → r.cycleFault? hs = some fault → Handled r e pulledAt hs

variable {r : Replay} {e : Event} {pulledAt : Instant} {hs : List Happening} {h : Happening}

/-- At the head of the loop an event that is due is sent, unless the replay is cancelled. -/
theorem turn_of_due_or_cancelled {now : Instant} {gap : Binary64}
    (hdue : r.pace.decide now e.timestamp = .due gap) (cancelled : Bool) :
    (∃ s, (r.turn now cancelled e).2 = some s ∧ s.event = e) ∨
      (cancelled = true ∧ ¬ (r.turn now cancelled e).1.IsLooping ∧ (r.turn now cancelled e).2 = none) := by
  cases cancelled with
  | true => exact Or.inr ⟨rfl, id, rfl⟩
  | false =>
    rw [turn_of_due hdue, (r.launched_send e gap).2]
    exact Or.inl ⟨_, rfl, rfl⟩

/-- A check begins a cycle, or goes on to the head of the loop at once. -/
theorem check_cases (r : Replay) (now : Instant) (e : Event) :
    (∃ w, r.check now false e = ({ r with stage := .emitting (Cycle.start w) e now }, none)) ∨
      ∃ r₁ : Replay, r₁.pace = r.pace ∧ r.check now false e = r₁.turn now false e := by
  rw [check]
  dsimp only
  split
  · split
    · exact Or.inl ⟨_, rfl⟩
    · obtain ⟨s, i, he⟩ := r.emitted_eq (Emitter.compute r.tracker e.timestamp) .disabled now now false e
      refine Or.inr ⟨_, ?_, he⟩
      rfl
  · obtain ⟨s, i, he⟩ := r.report_eq now now false e
    refine Or.inr ⟨_, ?_, he⟩
    rfl

/-- An event that is due when it is pulled is handled at once, unless a cycle begins. -/
theorem handled_pull {now : Instant} (hs : r.stage = .pulling) {gap : Binary64}
    (hdue : r.pace.decide now e.timestamp = .due gap) :
    r.Handled e now [.answered now false (.pulled (.ok (some e)))] := by
  have hstep : r.step (.answered now false (.pulled (.ok (some e)))) = r.check now false e := by
    simp only [step, answer, hs]
    rfl
  rcases r.check_cases now e with ⟨w, hcheck⟩ | ⟨r₁, hpace, hcheck⟩
  · refine .checking (Cycle.start w) ?_ rfl ?_
    · rw [after_cons, hstep, hcheck]
      rfl
    · rw [sent_cons, hstep, hcheck]
      rfl
  · rcases turn_of_due_or_cancelled (hpace ▸ hdue) false with ⟨s, hsent, he⟩ | ⟨hc, -⟩
    · refine .submitted s [] ?_ he
      rw [sent_cons, hstep, hcheck, hsent]
      rfl
    · exact absurd hc Bool.false_ne_true

/-- An exchange of the cycle that began with the pull leaves the event to the cycle, or decides about it. -/
theorem handled_exchange {cycle : Cycle} (hstage : (r.after hs).stage = .emitting cycle e pulledAt)
    (hsent : (r.run hs).2 = []) {now : Instant} {cancelled : Bool} {a : ReplayAnswer} {x : Exchange}
    (hx : (r.after hs).exchange? (.answered now cancelled a) = some x) {gap : Binary64}
    (hdue : (r.after hs).pace.decide now e.timestamp = .due gap) :
    r.Handled e pulledAt (hs ++ [.answered now cancelled a]) := by
  obtain ⟨w, stage, next, e', checkedAt, hex⟩ := exchanged_of_answer hx
  obtain ⟨rfl, rfl, rfl⟩ := ReplayStage.emitting.inj (hstage.symm.trans hex.stage_eq)
  have hgoes := hex.goes
  have hstep := hex.step_eq
  rw [advance] at hstep
  have hafter := r.after_concat hs (.answered now cancelled a)
  have hsends := r.sent_concat hs (.answered now cancelled a)
  rw [hsent, List.nil_append] at hsends
  cases next with
  | ended result =>
    cases result with
    | ok outcome =>
      -- the good end of the cycle leads to the head of the loop
      obtain ⟨st, i, he⟩ := Replay.emitted_eq
        { r.after hs with instruments := ((⟨w, stage⟩ : Cycle).take x (r.after hs).instruments).2 } w outcome
        pulledAt now cancelled e
      rw [hstep] at hafter hsends
      dsimp only at hafter hsends
      rw [he] at hafter hsends
      rcases turn_of_due_or_cancelled (r := { r.after hs with
          emitter := (r.after hs).emitter.booked now w outcome, statistics := st, instruments := i })
        hdue cancelled with ⟨s, hsend, hs⟩ | ⟨rfl, hleft, hnone⟩
      · refine .submitted s [] ?_ hs
        rw [hsends, hsend]
        rfl
      · refine .cancelled ?_ ?_ (List.mem_append_right _ List.mem_cons_self)
        · rw [hafter]
          exact hleft
        · rw [hsends, hnone]
          rfl
    | error fault =>
      have hfault := (hgoes.ended_error_iff fault).1 rfl
      have hcycle : ∃ first, r.cycleFault? (hs ++ [.answered now cancelled a]) = some first := by
        rw [cycleFault?_concat, exchangeFault?, hx, Option.bind_some, hfault]
        cases r.cycleFault? hs with
        | none => exact ⟨fault, rfl⟩
        | some first => exact ⟨first, rfl⟩
      obtain ⟨first, hfirst⟩ := hcycle
      refine .failed ?_ ?_ hfirst
      · rw [hafter, hstep]
        exact id
      · rw [hsends, hstep]
        rfl
  | _ =>
    refine .checking ⟨w, _⟩ ?_ (hgoes.request?.resolve_left (by simp)) ?_
    · rw [hafter, hstep]
    · rw [hsends, hstep]
      rfl

/-- Every step keeps the list, as long as the event is due at its instant. -/
theorem handled_step (hdue : ∀ now, h.instant? = some now → (r.after hs).IsLooping →
      ∃ gap, (r.after hs).pace.decide now e.timestamp = .due gap)
    (hh : r.Handled e pulledAt hs) : r.Handled e pulledAt (hs ++ [h]) := by
  have hafter := r.after_concat hs h
  have hsends := r.sent_concat hs h
  cases hh with
  | submitted s rest hsent he =>
    rw [hsent] at hsends
    exact .submitted _ _ hsends he
  | cancelled hl hsent hc =>
    obtain ⟨hl', hnone⟩ := ((r.after hs).move_step h).of_not_looping hl
    rw [hsent, hnone] at hsends
    exact .cancelled (hafter ▸ hl') hsends (List.mem_append_left _ hc)
  | failed hl hsent hf =>
    obtain ⟨hl', hnone⟩ := ((r.after hs).move_step h).of_not_looping hl
    rw [hsent, hnone] at hsends
    exact .failed (hafter ▸ hl') hsends (by rw [cycleFault?_concat, hf]; rfl)
  | checking cycle hstage hask hsent =>
    have hquiet (hkept : ((r.after hs).step h).1.stage = (r.after hs).stage)
        (hnone : ((r.after hs).step h).2 = none) : r.Handled e pulledAt (hs ++ [h]) := by
      rw [hsent, hnone] at hsends
      exact .checking cycle (by rw [hafter, hkept, hstage]) hask hsends
    cases h with
    | completed id outcome => exact hquiet (stage_complete (by simp [hstage]) id outcome) rfl
    | answered now cancelled a =>
      cases hx : (r.after hs).exchange? (.answered now cancelled a) with
      | none =>
        have hsame := answer_of_unasked hstage hask hx
        exact hquiet (by rw [step, hsame]) (by rw [step, hsame])
      | some x =>
        obtain ⟨gap, hgap⟩ := hdue now rfl (by simp [IsLooping, hstage])
        exact handled_exchange hstage hsent hx hgap

/-! ### The backlog -/

section Start

variable {c : ReplayConfig} {t : Tracker} {i : Instruments} {s : Send}

theorem stage_start_ne (c : ReplayConfig) (t : Tracker) (i : Instruments) : (start c t i).stage ≠ .pulling := by
  rw [start]
  cases c.validate <;> simp

/-- Only a replay with a valid configuration sends anything. -/
theorem validate_of_sent (hlast : ((start c t i).run hs).2.getLast? = some s) : c.validate = .ok () := by
  cases hc : c.validate with
  | ok u => rfl
  | error fault =>
    have hnot : ¬ (start c t i).IsLooping := by simp [start, hc, IsLooping]
    rw [(run_of_not_looping hnot hs).2.1] at hlast
    exact absurd hlast (by simp)

/-- What waits for its source after a send waits for the event after it. -/
theorem pulling_of_sent (hpull : ((start c t i).after hs).IsPulling)
    (hlast : ((start c t i).run hs).2.getLast? = some s) : ((start c t i).after hs).stage = .pulling := by
  rcases hpull with hs' | hs'
  · have hyields := (anchored_after (reported_start c t i) (opening_start c t i) hs).opening hs'
    obtain ⟨left, hevents, -⟩ := (start c t i).run_events hs
    rw [pending?_start, pulled, hyields] at hevents
    have hnone : ((start c t i).run hs).2 = [] := by
      simpa using (List.append_eq_nil_iff.1 hevents.symm).1
    rw [hnone] at hlast
    exact absurd hlast (by simp)
  · exact hs'

/-- What comes of an event that is pulled in a run after a send and is not newer than the event sent. -/
theorem handled_of_pull {now : Instant} {more : List Happening}
    (hclock : Clocked (hs ++ .answered now false (.pulled (.ok (some e))) :: more))
    (hlast : ((start c t i).run hs).2.getLast? = some s) (hpull : ((start c t i).after hs).IsPulling)
    (he : e.timestamp ≤ s.event.timestamp) :
    ((start c t i).after hs).Handled e now (.answered now false (.pulled (.ok (some e))) :: more) := by
  have hreported := reported_start c t i
  have hpaced := anchored_after hreported (opening_start c t i) hs
  have hasking := asking_after (asking_start c t i) hs
  have hvalid := validate_of_sent hlast
  have hpulling := pulling_of_sent hpull hlast
  -- what was sent last was due, and so is what is not newer from then on
  obtain ⟨s', now₀, gap, hlast', hmem, hdue⟩ := due_of_pulling (stage_start_ne c t i) hpulling
  obtain rfl := Option.some.inj (hlast.symm.trans hlast')
  obtain ⟨start', first, rest, -, hpace⟩ := hpaced.anchored hpull.isLooping (by simp [hpulling])
  have hfinite : ((start c t i).after hs).pace.speedup.isFinite := by
    rw [hpace]
    exact ReplayConfig.isFinite_speedup hvalid
  have hpos : Binary64.zero.less ((start c t i).after hs).pace.speedup = true := by
    rw [hpace]
    exact ReplayConfig.speedup_pos hvalid
  have hlater : ∀ now', now' ∈ (Happening.answered now false (.pulled (.ok (some e))) :: more).filterMap
      Happening.instant? → ∃ gap', ((start c t i).after hs).pace.decide now' e.timestamp = .due gap' :=
    fun now' hnow' ↦ Pace.due_of_due hfinite hpos (hclock.le hmem hnow') he hdue
  clear hclock
  generalize (start c t i).after hs = r at hpulling hasking hlater
  induction more using List.reverseRecOn with
  | nil =>
    obtain ⟨gap', hgap⟩ := hlater now List.mem_cons_self
    exact handled_pull hpulling hgap
  | append_singleton more g ih =>
    rw [← List.cons_append] at hlater ⊢
    have hbefore := ih fun now' hnow' ↦ hlater now' (by
      rw [List.filterMap_append]
      exact List.mem_append_left _ hnow')
    refine handled_step (fun now' hg hl ↦ ?_) hbefore
    rw [(pace_after (by simp [hpulling]) hl).2]
    refine hlater now' ?_
    rw [List.filterMap_append]
    exact List.mem_append_right _ (List.mem_filterMap.2 ⟨g, List.mem_cons_self, hg⟩)

end Start

/-- An event that is due stays due, and so does every one that is not newer, at every finite and positive
speed. So an event that is pulled in a run after a send, and is not newer than the event sent, is the next one
to be sent, when it first comes to the head of the loop: after the cycle that its pull begins, or else at once.
Only a cancellation or a fault of that cycle comes before it, and never a sleep. -/
theorem backlog_is_not_slept_before :
    (∀ (p : Pace) (now now' : Instant) (t t' : Timestamp) (gap : Binary64), p.speedup.isFinite →
      Binary64.zero.less p.speedup = true → now ≤ now' → t' ≤ t → p.decide now t = .due gap →
        ∃ gap', p.decide now' t' = .due gap') ∧
      ∀ (c : ReplayConfig) (t : Tracker) (i : Instruments) (hs more : List Happening) (s : Send) (now : Instant)
        (e : Event),
        let r := start c t i
        let later := .answered now false (.pulled (.ok (some e))) :: more
        Clocked (hs ++ later) → (r.run hs).2.getLast? = some s → (r.after hs).request = .pull →
          e.timestamp ≤ s.event.timestamp →
          (r.after hs).Handled e now later ∧
            ∀ e' d, (r.after (hs ++ later)).stage = .sleeping e' d →
              ∃ s' rest, ((r.after hs).run later).2 = s' :: rest ∧ s'.event = e := by
  constructor
  · intro p now now' t t' gap hfinite hpos hnow ht hdue
    exact Pace.due_of_due hfinite hpos hnow ht hdue
  · intro c t i hs more s now e r later hclock hlast hpull he
    have hh := handled_of_pull hclock hlast (isPulling_of_request hpull) he
    refine ⟨hh, fun e' d hsleeping ↦ ?_⟩
    have hstage : ((r.after hs).after later).stage = .sleeping e' d := by rwa [← after_append]
    have hlooping : ((r.after hs).after later).IsLooping := by
      rw [IsLooping, hstage]
      trivial
    cases hh with
    | checking _ hs' _ _ => exact absurd (hs'.symm.trans hstage) (by simp)
    | submitted s' rest hsent he' => exact ⟨s', rest, hsent, he'⟩
    | cancelled hl _ _ => exact absurd hlooping hl
    | failed hl _ _ => exact absurd hlooping hl

/-- The second event is a second older than the first one, and ten seconds late. -/
theorem backlog_is_not_slept_before_outOfOrder :
    let p : Pace := ⟨Instant.start, ⟨2000, by decide, by decide⟩, everyEvent.speedup, everyEvent.minSleep⟩
    let r := start everyEvent {} {}
    let pulled (now : Instant) (n : Nat) : Happening := .answered now false (.pulled (.ok threeEvents[n]?))
    let cycle : List Happening :=
      [.answered tenSeconds false (.listed (.ok ⟨[⟨"shard", "0"⟩], none⟩)),
        .answered tenSeconds false (.wrote (.ok shardAck))]
    (∃ gap, p.decide tenSeconds ⟨1000, by decide, by decide⟩ = .due gap) ∧
      Clocked (pulled Instant.start 1 :: pulled tenSeconds 0 :: cycle) ∧
      ∃ e ∈ threeEvents, (r.after [pulled Instant.start 1]).Handled e tenSeconds (pulled tenSeconds 0 :: cycle) ∧
        ((r.after [pulled Instant.start 1]).run (pulled tenSeconds 0 :: cycle)).2.map Send.event = [e] := by
  intro p r pulled cycle
  obtain ⟨hpace, hrun⟩ := backlog_is_not_slept_before
  have hclock : Clocked ([pulled Instant.start 1] ++ pulled tenSeconds 0 :: cycle) := by decide +kernel
  have hlast : (r.run [pulled Instant.start 1]).2.getLast? = some ⟨0, threeEvents[1]⟩ := by decide +kernel
  have hpull : (r.after [pulled Instant.start 1]).request = .pull := by decide +kernel
  have hhandled := hrun everyEvent {} {} _ cycle _ tenSeconds threeEvents[0] hclock hlast hpull (by decide)
  have hdue : p.decide Instant.start p.logZero = .due (p.gap Instant.start p.logZero) := by decide +kernel
  have hlate := hpace p Instant.start tenSeconds p.logZero ⟨1000, by decide, by decide⟩ _ (by decide +kernel)
    (by decide +kernel) (by decide) (by decide) hdue
  exact ⟨hlate, hclock, threeEvents[0], by decide, hhandled.1, by decide +kernel⟩

end Replay

end Tidemark
