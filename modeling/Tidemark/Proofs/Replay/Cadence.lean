import Tidemark.Proofs.Replay.Acknowledged
import Tidemark.Proofs.Replay.Steady
import Tidemark.Proofs.Time.Instants

/-!
# The cadence of watermark cycles

When a replay runs its cycles, in any surroundings: with its first check, after so many events, or after
the interval.

```
 cycle ends          K events, or the interval           cycle begins
 ────┤ j  ·────·────·── sleeps, pulls, sends ──·────·────·  n ├────
     last          sights since: no cycle begins          now
```

`Since` pins the last cycle before an answer, and `booked_of_since` ties it to what the emitter has booked.
The three safety statements follow from `Steady`. A loop that neither waits for its source nor sleeps beyond
the whole millisecond comes nearer to the next cycle with every wait (`nearness_lt`), which bounds the
time until it begins.
-/

namespace Tidemark

/-- The loop of a course stands where that of a replay does, at an instant. -/
structure Course.Stands (c : Course) (r : Replay) (now : Instant) : Prop where
  now : c.now = now
  config : c.replay.config = r.config
  stage : c.replay.stage = r.stage
  emitter : c.replay.emitter = r.emitter

namespace Surroundings

open Replay

variable (s : Surroundings)

/-- The source yields without waiting, and a sleep ends some time after it begins, at the whole millisecond
that follows its length at the latest. -/
structure Prompt : Prop where
  pull (calls : List Instant) (now : Instant) : (s.pull (calls ++ [now])).2 = now
  wake (now : Instant) (d : Span) : 0 < d.nanos → now < s.wake now d ∧ s.wake now d ≤ (now.after d).roundUp

/-! ### Cycles along a course -/

section Cycles

variable (run : Nat → Course)

/-- The answer is followed by a check for a cycle. -/
def ChecksAt (n : Nat) : Prop :=
  ∃ x, s.answer? (run n) = some x ∧ ((run n).replay.checked? (.answered x.1 x.2.1 x.2.2)).isSome

/-- A cycle begins with the answer, at an instant. -/
def BeginsAt (n : Nat) (now : Instant) : Prop :=
  ∃ x, s.sight? (run n) = some x ∧ x.begins = true ∧ x.instant = now

/-- A cycle ends with the answer, at an instant: it was written, skipped or disabled. -/
def EndsAt (n : Nat) (now : Instant) : Prop :=
  ∃ x outcome, s.sight? (run n) = some x ∧ x.ends = some (.ok outcome) ∧ x.instant = now

instance (n : Nat) : Decidable (s.ChecksAt run n) :=
  decidable_of_iff
    ((s.answer? (run n)).any fun x ↦ ((run n).replay.checked? (.answered x.1 x.2.1 x.2.2)).isSome) <| by
    cases h : s.answer? (run n) <;> simp [ChecksAt, h]

instance (n : Nat) (now : Instant) : Decidable (s.BeginsAt run n now) :=
  decidable_of_iff ((s.sight? (run n)).any fun x ↦ x.begins && decide (x.instant = now)) <| by
    cases h : s.sight? (run n) <;> simp [BeginsAt, h]

instance (n : Nat) (now : Instant) : Decidable (s.EndsAt run n now) :=
  decidable_of_iff
    ((s.sight? (run n)).any fun x ↦ (x.ends.bind Except.toOption).isSome && decide (x.instant = now)) <| by
    have hok (ends : Option (Except Fault EmitOutcome)) :
        (ends.bind Except.toOption).isSome ↔ ∃ outcome, ends = some (.ok outcome) := by
      rcases ends with _ | fault | outcome <;> simp [Except.toOption]
    cases h : s.sight? (run n) <;> simp [EndsAt, h, hok]

/-- The last cycle before an answer has ended with another one, at an instant, and none has begun since. -/
structure Since (n j : Nat) (last : Instant) : Prop where
  ends : s.EndsAt run j last
  lt : j < n
  quiet : ∀ k, j < k → k < n → ∀ now, ¬ s.BeginsAt run k now

/-- What is submitted before an answer. -/
def sends (n : Nat) : List Send :=
  (List.range n).filterMap fun m ↦ (s.sight? (run m)).bind Sight.sent

end Cycles

variable {s} {run : Nat → Course} {n j : Nat} {last now : Instant} {cancelled : Bool} {a : ReplayAnswer}

theorem length_sends_succ (run : Nat → Course) (n : Nat) :
    (s.sends run (n + 1)).length =
      (s.sends run n).length + ((s.sight? (run n)).bind Sight.sent).toList.length := by
  rw [sends, List.range_succ, List.filterMap_append, List.length_append, sends, List.filterMap_cons,
    List.filterMap_nil]
  cases (s.sight? (run n)).bind Sight.sent <;> rfl

/-- What is seen is what the replay makes of the answer. -/
theorem sight?_of_answer {c : Course} (ha : s.answer? c = some (now, cancelled, a)) :
    s.sight? c = some (c.replay.sight now cancelled a) := by
  rw [sight?, ha]
  rfl

theorem sight?_of_no_answer {c : Course} (ha : s.answer? c = none) : s.sight? c = none := by
  rw [sight?, ha]
  rfl

/-- Since a cycle ended none has begun if none begins with this answer. -/
theorem Since.succ (h : s.Since run n j last) (hquiet : ∀ now, ¬ s.BeginsAt run n now) :
    s.Since run (n + 1) j last where
  ends := h.ends
  lt := Nat.lt_succ_of_lt h.lt
  quiet k hk hn := by
    rcases Nat.lt_or_ge k n with hlt | hge
    · exact h.quiet k hk hlt
    · obtain rfl : k = n := by omega
      exact hquiet

/-- A cycle that ends with an answer is the last one before the next. -/
theorem Since.of_ends (h : s.EndsAt run n last) : s.Since run (n + 1) n last where
  ends := h
  lt := Nat.lt_succ_self n
  quiet k hk hn := absurd hn (by omega)

theorem not_beginsAt_of_no_answer (ha : s.answer? (run n) = none) (now : Instant) : ¬ s.BeginsAt run n now := by
  rintro ⟨x, hx, -, -⟩
  exact absurd ((sight?_of_no_answer ha).symm.trans hx) (by simp)

/-- No cycle begins with an answer that leads to no check. -/
theorem not_beginsAt_of_unopened (ha : s.answer? (run n) = some (now, cancelled, a))
    (ho : (run n).replay.opened? (.answered now cancelled a) = none) (now' : Instant) :
    ¬ s.BeginsAt run n now' := by
  rintro ⟨x, hx, hbegins, -⟩
  obtain rfl := Option.some.inj ((sight?_of_answer ha).symm.trans hx)
  simp [sight, ho] at hbegins

/-- An answer with which no cycle begins has opened none. -/
theorem unopened_of_not_beginsAt (ha : s.answer? (run n) = some (now, cancelled, a))
    (hquiet : ∀ now, ¬ s.BeginsAt run n now) :
    (run n).replay.opened? (.answered now cancelled a) = none := by
  cases ho : (run n).replay.opened? (.answered now cancelled a) with
  | none => rfl
  | some w => exact absurd ⟨_, sight?_of_answer ha, by simp [sight, ho], rfl⟩ (hquiet now)

/-! ### Answers in surroundings -/

/-- A wait that is cut short has the answer that it would have had. -/
theorem cut_answer (s : Surroundings) (now due : Instant) (a : ReplayAnswer) : (s.cut now due a).2.2 = a := by
  rw [cut]
  split
  · split <;> rfl
  · rfl

/-- A wait is not cut short before it begins, nor does it go on beyond its answer. -/
theorem cut_instant_le {now due : Instant} (h : now ≤ due) (a : ReplayAnswer) : (s.cut now due a).1 ≤ due := by
  rw [cut]
  split
  · split
    · split <;> assumption
    · exact Nat.le_refl _
  · exact Nat.le_refl _

/-- A wait without a cancellation ends when it is due. -/
theorem cut_of_not_cancelled {now due now' : Instant} {a a' : ReplayAnswer}
    (h : s.cut now due a = (now', false, a')) : now' = due := by
  rw [cut] at h
  split at h
  · split at h
    · exact absurd (congrArg (fun x ↦ x.2.1) h) (by simp)
    · exact (congrArg Prod.fst h).symm
  · exact (congrArg Prod.fst h).symm

/-- What the surroundings answer is what the replay waits for. -/
theorem heeds_of_answer? {c : Course} (ha : s.answer? c = some (now, cancelled, a)) :
    c.replay.heeds a = true := by
  have hcut {due : Instant} {a' : ReplayAnswer} (h : s.cut c.now due a' = (now, cancelled, a)) : a = a' := by
    rw [← s.cut_answer c.now due a', h]
  rw [answer?] at ha
  split at ha
  · rename_i hq
    simp [hcut (Option.some.inj ha), heeds, hq]
  · rename_i d hq
    simp [hcut (Option.some.inj ha), heeds, hq]
  · rename_i token hq
    obtain ⟨-, -, rfl⟩ : _ ∧ _ ∧ _ = a := by simpa using ha
    simp [heeds, hq]
  · rename_i record hq
    obtain ⟨-, -, rfl⟩ : _ ∧ _ ∧ _ = a := by simpa using ha
    simp [heeds, hq]
  · exact absurd ha (by simp)

/-- The handles leave the loop where it stands. -/
theorem stands_land {c : Course} (hc : Unwaiting c.replay) (acks : List (Nat × Outcome)) :
    (c.land acks).Stands c.replay c.now := by
  have hkept {r : Replay} (hr : Unwaiting r) (id : Nat) (outcome : Outcome) :
      (r.complete id outcome).config = r.config ∧ (r.complete id outcome).emitter = r.emitter := by
    cases hs : r.stage with
    | settling ending => exact absurd hs (hr ending)
    | _ => simp only [complete, hs, and_self]
  have hafter : ∀ r : Replay, Unwaiting r →
      (r.after (Course.landing acks)).config = r.config ∧ (r.after (Course.landing acks)).stage = r.stage ∧
        (r.after (Course.landing acks)).emitter = r.emitter := by
    induction acks with
    | nil => exact fun r _ ↦ ⟨rfl, rfl, rfl⟩
    | cons ack acks ih =>
      intro r hr
      have hstage : (r.complete ack.1 ack.2).stage = r.stage := stage_complete hr ack.1 ack.2
      obtain ⟨hconfig, hemitter⟩ := hkept hr ack.1 ack.2
      have hunwaiting : Unwaiting (r.complete ack.1 ack.2) := fun ending ↦ hstage ▸ hr ending
      obtain ⟨hconfig', hstage', hemitter'⟩ := ih _ hunwaiting
      exact ⟨hconfig'.trans hconfig, hstage'.trans hstage, hemitter'.trans hemitter⟩
  obtain ⟨hconfig, hstage, hemitter⟩ := hafter c.replay hc
  exact ⟨rfl, hconfig, hstage, hemitter⟩

/-- Where a replay is steady, so is a course that stands there. -/
theorem steady_of_stands {c : Course} {r : Replay} {config : ReplayConfig} (h : Replay.Steady config r now)
    (hstands : c.Stands r now) : Replay.Steady config c.replay c.now := by
  rw [hstands.now]
  exact h.congr hstands.config hstands.stage hstands.emitter

section Asking

variable (s) {r : Replay} (hr : Unwaiting r) (acks : Nat → List (Nat × Outcome))
include hr

/-- The course after an answer, before handles resolve. -/
theorem stands_serve : (s.asking r acks (n + 1)).Stands (s.serve (s.asking r acks n)).replay
    (s.serve (s.asking r acks n)).now :=
  stands_land (s.unwaiting_course hr acks (n + 1)) (acks (n + 1))

/-- The course stands where the answer leaves the loop. -/
theorem stands_of_answer (ha : s.answer? (s.asking r acks n) = some (now, cancelled, a)) :
    (s.asking r acks (n + 1)).Stands ((s.asking r acks n).replay.answer now cancelled a).1 now := by
  have hserve : s.serve (s.asking r acks n) = (s.asking r acks n).take now cancelled a := by rw [serve, ha]
  have hstands := s.stands_serve hr acks (n := n)
  rw [hserve] at hstands
  exact hstands

/-- Without an answer the course stands still. -/
theorem stands_of_no_answer (ha : s.answer? (s.asking r acks n) = none) :
    (s.asking r acks (n + 1)).Stands (s.asking r acks n).replay (s.asking r acks n).now := by
  have hserve : s.serve (s.asking r acks n) = s.asking r acks n := by rw [serve, ha]
  have hstands := s.stands_serve hr acks (n := n)
  rw [hserve] at hstands
  exact hstands

/-! ### What the emitter has booked -/

/-- The emitter has booked the last cycle, and the events that were sent since. -/
theorem booked_of_since (h : s.Since (s.asking r acks) n j last) :
    (s.asking r acks n).replay.emitter.lastCycle = some last ∧
      (s.sends (s.asking r acks) n).length =
        (s.sends (s.asking r acks) j).length + (s.asking r acks n).replay.emitter.eventsSince ∧
      (s.asking r acks n).replay.cycle? = none := by
  induction n with
  | zero => exact absurd h.lt (by omega)
  | succ n ih =>
    rw [length_sends_succ]
    rcases Nat.lt_or_ge j n with hlt | hge
    · obtain ⟨hlast, hsends, hcycle⟩ := ih ⟨h.ends, hlt, fun k hk hn ↦ h.quiet k hk (Nat.lt_succ_of_lt hn)⟩
      cases ha : s.answer? (s.asking r acks n) with
      | none =>
        have hstands := s.stands_of_no_answer hr acks ha
        rw [sight?_of_no_answer ha, hstands.emitter, Replay.cycle?, hstands.stage]
        exact ⟨hlast, hsends, hcycle⟩
      | some x =>
        obtain ⟨now, cancelled, a⟩ := x
        have hstands := s.stands_of_answer hr acks ha
        have ho := unopened_of_not_beginsAt ha (h.quiet n hlt (Nat.lt_succ_self n))
        have hrhythm := rhythm_of_quiet hcycle ho
        rw [sight?_of_answer ha, hstands.emitter, Replay.cycle?, hstands.stage]
        refine ⟨hrhythm.lastCycle.trans hlast, ?_, cycle?_answer hcycle (Or.inl ho)⟩
        rw [hrhythm.eventsSince, hsends, Nat.add_assoc]
        rfl
    · -- the cycle has ended with this very answer
      obtain rfl : j = n := by have := h.lt; omega
      obtain ⟨x, outcome, hx, hends, rfl⟩ := h.ends
      cases ha : s.answer? (s.asking r acks j) with
      | none => exact absurd ((sight?_of_no_answer ha).symm.trans hx) (by simp)
      | some y =>
        obtain ⟨now, cancelled, a⟩ := y
        have hstands := s.stands_of_answer hr acks ha
        obtain rfl := Option.some.inj ((sight?_of_answer ha).symm.trans hx)
        have hends : (s.asking r acks j).replay.cycleEnd? now cancelled a = some (.ok outcome) := hends
        have hrhythm := (s.asking r acks j).replay.rhythm_answer now cancelled a
        rw [hends] at hrhythm
        rw [hx, hstands.emitter, Replay.cycle?, hstands.stage]
        refine ⟨hrhythm.lastCycle, ?_, cycle?_of_ends hends⟩
        rw [hrhythm.eventsSince, Nat.zero_add]
        rfl

/-- As long as no cycle has ended and the loop waits for its source, there has been no check. -/
theorem unchecked_of_fresh (hf : (s.asking r acks n).replay.IsFresh) {k : Nat} (hk : k < n) :
    ¬ s.ChecksAt (s.asking r acks) k := by
  induction n with
  | zero => exact absurd hk (by omega)
  | succ n ih =>
    have hfresh : (s.asking r acks n).replay.IsFresh ∧ ¬ s.ChecksAt (s.asking r acks) n := by
      cases ha : s.answer? (s.asking r acks n) with
      | none =>
        have hstands := s.stands_of_no_answer hr acks ha
        rw [IsFresh, IsPulling, hstands.stage, hstands.emitter] at hf
        refine ⟨hf, ?_⟩
        rintro ⟨x, ha', -⟩
        exact absurd (ha.symm.trans ha') (by simp)
      | some x =>
        obtain ⟨now, cancelled, a⟩ := x
        have hstands := s.stands_of_answer hr acks ha
        rw [IsFresh, IsPulling, hstands.stage, hstands.emitter] at hf
        obtain ⟨hfresh, hchecked⟩ := fresh_of_answer hf
        refine ⟨hfresh, ?_⟩
        rintro ⟨x, ha', hsome⟩
        obtain rfl := Option.some.inj (ha.symm.trans ha')
        simp [hchecked] at hsome
    rcases Nat.lt_or_ge k n with hlt | hge
    · exact ih hfresh.1 hlt
    · obtain rfl : k = n := by omega
      exact hfresh.2

section Steady

variable {c : ReplayConfig} (hc : c.validate = .ok ()) (h₀ : Replay.Steady c r Instant.start)
include hc h₀

/-- Whenever an answer is due the replay is steady. -/
theorem steady_asking (n : Nat) :
    Replay.Steady c (s.asking r acks n).replay (s.asking r acks n).now := by
  induction n with
  | zero => exact steady_of_stands h₀ (stands_land (c := { replay := r }) hr (acks 0))
  | succ n ih =>
    cases ha : s.answer? (s.asking r acks n) with
    | none => exact steady_of_stands ih (s.stands_of_no_answer hr acks ha)
    | some x =>
      obtain ⟨now, cancelled, a⟩ := x
      have hl := s.isLooping_of_answer? ha
      exact steady_of_stands (steady_answer hc ih hl (heeds_of_answer? ha)) (s.stands_of_answer hr acks ha)

/-- While the loop waits, the last cycle that the emitter has booked is the last one that has ended. -/
theorem exists_since (hstart : ¬ r.IsWaiting) (hw : (s.asking r acks n).replay.IsWaiting)
    (hlast : (s.asking r acks n).replay.emitter.lastCycle = some last) :
    ∃ j, s.Since (s.asking r acks) n j last := by
  induction n with
  | zero =>
    have hstands : (s.asking r acks 0).Stands r Instant.start :=
      stands_land (c := { replay := r }) hr (acks 0)
    rw [IsWaiting, hstands.stage] at hw
    exact absurd hw hstart
  | succ n ih =>
    cases ha : s.answer? (s.asking r acks n) with
    | none =>
      have hstands := s.stands_of_no_answer hr acks ha
      rw [IsWaiting, hstands.stage] at hw
      rw [hstands.emitter] at hlast
      obtain ⟨j, hj⟩ := ih hw hlast
      exact ⟨j, hj.succ (not_beginsAt_of_no_answer ha)⟩
    | some x =>
      obtain ⟨now, cancelled, a⟩ := x
      have hstands := s.stands_of_answer hr acks ha
      rw [IsWaiting, hstands.stage] at hw
      rw [hstands.emitter] at hlast
      rcases waited_of_answer hw with ⟨outcome, hends⟩ | ⟨ho, hs⟩
      · have hrhythm := (s.asking r acks n).replay.rhythm_answer now cancelled a
        rw [hends] at hrhythm
        obtain rfl := Option.some.inj (hrhythm.lastCycle.symm.trans hlast)
        exact ⟨n, .of_ends ⟨_, outcome, sight?_of_answer ha, hends, rfl⟩⟩
      · have hcycle : (s.asking r acks n).replay.cycle? = none := by
          refine cycle?_of_not_emitting fun cycle e checkedAt hemitting ↦ ?_
          rcases hs with hs | hw
          · exact absurd (hs.symm.trans hemitting) (by simp)
          · exact hw.not_emitting cycle e checkedAt hemitting
        rw [(rhythm_of_quiet hcycle ho).lastCycle] at hlast
        rcases hs with hs | hw
        · have hnone := ((s.steady_asking hr acks hc h₀ n).opening hs).1
          exact absurd (hnone.symm.trans hlast) (by simp)
        · obtain ⟨j, hj⟩ := ih hw hlast
          exact ⟨j, hj.succ (not_beginsAt_of_unopened ha ho)⟩

/-! ### Why a cycle begins -/

/-- A cycle begins with the first check of the run, or when the last one is enough events or time ago. -/
theorem begins_cases (hstart : ¬ r.IsWaiting) (hb : s.BeginsAt (s.asking r acks) n now) :
    (∀ k < n, ¬ s.ChecksAt (s.asking r acks) k) ∨
      ∃ j last, s.Since (s.asking r acks) n j last ∧
        ((s.sends (s.asking r acks) n).length =
            (s.sends (s.asking r acks) j).length + c.watermark.eventCount ∨
          last.after c.watermark.interval ≤ now) := by
  obtain ⟨-, hpos, -⟩ := ReplayConfig.pos_of_validate hc
  have hsteady := s.steady_asking hr acks hc h₀ n
  obtain ⟨x, hx, hbegins, rfl⟩ := hb
  cases ha : s.answer? (s.asking r acks n) with
  | none => exact absurd ((sight?_of_no_answer ha).symm.trans hx) (by simp)
  | some y =>
    obtain ⟨now, cancelled, a⟩ := y
    obtain rfl := Option.some.inj ((sight?_of_answer ha).symm.trans hx)
    obtain ⟨w, ho⟩ := Option.isSome_iff_exists.1 hbegins
    obtain ⟨now', e, hchecked, -⟩ := opened?_cases ho
    obtain ⟨rfl, -⟩ := answer_of_checked hchecked
    have hdue : (s.asking r acks n).replay.emitter.isDue now' = true := by
      rw [Replay.opened?, hchecked] at ho
      by_contra hnot
      rw [Bool.not_eq_true] at hnot
      simp [hnot] at ho
    have hw := isWaiting_of_checked hchecked
    cases hlast : (s.asking r acks n).replay.emitter.lastCycle with
    | none =>
      -- a sleep comes after the end of a cycle
      have hpulling : (s.asking r acks n).replay.IsPulling := by
        rcases hw with hs | ⟨e, d, hs⟩
        · exact Or.inr hs
        · obtain ⟨last, hlast', -⟩ := hsteady.last_of_sleeping hpos hs
          exact absurd (hlast.symm.trans hlast') (by simp)
      exact Or.inl fun k hk ↦ s.unchecked_of_fresh hr acks ⟨hlast, hpulling⟩ hk
    | some last =>
      obtain ⟨j, hj⟩ := s.exists_since hr acks hc h₀ hstart hw hlast
      refine Or.inr ⟨j, last, hj, ?_⟩
      obtain ⟨-, hsends, -⟩ := s.booked_of_since hr acks hj
      have hwithin := hsteady.within
      rcases Nat.lt_or_ge (s.asking r acks n).replay.emitter.eventsSince c.watermark.eventCount with hlt | hge
      · refine Or.inr (Nat.le_of_not_lt fun hleft ↦ ?_)
        have hidle : (s.asking r acks n).replay.emitter.isDue now' = false := by
          refine (Emitter.isDue_eq_false_iff (hsteady.emitter ▸ hpos)).2 ?_
          rw [hsteady.emitter]
          exact ⟨hlt, last, hlast, hleft⟩
        exact absurd (hdue.symm.trans hidle) (by simp)
      · exact Or.inl (by rw [hsends]; omega)

/-- No more events are sent since a cycle than are configured. -/
theorem sends_le (h : s.Since (s.asking r acks) n j last) :
    (s.sends (s.asking r acks) n).length ≤
      (s.sends (s.asking r acks) j).length + c.watermark.eventCount := by
  obtain ⟨-, hsends, -⟩ := s.booked_of_since hr acks h
  have hwithin := (s.steady_asking hr acks hc h₀ n).within
  omega

/-- A sleep takes the shortest time at least, and at most that or what is left of the interval. -/
theorem sleep_bounds (hstart : ¬ r.IsWaiting) {d : Span} (hq : (s.asking r acks n).replay.request = .sleep d) :
    c.minSleep ≤ d ∧ ∃ j last, s.Since (s.asking r acks) n j last ∧
      d ≤ max c.minSleep (c.watermark.interval.saturatingSub ((s.asking r acks n).now.since last)) := by
  obtain ⟨-, hpos, -⟩ := ReplayConfig.pos_of_validate hc
  have hsteady := s.steady_asking hr acks hc h₀ n
  obtain ⟨e, hs⟩ := sleeping_of_request hq
  obtain ⟨last, hlast, -, hmin, hmax⟩ := hsteady.last_of_sleeping hpos hs
  obtain ⟨j, hj⟩ := s.exists_since hr acks hc h₀ hstart (Or.inr ⟨e, d, hs⟩) hlast
  exact ⟨hmin, j, last, hj, hmax⟩

/-! ### The next cycle begins -/

/-- How much is left before the next cycle at most: the time first, then the events, then the wait for the
source. -/
def nearness (c : ReplayConfig) (last : Instant) (co : Course) : Nat :=
  ((last.after c.watermark.interval).nanos - co.now.nanos) * (2 * c.watermark.eventCount + 2) +
    2 * (c.watermark.eventCount - co.replay.emitter.eventsSince) +
    match co.replay.stage with
    | .pulling => 1
    | _ => 0

/-- The latest instant at which the next cycle begins. -/
def latest (c : ReplayConfig) (last : Instant) : Instant :=
  ((last.after c.watermark.interval).after c.minSleep).roundUp

/-- While the loop waits, the time of the next cycle has not come. -/
theorem now_lt_of_waiting (hw : (s.asking r acks n).replay.IsWaiting)
    (hlast : (s.asking r acks n).replay.emitter.lastCycle = some last) :
    (s.asking r acks n).now < last.after c.watermark.interval := by
  obtain ⟨-, hpos, -⟩ := ReplayConfig.pos_of_validate hc
  have hsteady := s.steady_asking hr acks hc h₀ n
  rcases hw with hs | ⟨e, d, hs⟩
  · exact hsteady.pulling hs last hlast
  · obtain ⟨last', hlast', hlt, -⟩ := hsteady.last_of_sleeping hpos hs
    obtain rfl := Option.some.inj (hlast.symm.trans hlast')
    exact hlt

/-- A wait is answered at once or, if it is a sleep, later; not later than the next cycle may begin. -/
theorem instant_of_waiting (hp : s.Prompt) (hw : (s.asking r acks n).replay.IsWaiting)
    (hlast : (s.asking r acks n).replay.emitter.lastCycle = some last)
    (ha : s.answer? (s.asking r acks n) = some (now, cancelled, a)) :
    now ≤ latest c last ∧
      (cancelled = false → ((s.asking r acks n).replay.stage = .pulling ∧ now = (s.asking r acks n).now) ∨
        ((s.asking r acks n).replay.stage ≠ .pulling ∧ (s.asking r acks n).now < now)) := by
  obtain ⟨hmin, hpos, -⟩ := ReplayConfig.pos_of_validate hc
  have hsteady := s.steady_asking hr acks hc h₀ n
  have hlt : (s.asking r acks n).now.nanos < last.nanos + c.watermark.interval.nanos :=
    s.now_lt_of_waiting hr acks hc h₀ hw hlast
  rcases hw with hs | ⟨e, d, hs⟩
  · have hq : (s.asking r acks n).replay.request = .pull := by rw [request, hs]
    have hpull := hp.pull (s.asking r acks n).pulls (s.asking r acks n).now
    simp only [answer?, hq, hpull, Option.some.injEq] at ha
    have hle := s.cut_instant_le (Nat.le_refl (s.asking r acks n).now.nanos)
      (.pulled (s.pull ((s.asking r acks n).pulls ++ [(s.asking r acks n).now])).1)
    rw [ha] at hle
    refine ⟨?_, fun hcancelled ↦ Or.inl ⟨hs, ?_⟩⟩
    · refine Nat.le_trans hle (Nat.le_trans ?_ (Instant.le_roundUp _))
      show (s.asking r acks n).now.nanos ≤ last.nanos + c.watermark.interval.nanos + c.minSleep.nanos
      omega
    · subst hcancelled
      exact cut_of_not_cancelled ha
  · have hq : (s.asking r acks n).replay.request = .sleep d := by rw [request, hs]
    simp only [answer?, hq, Option.some.injEq] at ha
    obtain ⟨last', hlast', -, hlower, hupper⟩ := hsteady.last_of_sleeping hpos hs
    obtain rfl := Option.some.inj (hlast.symm.trans hlast')
    have hlower : c.minSleep.nanos ≤ d.nanos := hlower
    have hupper : d.nanos ≤ max c.minSleep.nanos
        (c.watermark.interval.nanos - ((s.asking r acks n).now.nanos - last.nanos)) := hupper
    obtain ⟨hafter, hrounded⟩ := hp.wake (s.asking r acks n).now d (by omega)
    have hle := s.cut_instant_le (Nat.le_of_lt hafter) .slept
    rw [ha] at hle
    refine ⟨?_, fun hcancelled ↦ Or.inr ⟨by simp [hs], ?_⟩⟩
    · refine Nat.le_trans hle (Nat.le_trans hrounded (Instant.roundUp_mono ?_))
      show (s.asking r acks n).now.nanos + d.nanos ≤
        last.nanos + c.watermark.interval.nanos + c.minSleep.nanos
      omega
    · subst hcancelled
      rw [cut_of_not_cancelled ha]
      exact hafter

/-- Every wait without a cycle comes nearer to the next one, or ends the loop. -/
theorem nearness_lt (hp : s.Prompt) (hj : s.Since (s.asking r acks) n j last)
    (hw : (s.asking r acks n).replay.IsWaiting)
    (ha : s.answer? (s.asking r acks n) = some (now, cancelled, a))
    (ho : (s.asking r acks n).replay.opened? (.answered now cancelled a) = none) :
    ¬ (s.asking r acks (n + 1)).replay.IsLooping ∨
      nearness c last (s.asking r acks (n + 1)) < nearness c last (s.asking r acks n) := by
  have hstands := s.stands_of_answer hr acks ha
  have hwithin := (s.steady_asking hr acks hc h₀ (n + 1)).within
  obtain ⟨hlast, -, hcycle⟩ := s.booked_of_since hr acks hj
  have hlt : (s.asking r acks n).now.nanos < last.nanos + c.watermark.interval.nanos :=
    s.now_lt_of_waiting hr acks hc h₀ hw hlast
  have hsince := (rhythm_of_quiet hcycle ho).eventsSince
  rw [← hstands.emitter] at hsince
  have hwhen := (s.instant_of_waiting hr acks hc h₀ hp hw hlast ha).2
  rw [IsLooping, nearness, nearness, hstands.stage, hstands.now]
  cases cancelled with
  | true => exact Or.inl (not_isLooping_of_unchecked hw (heeds_of_answer? ha) rfl)
  | false =>
    -- the time that is left is the same after a pull, and less after a sleep
    have htime (count : Nat) :
        ((s.asking r acks n).replay.stage = .pulling ∧
          ((last.after c.watermark.interval).nanos - now.nanos) * count =
            ((last.after c.watermark.interval).nanos - (s.asking r acks n).now.nanos) * count) ∨
          ((s.asking r acks n).replay.stage ≠ .pulling ∧
            ((last.after c.watermark.interval).nanos - now.nanos) * count + count ≤
              ((last.after c.watermark.interval).nanos - (s.asking r acks n).now.nanos) * count) := by
      rcases hwhen rfl with ⟨hs, rfl⟩ | ⟨hs, hlater⟩
      · exact Or.inl ⟨hs, rfl⟩
      · refine Or.inr ⟨hs, ?_⟩
        rw [← Nat.succ_mul]
        refine Nat.mul_le_mul_right count ?_
        have hlater : (s.asking r acks n).now.nanos < now.nanos := hlater
        show last.nanos + c.watermark.interval.nanos - now.nanos + 1 ≤
          last.nanos + c.watermark.interval.nanos - (s.asking r acks n).now.nanos
        omega
    have hcount := htime (2 * c.watermark.eventCount + 2)
    generalize ((last.after c.watermark.interval).nanos - now.nanos) * (2 * c.watermark.eventCount + 2) = left'
      at hcount ⊢
    generalize ((last.after c.watermark.interval).nanos - (s.asking r acks n).now.nanos) *
      (2 * c.watermark.eventCount + 2) = left at hcount ⊢
    rcases answer_of_waiting hw (heeds_of_answer? ha) ho with hend | ⟨hs', hsent⟩ | ⟨e, d, hs'⟩
    · exact Or.inl hend
    · refine Or.inr ?_
      obtain ⟨x, hx⟩ := Option.isSome_iff_exists.1 hsent
      rw [hx, Option.toList_some, List.length_singleton] at hsince
      rw [hs']
      rcases hcount with ⟨hs, hsame⟩ | ⟨-, hless⟩
      · rw [hs]
        dsimp only
        omega
      · dsimp only
        omega
    · refine Or.inr ?_
      rw [hs']
      rcases hcount with ⟨hs, hsame⟩ | ⟨-, hless⟩
      · rw [hs]
        dsimp only
        omega
      · dsimp only
        omega

/-- While an event is pending the next cycle begins in time, or the loop ends in time. -/
theorem begins_in_time (hp : s.Prompt) (hj : s.Since (s.asking r acks) n j last)
    (htime : ∀ k x, j < k → k < n → s.sight? (s.asking r acks k) = some x → x.instant ≤ latest c last) :
    ∃ n, s.Since (s.asking r acks) n j last ∧
      (∀ k x, j < k → k ≤ n → s.sight? (s.asking r acks k) = some x → x.instant ≤ latest c last) ∧
      ((∃ now, s.BeginsAt (s.asking r acks) n now) ∨ s.sight? (s.asking r acks n) = none) := by
  induction hμ : nearness c last (s.asking r acks n) using Nat.strongRecOn generalizing n with
  | ind μ ih =>
    subst hμ
    obtain ⟨hlast, -, hcycle⟩ := s.booked_of_since hr acks hj
    cases ha : s.answer? (s.asking r acks n) with
    | none =>
      have hnone := sight?_of_no_answer ha
      refine ⟨n, hj, fun k x hk hn hx ↦ ?_, Or.inr hnone⟩
      rcases Nat.lt_or_ge k n with hlt | hge
      · exact htime k x hk hlt hx
      · obtain rfl : k = n := by omega
        exact absurd (hnone.symm.trans hx) (by simp)
    | some y =>
      obtain ⟨now, cancelled, a⟩ := y
      have hw : (s.asking r acks n).replay.IsWaiting := by
        have hl := s.isLooping_of_answer? ha
        have hnot := not_emitting_of_cycle? hcycle
        cases hs : (s.asking r acks n).replay.stage with
        | opening =>
          have hnone := ((s.steady_asking hr acks hc h₀ n).opening hs).1
          exact absurd (hnone.symm.trans hlast) (by simp)
        | pulling => exact Or.inl hs
        | sleeping e d => exact Or.inr ⟨e, d, hs⟩
        | emitting cycle e checkedAt => exact absurd hs (hnot cycle e checkedAt)
        | _ => simp [IsLooping, hs] at hl
      have hsight := sight?_of_answer ha
      have htime' : ∀ k x, j < k → k ≤ n → s.sight? (s.asking r acks k) = some x →
          x.instant ≤ latest c last := by
        intro k x hk hn hx
        rcases Nat.lt_or_ge k n with hlt | hge
        · exact htime k x hk hlt hx
        · obtain rfl : k = n := by omega
          obtain rfl := Option.some.inj (hsight.symm.trans hx)
          exact (s.instant_of_waiting hr acks hc h₀ hp hw hlast ha).1
      cases ho : (s.asking r acks n).replay.opened? (.answered now cancelled a) with
      | some w => exact ⟨n, hj, htime', Or.inl ⟨now, _, hsight, by simp [sight, ho], rfl⟩⟩
      | none =>
        have hj' := hj.succ (not_beginsAt_of_unopened ha ho)
        rcases s.nearness_lt hr acks hc h₀ hp hj hw ha ho with hend | hnearer
        · have hnone : s.answer? (s.asking r acks (n + 1)) = none :=
            Option.eq_none_iff_forall_ne_some.2 fun y hy ↦ hend (s.isLooping_of_answer? hy)
          refine ⟨n + 1, hj', fun k x hk hn hx ↦ ?_, Or.inr (sight?_of_no_answer hnone)⟩
          rcases Nat.lt_or_ge n k with hlt | hge
          · obtain rfl : k = n + 1 := by omega
            exact absurd ((sight?_of_no_answer hnone).symm.trans hx) (by simp)
          · exact htime' k x hk hge hx
        · exact ih _ hnearer hj' (fun k x hk hn ↦ htime' k x hk (Nat.le_of_lt_succ hn)) rfl

end Steady

end Asking

/-! ### The cadence -/

theorem steady_start {c : ReplayConfig} (hc : c.validate = .ok ()) (t : Tracker) (i : Instruments) :
    (start c t i).stage = .opening ∧ Replay.Steady c (start c t i) Instant.start := by
  have hs : (start c t i).stage = .opening := by
    rw [start]
    dsimp only
    rw [hc]
  refine ⟨hs, rfl, rfl, fun _ ↦ ⟨rfl, rfl⟩, Nat.zero_le _, ?_, ?_⟩
  · exact fun hpulling ↦ absurd (hs.symm.trans hpulling) (by simp)
  · exact fun e d hsleeping ↦ absurd (hs.symm.trans hsleeping) (by simp)

/-- A cycle begins with the first check of the run, or when as many events have been sent since the last one
as are configured, or when the interval has passed since it ended. No more events than that are sent between
two cycles. A sleep lasts for the shortest sleep at least, and at most until the interval has passed if
that is later. If the source yields without waiting, the next cycle begins at the latest when the interval
and the shortest sleep have passed, at the next whole millisecond, or the loop has ended by then. Listings and
puts may take any time, and handles may resolve at any. -/
theorem cycles_keep_cadence {c : ReplayConfig} (hc : c.validate = .ok ()) (s : Surroundings) (t : Tracker)
    (i : Instruments) (acks : Nat → List (Nat × Outcome)) :
    let run := s.asking (start c t i) acks
    (∀ n now, s.BeginsAt run n now → (∀ k < n, ¬ s.ChecksAt run k) ∨
      ∃ j last, s.Since run n j last ∧
        ((s.sends run n).length = (s.sends run j).length + c.watermark.eventCount ∨
          last.after c.watermark.interval ≤ now)) ∧
      (∀ n j last, s.Since run n j last →
        (s.sends run n).length ≤ (s.sends run j).length + c.watermark.eventCount) ∧
      (∀ n d, (run n).replay.request = .sleep d →
        c.minSleep ≤ d ∧ ∃ j last, s.Since run n j last ∧
          d ≤ max c.minSleep (c.watermark.interval.saturatingSub ((run n).now.since last))) ∧
      (s.Prompt → ∀ j last, s.EndsAt run j last → ∃ n, s.Since run n j last ∧
        (∀ k x, j < k → k ≤ n → s.sight? (run k) = some x →
          x.instant ≤ ((last.after c.watermark.interval).after c.minSleep).roundUp) ∧
        ((∃ now, s.BeginsAt run n now) ∨ s.sight? (run n) = none)) := by
  intro run
  obtain ⟨hs, h₀⟩ := steady_start hc t i
  have hr : Unwaiting (start c t i) := unwaiting_start c t i
  have hstart : ¬ (start c t i).IsWaiting := by simp [IsWaiting, hs]
  refine ⟨fun n now hb ↦ s.begins_cases hr acks hc h₀ hstart hb, fun n j last h ↦ s.sends_le hr acks hc h₀ h,
    fun n d hq ↦ s.sleep_bounds hr acks hc h₀ hstart hq, fun hp j last hends ↦ ?_⟩
  exact s.begins_in_time hr acks hc h₀ hp (.of_ends hends) fun k x hk hn ↦ absurd hn (by omega)

/-- Three events that are there when they are asked for, and a destination that takes five milliseconds for
every listing and put. -/
def unhurried : Surroundings where
  pull calls := (.ok threeEvents[calls.length - 1]?, calls.getLastD Instant.start)
  list calls := (.ok ⟨[⟨"shard", "0"⟩], none⟩, (calls.getLastD Instant.start).after (Span.ofMillis 5))
  put calls := (.ok shardAck, (calls.getLastD Instant.start).after (Span.ofMillis 5))
  wake now d := (now.after d).roundUp
  cancelledAt := none

/-- Nobody waits for the source, and the sleeps end when they should. -/
theorem prompt_unhurried : unhurried.Prompt where
  pull calls now := by simp [unhurried]
  wake now d hd := by
    refine ⟨Nat.lt_of_lt_of_le ?_ (Instant.le_roundUp _), Nat.le_refl _⟩
    exact Nat.lt_add_of_pos_right hd

/-- The first cycle ends after ten milliseconds. The second event comes a second after the first, and the next
cycle follows it, with the pull of the third. -/
theorem cycles_keep_cadence_unhurried :
    let c : ReplayConfig := { everyEvent with speedup := Binary64.ofNat 1 }
    let s := unhurried
    let run := s.asking (start c {} {}) fun _ ↦ []
    let last : Instant := Instant.start.after (Span.ofMillis 10)
    let now : Instant := Instant.start.after (Span.ofSeconds 1)
    c.validate = .ok () ∧ s.Prompt ∧ s.EndsAt run 3 last ∧ (run 4).replay.request = .sleep (Span.ofMillis 990) ∧
      s.BeginsAt run 5 now ∧ s.ChecksAt run 1 ∧
      (∃ j last, s.Since run 5 j last ∧
        ((s.sends run 5).length = (s.sends run j).length + 1 ∨ last.after (Span.ofSeconds 10) ≤ now)) ∧
      ∃ n, s.Since run n 3 last ∧
        (∀ k x, 3 < k → k ≤ n → s.sight? (run k) = some x →
          x.instant ≤ ((last.after (Span.ofSeconds 10)).after (Span.ofMillis 10)).roundUp) ∧
        ((∃ now, s.BeginsAt run n now) ∨ s.sight? (run n) = none) := by
  intro c s run last now
  have hvalid : c.validate = .ok () := by
    have hnone : c.fault?.isNone := by decide +kernel
    rw [ReplayConfig.validate, Option.isNone_iff_eq_none.1 hnone]
  have hends : s.EndsAt run 3 last := by decide +kernel
  have hsleeps : (run 4).replay.request = .sleep (Span.ofMillis 990) := by decide +kernel
  have hbegins : s.BeginsAt run 5 now := by decide +kernel
  have hchecks : s.ChecksAt run 1 := by decide +kernel
  obtain ⟨hwhy, -, -, hnext⟩ := cycles_keep_cadence hvalid s {} {} fun _ ↦ []
  refine ⟨hvalid, prompt_unhurried, hends, hsleeps, hbegins, hchecks, ?_, hnext prompt_unhurried 3 last hends⟩
  exact (hwhy 5 now hbegins).resolve_left fun hnone ↦ hnone 1 (by omega) hchecks

end Surroundings

end Tidemark
