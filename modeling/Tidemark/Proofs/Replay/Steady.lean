import Tidemark.Proofs.Pacing.Origin
import Tidemark.Proofs.Replay.Exchanged
import Tidemark.Proofs.Replay.Veiled

/-!
# A replay between two cycles

Whenever the loop comes to its head, no cycle is due: the first event is sent before any check, a check that
finds a cycle due runs it, and a cycle that has just ended is not due again at once.

```
 opening ── first event, due ──> pulling ── check ──> due? ── no ──> head ──> pulling, sleeping
                                    ^                  └─ yes ─> cycle ─> booked ──^
```

So a sleep begins with time left until the next cycle, and is no longer than that or the shortest sleep;
`Steady` says this, and `steady_answer` that the answers keep it. An answer after which the loop waits again
has ended a cycle or has begun none (`waited_of_answer`).
-/

namespace Tidemark

/-- A configuration that is accepted has spans and counts above zero. -/
theorem ReplayConfig.pos_of_validate {c : ReplayConfig} (hc : c.validate = .ok ()) :
    0 < c.minSleep.nanos ∧ 0 < c.watermark.interval.nanos ∧ 0 < c.watermark.eventCount := by
  have hnone : c.fault? = none := by
    rw [validate] at hc
    split at hc
    · exact absurd hc (by simp)
    · assumption
  have hpos {d : Span} (hd : d ≠ Span.zero) : 0 < d.nanos :=
    Nat.pos_of_ne_zero fun hzero ↦ hd (congrArg Span.mk hzero)
  simp only [fault?] at hnone
  split at hnone
  · exact absurd hnone (by simp)
  split at hnone
  · exact absurd hnone (by simp)
  split at hnone
  · exact absurd hnone (by simp)
  split at hnone
  · exact absurd hnone (by simp)
  split at hnone
  · exact absurd hnone (by simp)
  exact ⟨hpos (by assumption), hpos (by assumption), Nat.pos_of_ne_zero (by assumption)⟩

namespace Emitter

variable {e : Emitter} {now : Instant}

/-- No cycle is due as long as neither the events nor the time since the last one are enough. -/
theorem isDue_eq_false_iff (hpos : 0 < e.config.interval.nanos) :
    e.isDue now = false ↔
      e.eventsSince < e.config.eventCount ∧
        ∃ last, e.lastCycle = some last ∧ now < last.after e.config.interval := by
  rw [isDue, decide_eq_false_iff_not, timeUntilDue]
  split
  · rename_i hcount
    constructor
    · intro hne
      exact absurd rfl hne
    · rintro ⟨hlt, -⟩
      exact absurd hcount (Nat.not_le_of_lt hlt)
  · rename_i hcount
    have hlt := Nat.lt_of_not_le hcount
    cases e.lastCycle with
    | none => simp
    | some last =>
      have hleft : e.config.interval.saturatingSub (now.since last) ≠ Span.zero ↔
          now < last.after e.config.interval := by
        show ¬ ((⟨_⟩ : Span) = ⟨0⟩) ↔ now.nanos < last.nanos + e.config.interval.nanos
        rw [Span.mk.injEq]
        show ¬ e.config.interval.nanos - (now.nanos - last.nanos) = 0 ↔ _
        omega
      simpa [hlt] using hleft

/-- As long as no cycle is due, what is left is the rest of the interval. -/
theorem timeUntilDue_of_not_due (hpos : 0 < e.config.interval.nanos) {last : Instant}
    (hdue : e.isDue now = false) (hlast : e.lastCycle = some last) :
    e.timeUntilDue now = e.config.interval.saturatingSub (now.since last) := by
  have hlt := ((isDue_eq_false_iff hpos).1 hdue).1
  rw [timeUntilDue, if_neg (Nat.not_le_of_lt hlt), hlast]

/-- A cycle that has just ended is not due again. -/
theorem isDue_booked (hpos : 0 < e.config.interval.nanos) (hcount : 0 < e.config.eventCount) (w : Timestamp)
    (outcome : EmitOutcome) : (e.booked now w outcome).isDue now = false := by
  have hconfig : (e.booked now w outcome).config = e.config := by cases outcome <;> rfl
  refine (isDue_eq_false_iff (hconfig ▸ hpos)).2 ?_
  rw [hconfig]
  exact ⟨hcount, now, rfl, Nat.lt_add_of_pos_right hpos⟩

end Emitter

namespace Replay

/-! ### Steadiness -/

/-- The loop waits for the event after the one just sent, or in a sleep. -/
def IsWaiting (r : Replay) : Prop :=
  r.stage = .pulling ∨ ∃ e d, r.stage = .sleeping e d

/-- How a replay stands to its next cycle at the instant of its last answer. -/
structure Steady (c : ReplayConfig) (r : Replay) (now : Instant) : Prop where
  config : r.config = c
  emitter : r.emitter.config = c.watermark
  opening : r.stage = .opening → r.emitter.lastCycle = none ∧ r.emitter.eventsSince = 0
  within : r.emitter.eventsSince ≤ c.watermark.eventCount
  pulling : r.stage = .pulling →
    ∀ last, r.emitter.lastCycle = some last → now < last.after c.watermark.interval
  sleeping : ∀ e d, r.stage = .sleeping e d →
    r.emitter.isDue now = false ∧ c.minSleep ≤ d ∧ d ≤ max c.minSleep (r.emitter.timeUntilDue now)

variable {c : ReplayConfig} {r : Replay} {now : Instant} {cancelled : Bool} {e : Event} {a : ReplayAnswer}

/-- Whether a replay is steady depends on its configuration, its stage and its emitter. -/
theorem Steady.congr {r' : Replay} (h : Steady c r now) (hconfig : r'.config = r.config)
    (hstage : r'.stage = r.stage) (hemitter : r'.emitter = r.emitter) : Steady c r' now where
  config := hconfig.trans h.config
  emitter := hemitter ▸ h.emitter
  opening := hstage ▸ hemitter ▸ h.opening
  within := hemitter ▸ h.within
  pulling := hstage ▸ hemitter ▸ h.pulling
  sleeping := hstage ▸ hemitter ▸ h.sleeping

/-- A sleep begins after the end of a cycle, with time left until the next one. -/
theorem Steady.last_of_sleeping (h : Steady c r now) (hpos : 0 < c.watermark.interval.nanos) {d : Span}
    (hs : r.stage = .sleeping e d) :
    ∃ last, r.emitter.lastCycle = some last ∧ now < last.after c.watermark.interval ∧ c.minSleep ≤ d ∧
      d ≤ max c.minSleep (c.watermark.interval.saturatingSub (now.since last)) := by
  obtain ⟨hidle, hmin, hmax⟩ := h.sleeping e d hs
  have hpos' : 0 < r.emitter.config.interval.nanos := h.emitter ▸ hpos
  obtain ⟨-, last, hlast, hlt⟩ := (Emitter.isDue_eq_false_iff hpos').1 hidle
  rw [Emitter.timeUntilDue_of_not_due hpos' hidle hlast, h.emitter] at hmax
  exact ⟨last, hlast, h.emitter ▸ hlt, hmin, hmax⟩

/-- Nothing is to be said of the time while a cycle is under way or the loop has ended. -/
theorem steady_of_busy (hconfig : r.config = c) (hemitter : r.emitter.config = c.watermark)
    (hwithin : r.emitter.eventsSince ≤ c.watermark.eventCount) (hopening : r.stage ≠ .opening)
    (hbusy : ¬ r.IsWaiting) : Steady c r now where
  config := hconfig
  emitter := hemitter
  opening hs := absurd hs hopening
  within := hwithin
  pulling hs := absurd (Or.inl hs) hbusy
  sleeping e d hs := absurd (Or.inr ⟨e, d, hs⟩) hbusy

/-- A send is counted towards the next cycle. -/
theorem steady_of_launched {r' : Replay} (hl : Launched r r' e) (hconfig : r.config = c)
    (hemitter : r.emitter.config = c.watermark) (hcount : r.emitter.eventsSince < c.watermark.eventCount)
    (hleft : ∀ last, r.emitter.lastCycle = some last → now < last.after c.watermark.interval) :
    Steady c r' now where
  config := hl.config.trans hconfig
  emitter := by
    rw [hl.emitter]
    exact hemitter
  opening hs := absurd (hl.stage.symm.trans hs) (by simp)
  within := by
    rw [hl.emitter]
    exact hcount
  pulling _ last hlast := by
    rw [hl.emitter] at hlast
    exact hleft last hlast
  sleeping e d hs := absurd (hl.stage.symm.trans hs) (by simp)

section Answers

variable (hc : c.validate = .ok ())
include hc

/-- At its head the loop becomes steady if no cycle is due. -/
theorem steady_turn (hconfig : r.config = c) (hemitter : r.emitter.config = c.watermark)
    (hdue : r.emitter.isDue now = false) : Steady c (r.turn now cancelled e).1 now := by
  obtain ⟨-, hpos, -⟩ := ReplayConfig.pos_of_validate hc
  obtain ⟨hcount, last, hlast, hleft⟩ := (Emitter.isDue_eq_false_iff (hemitter ▸ hpos)).1 hdue
  rw [hemitter] at hcount hleft
  rcases r.turn_cases now cancelled e with ⟨i, hhalted⟩ | ⟨hl, -⟩ | ⟨d, hslept, hmin, hmax⟩
  · rw [hhalted]
    exact steady_of_busy hconfig hemitter (Nat.le_of_lt hcount) (by simp) (by simp [IsWaiting])
  · refine steady_of_launched hl hconfig hemitter hcount ?_
    intro last' hlast'
    obtain rfl := Option.some.inj (hlast.symm.trans hlast')
    exact hleft
  · rw [hslept]
    refine ⟨hconfig, hemitter, by simp, Nat.le_of_lt hcount, by simp, ?_⟩
    intro e' d' hs
    obtain ⟨rfl, rfl⟩ := ReplayStage.sleeping.inj hs
    rw [hconfig] at hmin hmax
    exact ⟨hdue, hmin, hmax⟩

/-- The first event is sent as soon as it is there. -/
theorem steady_begin {now₀ : Instant} (h : Steady c r now₀) (hs : r.stage = .opening) :
    Steady c (r.begin now false e).1 now := by
  obtain ⟨-, -, hcount⟩ := ReplayConfig.pos_of_validate hc
  obtain ⟨hnone, hzero⟩ := h.opening hs
  have hfinite : r.config.speedup.isFinite := h.config ▸ ReplayConfig.isFinite_speedup hc
  obtain ⟨gap, hgap⟩ :=
    Pace.decide_origin (p := ⟨now, e.timestamp, r.config.speedup, r.config.minSleep⟩) hfinite
  obtain ⟨s, i, he⟩ := r.begin_eq now false e
  let r₁ : Replay :=
    { r with
      pace := ⟨now, e.timestamp, r.config.speedup, r.config.minSleep⟩
      statistics := s, instruments := i }
  have hdue : r₁.pace.decide now e.timestamp = .due gap := hgap
  rw [he, turn_of_due hdue]
  refine steady_of_launched (r := r₁) (launched_send r₁ e gap).1 h.config h.emitter ?_ ?_
  · show r.emitter.eventsSince < _
    rw [hzero]
    exact hcount
  · intro last hlast
    exact absurd (hnone.symm.trans hlast) (by simp)

theorem steady_emitted (hconfig : r.config = c) (hemitter : r.emitter.config = c.watermark) (w : Timestamp)
    (outcome : EmitOutcome) (checkedAt : Instant) :
    Steady c (r.emitted w outcome checkedAt now cancelled e).1 now := by
  obtain ⟨-, hpos, hcount⟩ := ReplayConfig.pos_of_validate hc
  have hbooked : (r.emitter.booked now w outcome).config = r.emitter.config := by cases outcome <;> rfl
  obtain ⟨s, i, he⟩ := r.emitted_eq w outcome checkedAt now cancelled e
  rw [he]
  exact steady_turn hc hconfig (hbooked.trans hemitter)
    (Emitter.isDue_booked (hemitter ▸ hpos) (hemitter ▸ hcount) w outcome)

theorem steady_check {now₀ : Instant} (h : Steady c r now₀) : Steady c (r.check now cancelled e).1 now := by
  rw [check]
  split
  · dsimp only
    split
    · exact steady_of_busy h.config h.emitter h.within (by simp) (by simp [IsWaiting])
    · exact steady_emitted hc h.config h.emitter _ _ _
  · rename_i hdue
    obtain ⟨s, i, he⟩ := r.report_eq now now cancelled e
    rw [he]
    exact steady_turn hc h.config h.emitter (by simpa using hdue)

theorem steady_advance {now₀ : Instant} (h : Steady c r now₀) (cycle : Cycle) (i : Instruments)
    (checkedAt : Instant) : Steady c (r.advance cycle i checkedAt now cancelled e).1 now := by
  rw [advance]
  split
  · exact steady_emitted (r := { r with instruments := i }) hc h.config h.emitter _ _ _
  · exact steady_of_busy h.config h.emitter h.within (by simp [drain]) (by simp [IsWaiting, drain])
  · exact steady_of_busy h.config h.emitter h.within (by simp) (by simp [IsWaiting])

/-- The answers that the loop waits for keep it steady, whenever they come. -/
theorem steady_answer {now₀ : Instant} (h : Steady c r now₀) (hr : r.IsLooping) (ha : r.heeds a = true) :
    Steady c (r.answer now cancelled a).1 now := by
  have hdrain (n : Notice) (ending : Except Fault Unit) : Steady c ((r.note n).drain ending) now :=
    steady_of_busy h.config h.emitter h.within (by simp [drain]) (by simp [IsWaiting, drain])
  have hdrain' (ending : Except Fault Unit) : Steady c (r.drain ending) now :=
    steady_of_busy h.config h.emitter h.within (by simp [drain]) (by simp [IsWaiting, drain])
  cases hs : r.stage with
  | opening =>
    cases a with
    | pulled result =>
      simp only [answer, hs]
      cases cancelled with
      | true => exact hdrain _ _
      | false =>
        rcases result with fault | _ | first
        · exact hdrain' _
        · exact hdrain _ _
        · exact steady_begin hc h hs
    | _ => simp [heeds, request, hs] at ha
  | pulling =>
    cases a with
    | pulled result =>
      simp only [answer, hs]
      cases cancelled with
      | true => exact hdrain' _
      | false =>
        rcases result with fault | _ | next
        · exact hdrain' _
        · exact hdrain' _
        · exact steady_check hc h
    | _ => simp [heeds, request, hs] at ha
  | sleeping pending d =>
    cases a with
    | slept =>
      simp only [answer, hs]
      split
      · exact hdrain _ _
      · exact steady_check hc h
    | _ => simp [heeds, request, hs] at ha
  | emitting cycle pending checkedAt =>
    cases a with
    | listed result =>
      simp only [answer, hs]
      exact steady_advance hc h _ _ _
    | wrote result =>
      simp only [answer, hs]
      exact steady_advance hc h _ _ _
    | _ =>
      simp only [answer, hs]
      exact steady_of_busy h.config h.emitter h.within (by simp [hs]) (by simp [IsWaiting, hs])
  | _ => simp [IsLooping, hs] at hr

end Answers

/-! ### From one wait to the next -/

theorem IsWaiting.isLooping (hr : r.IsWaiting) : r.IsLooping := by
  rcases hr with hs | ⟨e, d, hs⟩ <;> simp [IsLooping, hs]

theorem IsWaiting.not_emitting (hr : r.IsWaiting) (cycle : Cycle) (e : Event) (checkedAt : Instant) :
    r.stage ≠ .emitting cycle e checkedAt := by
  rcases hr with hs | ⟨e, d, hs⟩ <;> simp [hs]

theorem cycle?_of_not_emitting (hr : ∀ cycle e checkedAt, r.stage ≠ .emitting cycle e checkedAt) :
    r.cycle? = none := by
  refine Option.eq_none_iff_forall_ne_some.2 fun cycle hcycle ↦ ?_
  obtain ⟨e, checkedAt, hs⟩ := cycle?_eq_some_iff.1 hcycle
  exact hr cycle e checkedAt hs

theorem not_emitting_of_cycle? (hr : r.cycle? = none) (cycle : Cycle) (e : Event) (checkedAt : Instant) :
    r.stage ≠ .emitting cycle e checkedAt := by
  intro hs
  exact absurd hr (by simp [cycle?, hs])

/-- A check is made while the loop waits. -/
theorem isWaiting_of_checked {h : Happening} {now : Instant} {e : Event}
    (hchecked : r.checked? h = some (now, e)) : r.IsWaiting := by
  rcases checked?_cases hchecked with ⟨hs, -⟩ | ⟨d, hs, -⟩
  · exact Or.inl hs
  · exact Or.inr ⟨e, d, hs⟩

theorem sleeping_of_request {d : Span} (hq : r.request = .sleep d) :
    ∃ e, r.stage = .sleeping e d := by
  cases hs : r.stage with
  | sleeping e d' =>
    simp only [request, hs, ReplayRequest.sleep.injEq] at hq
    exact ⟨e, by rw [hq]⟩
  | emitting cycle e checkedAt =>
    simp only [request, hs] at hq
    split at hq <;> exact absurd hq (by simp)
  | _ => simp [request, hs] at hq

/-- A cycle that takes its last answer leaves none under way. -/
theorem advance_cases (r : Replay) (cycle : Cycle) (i : Instruments) (checkedAt now : Instant)
    (cancelled : Bool) (e : Event) :
    ((∃ outcome, cycle.ended? = some (.ok outcome)) ∧
        (r.advance cycle i checkedAt now cancelled e).1.cycle? = none) ∨
      ((∀ outcome, cycle.ended? ≠ some (.ok outcome)) ∧
        ¬ (r.advance cycle i checkedAt now cancelled e).1.IsWaiting) := by
  rw [advance, Cycle.ended?]
  cases cycle.stage with
  | ended result =>
    cases result with
    | ok outcome =>
      exact Or.inl ⟨⟨outcome, rfl⟩, (emitted_totals { r with instruments := i } _ outcome _ now cancelled e).1⟩
    | error fault => exact Or.inr ⟨by simp, by simp [IsWaiting, drain]⟩
  | _ => exact Or.inr ⟨by simp, by simp [IsWaiting]⟩

/-- While a cycle is under way the loop waits again only after its good end. -/
theorem emitting_cases {cycle : Cycle} {checkedAt : Instant} (hs : r.stage = .emitting cycle e checkedAt)
    (now : Instant) (cancelled : Bool) (a : ReplayAnswer) :
    ((∃ outcome, r.cycleEnd? now cancelled a = some (.ok outcome)) ∧
        (r.answer now cancelled a).1.cycle? = none) ∨
      ((∀ outcome, r.cycleEnd? now cancelled a ≠ some (.ok outcome)) ∧
        ¬ (r.answer now cancelled a).1.IsWaiting) := by
  have hunchecked : r.opened? (.answered now cancelled a) = none :=
    opened?_of_cycle (cycle?_eq_some_iff.2 ⟨e, checkedAt, hs⟩)
  cases a with
  | listed result =>
    simp only [answer, cycleEnd?, hs, ← Cycle.ended?_listed cycle r.instruments]
    exact r.advance_cases _ _ _ now cancelled e
  | wrote result =>
    simp only [answer, cycleEnd?, hs, ← Cycle.ended?_wrote cycle r.instruments]
    exact r.advance_cases _ _ _ now cancelled e
  | _ => exact Or.inr ⟨by simp [cycleEnd?, hs, hunchecked], by simp [answer, IsWaiting, hs]⟩

/-- None is under way after an answer without which none was, unless one begins that is to be written. -/
theorem cycle?_answer (hr : r.cycle? = none)
    (hidle : r.opened? (.answered now cancelled a) = none ∨ r.emitter.config.enabled = false) :
    (r.answer now cancelled a).1.cycle? = none := by
  have hmove := r.move_step (.answered now cancelled a)
  rw [step] at hmove
  generalize r.answer now cancelled a = x at hmove
  cases hmove with
  | ignored _ _ => exact hr
  | launched _ _ hl => rw [cycle?, hl.stage]
  | opened _ ho hon =>
    rcases hidle with hnone | hoff
    · exact absurd (hnone.symm.trans ho) (by simp)
    · exact absurd (hoff.symm.trans hon) (by simp)
  | advanced hs _ => exact absurd hs (not_emitting_of_cycle? hr _ _ _)
  | ended _ hend => exact cycle?_eq_none_of_not_looping hend.not_looping
  | _ => rfl

/-- An answer without the end or the beginning of a cycle leaves the last cycle, and counts what it sends. -/
theorem rhythm_of_quiet (hcycle : r.cycle? = none)
    (ho : r.opened? (.answered now cancelled a) = none) :
    Rhythm r.emitter.lastCycle r.emitter.eventsSince (r.answer now cancelled a) := by
  have hrhythm := r.rhythm_answer now cancelled a
  rw [cycleEnd?_of_not_emitting (not_emitting_of_cycle? hcycle), ho] at hrhythm
  exact hrhythm

/-- A cycle that ends is not under way any more. -/
theorem cycle?_of_ends {outcome : EmitOutcome} (hend : r.cycleEnd? now cancelled a = some (.ok outcome)) :
    (r.answer now cancelled a).1.cycle? = none := by
  cases hr : r.cycle? with
  | some cycle =>
    obtain ⟨e, checkedAt, hs⟩ := cycle?_eq_some_iff.1 hr
    rcases emitting_cases hs now cancelled a with ⟨-, hnone⟩ | ⟨hnone, -⟩
    · exact hnone
    · exact absurd hend (hnone outcome)
  | none =>
    rw [cycleEnd?_of_not_emitting (not_emitting_of_cycle? hr)] at hend
    split at hend
    · rename_i hoff
      refine cycle?_answer hr (Or.inr ?_)
      simpa using (Bool.and_eq_true_iff.1 hoff).2
    · exact absurd hend (by simp)

/-- An answer after which the loop waits has ended a cycle, or it has begun none while the loop waited or had
just started. -/
theorem waited_of_answer (hw : (r.answer now cancelled a).1.IsWaiting) :
    (∃ outcome, r.cycleEnd? now cancelled a = some (.ok outcome)) ∨
      (r.opened? (.answered now cancelled a) = none ∧ (r.stage = .opening ∨ r.IsWaiting)) := by
  cases hr : r.cycle? with
  | some cycle =>
    obtain ⟨e, checkedAt, hs⟩ := cycle?_eq_some_iff.1 hr
    rcases emitting_cases hs now cancelled a with ⟨hend, -⟩ | ⟨-, hnot⟩
    · exact Or.inl hend
    · exact absurd hw hnot
  | none =>
    have hemitting := not_emitting_of_cycle? hr
    have hhead {now' : Instant} {c : Bool} {e : Event} {r₁ : Replay}
        (ha : r.AtHead (.answered now cancelled a) now' c e r₁) :
        (∃ outcome, r.cycleEnd? now cancelled a = some (.ok outcome)) ∨
          (r.opened? (.answered now cancelled a) = none ∧ (r.stage = .opening ∨ r.IsWaiting)) := by
      cases ha with
      | first hs => exact Or.inr ⟨opened?_eq_none (by simp [checked?, hs]), Or.inl hs⟩
      | unchecked hchecked ho => exact Or.inr ⟨ho, Or.inr (isWaiting_of_checked hchecked)⟩
      | disabled _ ho hoff =>
        refine Or.inl ⟨.disabled, ?_⟩
        rw [cycleEnd?_of_not_emitting hemitting, ho, hoff]
        rfl
      | emitted hs => exact absurd hs (hemitting _ _ _)
    have hmove := r.move_step (.answered now cancelled a)
    rw [step] at hmove
    generalize r.answer now cancelled a = x at hmove hw
    cases hmove with
    | ignored _ hchecked => exact Or.inr ⟨opened?_eq_none hchecked, Or.inr hw⟩
    | launched ha _ _ => exact hhead ha
    | slept ha => exact hhead ha
    | advanced hs _ => exact absurd hs (hemitting _ _ _)
    | ended _ hend => exact absurd hw.isLooping hend.not_looping
    | _ => exact absurd hw (by simp [IsWaiting])

/-- A check that opens no cycle has found none due. -/
theorem not_due_of_unopened {h : Happening} {now : Instant} {e : Event}
    (hchecked : r.checked? h = some (now, e)) (ho : r.opened? h = none) : ¬ r.emitter.isDue now := by
  rw [opened?, hchecked] at ho
  simpa using ho

/-- A wait that ends without a check ends the loop. -/
theorem not_isLooping_of_unchecked (hr : r.IsWaiting) (ha : r.heeds a = true)
    (hchecked : r.checked? (.answered now cancelled a) = none) :
    ¬ (r.answer now cancelled a).1.IsLooping := by
  rcases hr with hs | ⟨e, d, hs⟩
  · cases a with
    | pulled result =>
      cases cancelled with
      | true => exact not_isLooping_of_cut (Or.inr hs) now result
      | false =>
        rcases result with fault | _ | next
        · simp [answer, hs, drain, IsLooping]
        · simp [answer, hs, drain, IsLooping]
        · exact absurd hchecked (by simp [checked?, hs])
    | _ => simp [heeds, request, hs] at ha
  · cases a with
    | slept =>
      cases cancelled with
      | true => simp [answer, hs, drain, IsLooping]
      | false => exact absurd hchecked (by simp [checked?, hs])
    | _ => simp [heeds, request, hs] at ha

/-- A wait that ends without a cycle being due is followed by a send and another wait, by a sleep, or by the
end of the loop. -/
theorem answer_of_waiting (hr : r.IsWaiting) (ha : r.heeds a = true)
    (ho : r.opened? (.answered now cancelled a) = none) :
    ¬ (r.answer now cancelled a).1.IsLooping ∨
      ((r.answer now cancelled a).1.stage = .pulling ∧ (r.answer now cancelled a).2.isSome) ∨
        ∃ e d, (r.answer now cancelled a).1.stage = .sleeping e d := by
  cases hchecked : r.checked? (.answered now cancelled a) with
  | none => exact Or.inl (not_isLooping_of_unchecked hr ha hchecked)
  | some y =>
    obtain ⟨now', e⟩ := y
    obtain ⟨rfl, hanswer⟩ := answer_of_checked hchecked
    obtain ⟨s, i, he⟩ := r.report_eq now' now' false e
    rw [hanswer, check, if_neg (not_due_of_unopened hchecked ho), he]
    rcases turn_cases { r with statistics := s, instruments := i } now' false e with
      ⟨j, hhalted⟩ | ⟨hl, hsent⟩ | ⟨d, hslept, -⟩
    · exact Or.inl (by rw [hhalted]; exact id)
    · exact Or.inr (Or.inl ⟨hl.stage, by rw [hsent]; rfl⟩)
    · exact Or.inr (Or.inr ⟨e, d, by rw [hslept]⟩)

/-- No cycle has ended, and the loop waits for its source. -/
def IsFresh (r : Replay) : Prop :=
  r.emitter.lastCycle = none ∧ r.IsPulling

/-- As long as no cycle has ended and the loop waits for its source, nothing has been checked. -/
theorem fresh_of_answer (hf : (r.answer now cancelled a).1.IsFresh) :
    r.IsFresh ∧ r.checked? (.answered now cancelled a) = none := by
  have hmove := r.move_step (.answered now cancelled a)
  rw [step] at hmove
  obtain ⟨hnone, hpulling⟩ := hf
  generalize r.answer now cancelled a = x at hmove hnone hpulling
  cases hmove with
  | ignored _ hchecked => exact ⟨⟨hnone, hpulling⟩, hchecked⟩
  | launched ha _ hl =>
    rw [hl.emitter] at hnone
    cases ha with
    | first hs => exact ⟨⟨hnone, Or.inl hs⟩, by simp [checked?, hs]⟩
    | unchecked hchecked ho =>
      -- a check that finds no cycle due comes after the end of one
      have hlast : r.emitter.lastCycle = none := hnone
      refine absurd ?_ (not_due_of_unopened hchecked ho)
      rw [Emitter.isDue, Emitter.timeUntilDue, hlast]
      simp
    | disabled _ _ _ => exact absurd hnone (by simp [Emitter.recordEvents, Emitter.booked, Emitter.complete])
    | emitted _ => exact absurd hnone (by simp [Emitter.recordEvents, Emitter.booked, Emitter.complete])
  | ended _ hend => exact absurd hpulling.isLooping hend.not_looping
  | _ => exact absurd hpulling (by simp [IsPulling])

end Replay

end Tidemark
