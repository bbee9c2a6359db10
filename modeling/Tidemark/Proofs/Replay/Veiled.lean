import Tidemark.Proofs.Replay.Runs

/-!
# What the loop does not look at

`Replay.veiled` hides whatever the completions of sends change: the tracker, the books of the sends but for
the next number, the watermark that was computed last and the one of a cycle under way, and the instruments.
The loop looks at none of it when it decides what to do next:

```
         answer                       completed
   r ────────────> r'           r ──────────────> r'
   |               |            |                 |
 veiled          veiled       veiled            veiled
   v    answer     v            v                 v
   ·  ──────────>  ·            ·  ═════════════  ·
```

On the left (`veil_answer`), the same event is sent in both rows; on the right (`alike_complete`),
nothing happens below. What is seen of a step from outside, `Replay.sight`, is seen through the veil as well
(`sight_veiled`); the ends of cycles among it, and the sends since, are the ones that the emitter books
(`rhythm_answer`).
-/

namespace Tidemark

/-! ### The veil -/

/-- A cycle whose watermark is hidden. -/
def Cycle.veiled (c : Cycle) : Cycle :=
  { c with watermark := default }

def ReplayStage.veiled : ReplayStage → ReplayStage
  | emitting cycle pending checkedAt => emitting cycle.veiled pending checkedAt
  | stage => stage

theorem ReplayStage.veiled_veiled (stage : ReplayStage) : stage.veiled.veiled = stage.veiled := by
  cases stage <;> rfl

namespace Replay

/-- The replay without what the completions change. -/
def veiled (r : Replay) : Replay :=
  { r with
    stage := r.stage.veiled
    emitter := { r.emitter with lastWatermark := none }
    dispatch := { nextId := r.dispatch.nextId }
    tracker := {}
    instruments := {} }

/-- The two replays differ in nothing but what the completions change. -/
def Alike (r r' : Replay) : Prop :=
  r.veiled = r'.veiled

theorem alike_of {r r' : Replay} (hconfig : r.config = r'.config)
    (hstage : r.stage.veiled = r'.stage.veiled) (hpace : r.pace = r'.pace)
    (hprevious : r.previous = r'.previous) (hlag : r.lag = r'.lag) (hsent : r.eventsSent = r'.eventsSent)
    (hemitter : { r.emitter with lastWatermark := none } = { r'.emitter with lastWatermark := none })
    (hstatistics : r.statistics = r'.statistics) (hnext : r.dispatch.nextId = r'.dispatch.nextId) :
    r.Alike r' := by
  rw [Alike, veiled, veiled, hconfig, hstage, hpace, hprevious, hlag, hsent, hemitter, hstatistics, hnext]

/-- The totals of the two replays differ in nothing but the failures and the last watermark. -/
theorem Alike.summary {r r' : Replay} (h : r.Alike r') :
    { r.summary with
      sendFailures := r'.dispatch.failures
      lastWatermark := r'.emitter.lastWatermark } = r'.summary := by
  have hveiled : r.veiled = r'.veiled := h
  show (⟨r.veiled.eventsSent, r'.dispatch.failures, r.veiled.emitter.recordsEmitted,
    r.veiled.emitter.cyclesSkipped, r'.emitter.lastWatermark⟩ : Summary) = r'.summary
  rw [hveiled]
  rfl

/-- What a step comes to, seen through the veil. -/
def veil (x : Replay × Option Send) : Replay × Option Send :=
  (x.1.veiled, x.2)

end Replay

/-! ### Cycles -/

namespace Cycle

/-- What a cycle ended with, if it has ended. -/
def ended? (c : Cycle) : Option (Except Fault EmitOutcome) :=
  match c.stage with
  | .ended result => some result
  | _ => none

variable (c : Cycle) (i i' : Instruments)

theorem ended?_veiled : c.veiled.ended? = c.ended? :=
  rfl

theorem finish_veiled (result : Except Fault Nat) :
    (c.finish result i).1.veiled = (c.veiled.finish result i').1.veiled := by
  cases result with
  | ok partitions => rfl
  | error fault =>
    rw [finish, finish]
    split <;> rfl

theorem write_veiled (left : List Descriptor) (listed : Nat) :
    (c.write left listed i).1.veiled = (c.veiled.write left listed i').1.veiled := by
  cases left with
  | nil => exact c.finish_veiled i i' _
  | cons d rest => rfl

theorem listed_veiled (answer : Except Fault Page) :
    (c.listed answer i).1.veiled = (c.veiled.listed answer i').1.veiled := by
  cases hstage : c.stage with
  | listing l =>
    have hveiled : c.veiled.stage = .listing l := hstage
    simp only [listed, hstage, hveiled]
    cases answer with
    | error fault => exact c.finish_veiled i i' _
    | ok page =>
      dsimp only
      split
      · exact c.write_veiled i i' _ _
      · rfl
  | _ =>
    have hveiled : c.veiled.stage = c.stage := rfl
    simp only [listed, hveiled, hstage]
    rfl

theorem wrote_veiled (answer : Outcome) :
    (c.wrote answer i).1.veiled = (c.veiled.wrote answer i').1.veiled := by
  have hveiled : c.veiled.stage = c.stage := rfl
  rw [wrote, wrote, hveiled]
  split
  · cases answer with
    | error fault => exact c.finish_veiled i i' _
    | ok ack => exact c.write_veiled _ _ _ _
  · rfl

/-- How a page ends a cycle does not depend on the instruments. -/
theorem ended?_listed (answer : Except Fault Page) :
    (c.listed answer i).1.ended? = (c.listed answer {}).1.ended? := by
  have hveiled : (c.listed answer i).1.veiled = (c.listed answer {}).1.veiled :=
    (c.listed_veiled i {} answer).trans (c.listed_veiled {} {} answer).symm
  rw [← ended?_veiled, hveiled, ended?_veiled]

theorem ended?_wrote (answer : Outcome) :
    (c.wrote answer i).1.ended? = (c.wrote answer {}).1.ended? := by
  have hveiled : (c.wrote answer i).1.veiled = (c.wrote answer {}).1.veiled :=
    (c.wrote_veiled i {} answer).trans (c.wrote_veiled {} {} answer).symm
  rw [← ended?_veiled, hveiled, ended?_veiled]

end Cycle

/-- Statistics go on the same whatever they report. -/
theorem Statistics.maybeReport_eq (s : Statistics) (now : Instant) (w w' : Option Timestamp) (lag : Int)
    (i i' : Instruments) : (s.maybeReport now w lag i).2.1 = (s.maybeReport now w' lag i').2.1 := by
  rw [maybeReport, maybeReport, report?, report?]
  cases s.isDue now <;> rfl

namespace Replay

/-! ### The loop -/

section Loop

variable (r : Replay) (now : Instant) (cancelled : Bool) (e : Event)

theorem veiled_note (n : Notice) : (r.note n).veiled = r.veiled :=
  rfl

theorem veiled_drain (ending : Except Fault Unit) :
    (r.drain ending).veiled = { r.veiled with stage := .flushing ending } :=
  rfl

theorem veiled_veiled : r.veiled.veiled = r.veiled := by
  rw [veiled]
  simp only [veiled, ReplayStage.veiled_veiled]

theorem veil_send (gap : Binary64) : veil (r.send e gap) = veil (r.veiled.send e gap) := by
  have hprevious : r.veiled.previous = r.previous := rfl
  rw [send, send, hprevious]
  cases r.previous with
  | none => rfl
  | some previous =>
    dsimp only
    split <;> rfl

/-- The head of the loop comes to the same behind the veil. -/
theorem veil_turn : veil (r.turn now cancelled e) = veil (r.veiled.turn now cancelled e) := by
  cases cancelled with
  | true =>
    rw [turn, turn, if_pos rfl, if_pos rfl, veil, veil, veiled_drain, veiled_drain, veiled_note,
      veiled_note, veiled_veiled]
  | false =>
    have hpace : r.veiled.pace = r.pace := rfl
    rw [turn, turn, if_neg Bool.false_ne_true, if_neg Bool.false_ne_true, hpace]
    cases r.pace.decide now e.timestamp with
    | due gap => exact r.veil_send e gap
    | wait d => rfl

variable {r} {r' : Replay}

/-- Replays that are alike come to the same at the head of the loop. -/
theorem Alike.turn (h : r.Alike r') : veil (r.turn now cancelled e) = veil (r'.turn now cancelled e) := by
  rw [veil_turn r, veil_turn r', h]

/-- A report leads to the same behind the veil. -/
theorem veil_report (r : Replay) (checkedAt : Instant) :
    veil (r.report checkedAt now cancelled e) = veil (r.veiled.report checkedAt now cancelled e) := by
  refine Alike.turn now cancelled e ?_
  exact alike_of rfl r.stage.veiled_veiled.symm rfl rfl rfl rfl rfl
    (r.statistics.maybeReport_eq checkedAt _ _ r.lag _ _) rfl

/-- Replays that are alike go on the same after a report. -/
theorem Alike.report (h : r.Alike r') (checkedAt : Instant) :
    veil (r.report checkedAt now cancelled e) = veil (r'.report checkedAt now cancelled e) := by
  rw [veil_report now cancelled e r, veil_report now cancelled e r', h]

/-- The end of a cycle comes to the same behind the veil, whatever its watermark was. -/
theorem veil_emitted (r : Replay) (w w' : Timestamp) (outcome : EmitOutcome) (checkedAt : Instant) :
    veil (r.emitted w outcome checkedAt now cancelled e) =
      veil (r.veiled.emitted w' outcome checkedAt now cancelled e) := by
  refine Alike.report now cancelled e ?_ checkedAt
  have hstage := r.stage.veiled_veiled.symm
  cases outcome <;> exact alike_of rfl hstage rfl rfl rfl rfl rfl rfl rfl

/-- Replays that are alike go on the same after a cycle, whatever its watermark was. -/
theorem Alike.emitted (h : r.Alike r') (w w' : Timestamp) (outcome : EmitOutcome) (checkedAt : Instant) :
    veil (r.emitted w outcome checkedAt now cancelled e) =
      veil (r'.emitted w' outcome checkedAt now cancelled e) := by
  rw [veil_emitted now cancelled e r w w, veil_emitted now cancelled e r' w' w, h]

theorem veil_check (r : Replay) :
    veil (r.check now cancelled e) = veil (r.veiled.check now cancelled e) := by
  have hdue : r.veiled.emitter.isDue now = r.emitter.isDue now := rfl
  have hconfig : r.veiled.emitter.config = r.emitter.config := rfl
  rw [check, check, hdue, hconfig]
  split
  · dsimp only
    split
    · exact Prod.ext (alike_of rfl rfl rfl rfl rfl rfl rfl rfl rfl) rfl
    · exact veil_emitted now cancelled e r _ _ _ now
  · exact veil_report now cancelled e r now

/-- Cycles that are the same behind the veil go on the same. -/
theorem veil_advance (r : Replay) {cycle cycle' : Cycle} (h : cycle.veiled = cycle'.veiled)
    (i i' : Instruments) (checkedAt : Instant) :
    veil (r.advance cycle i checkedAt now cancelled e) =
      veil (r.veiled.advance cycle' i' checkedAt now cancelled e) := by
  have hcycle : cycle'.stage = cycle.stage := (congrArg Cycle.stage h).symm
  have halike : ({ r with instruments := i } : Replay).Alike { r.veiled with instruments := i' } :=
    alike_of rfl r.stage.veiled_veiled.symm rfl rfl rfl rfl rfl rfl rfl
  rw [advance, advance, hcycle]
  dsimp only
  split
  · exact halike.emitted now cancelled e _ _ _ checkedAt
  · exact Prod.ext (alike_of rfl rfl rfl rfl rfl rfl rfl rfl rfl) rfl
  · have hemitting := congrArg (ReplayStage.emitting · e checkedAt) h
    exact Prod.ext (alike_of rfl hemitting rfl rfl rfl rfl rfl rfl rfl) rfl

/-- The first event comes to the same behind the veil. -/
theorem veil_begin (r : Replay) :
    veil (r.begin now cancelled e) = veil (r.veiled.begin now cancelled e) := by
  refine Alike.turn now cancelled e ?_
  exact alike_of rfl r.stage.veiled_veiled.symm rfl rfl rfl rfl rfl rfl rfl

/-- While the loop goes on, an answer does the same behind the veil, and sends the same event. -/
theorem veil_answer (r : Replay) (hr : r.IsLooping) (a : ReplayAnswer) :
    veil (r.answer now cancelled a) = veil (r.veiled.answer now cancelled a) := by
  have hignored : veil (r, none) = veil (r.veiled, none) := Prod.ext r.veiled_veiled.symm rfl
  have hdrain (n : Notice) (ending : Except Fault Unit) :
      veil ((r.note n).drain ending, none) = veil ((r.veiled.note n).drain ending, none) :=
    Prod.ext (alike_of rfl rfl rfl rfl rfl rfl rfl rfl rfl) rfl
  have hdrain' (ending : Except Fault Unit) :
      veil (r.drain ending, none) = veil (r.veiled.drain ending, none) :=
    Prod.ext (alike_of rfl rfl rfl rfl rfl rfl rfl rfl rfl) rfl
  cases hs : r.stage with
  | opening =>
    have hs' : r.veiled.stage = .opening := by rw [veiled, hs]; rfl
    cases a with
    | pulled result =>
      simp only [answer, hs, hs']
      split
      · exact hdrain' _
      · exact hdrain _ _
      · exact veil_begin now cancelled _ r
    | _ => simpa only [answer, hs, hs'] using hignored
  | pulling =>
    have hs' : r.veiled.stage = .pulling := by rw [veiled, hs]; rfl
    cases a with
    | pulled result =>
      simp only [answer, hs, hs']
      split
      · exact hdrain' _
      · exact hdrain' _
      · exact veil_check now cancelled _ r
    | _ => simpa only [answer, hs, hs'] using hignored
  | sleeping pending d =>
    have hs' : r.veiled.stage = .sleeping pending d := by rw [veiled, hs]; rfl
    cases a with
    | slept =>
      simp only [answer, hs, hs']
      split
      · exact hdrain _ _
      · exact veil_check now cancelled _ r
    | _ => simpa only [answer, hs, hs'] using hignored
  | emitting cycle pending checkedAt =>
    have hs' : r.veiled.stage = .emitting cycle.veiled pending checkedAt := by rw [veiled, hs]; rfl
    cases a with
    | listed result =>
      simp only [answer, hs, hs']
      exact veil_advance now cancelled pending r (cycle.listed_veiled _ _ result) _ _ checkedAt
    | wrote result =>
      simp only [answer, hs, hs']
      exact veil_advance now cancelled pending r (cycle.wrote_veiled _ _ result) _ _ checkedAt
    | _ => simpa only [answer, hs, hs'] using hignored
  | _ => simp [IsLooping, hs] at hr

end Loop

/-- The completion of a send changes nothing but what is hidden, unless the replay waits for it. -/
theorem alike_complete {r : Replay} (hr : ∀ ending, r.stage ≠ .settling ending) (id : Nat)
    (outcome : Outcome) : (r.complete id outcome).Alike r := by
  have hnext := Dispatch.complete_nextId r.dispatch id outcome r.tracker r.instruments
  cases hs : r.stage with
  | settling ending => exact absurd hs (hr ending)
  | _ =>
    simp only [complete, hs]
    exact alike_of rfl (by rw [hs]) rfl rfl rfl rfl rfl rfl hnext

/-! ### What is seen from outside -/

/-- What is seen of an answer that the replay takes. -/
structure Sight where
  instant : Instant
  /-- Whether a watermark cycle begins. -/
  begins : Bool
  /-- How a watermark cycle ends. -/
  ends : Option (Except Fault EmitOutcome)
  /-- The event that is submitted. -/
  sent : Option Send
  /-- What the loop ends with, if it ends. -/
  drains : Option (Except Fault Unit)

/-- What the loop has ended with, while the destination is being flushed. -/
def ending? (r : Replay) : Option (Except Fault Unit) :=
  match r.stage with
  | .flushing ending => some ending
  | _ => none

/-- How the watermark cycle ends that an answer ends: the one under way, or one that begins while cycles are
disabled. -/
def cycleEnd? (r : Replay) (now : Instant) (cancelled : Bool) (a : ReplayAnswer) :
    Option (Except Fault EmitOutcome) :=
  match r.stage, a with
  | .emitting cycle _ _, .listed result => (cycle.listed result {}).1.ended?
  | .emitting cycle _ _, .wrote result => (cycle.wrote result {}).1.ended?
  | _, _ =>
    if (r.opened? (.answered now cancelled a)).isSome && !r.emitter.config.enabled
    then some (.ok .disabled) else none

def sight (r : Replay) (now : Instant) (cancelled : Bool) (a : ReplayAnswer) : Sight where
  instant := now
  begins := (r.opened? (.answered now cancelled a)).isSome
  ends := r.cycleEnd? now cancelled a
  sent := (r.answer now cancelled a).2
  drains := (r.answer now cancelled a).1.ending?

theorem ending?_veiled (r : Replay) : r.veiled.ending? = r.ending? := by
  have hveiled : r.veiled.stage = r.stage.veiled := rfl
  rw [ending?, ending?, hveiled]
  cases r.stage <;> rfl

theorem checked?_veiled (r : Replay) (h : Happening) : r.veiled.checked? h = r.checked? h := by
  cases h with
  | completed id outcome => rfl
  | answered now cancelled a =>
    cases cancelled with
    | true => rfl
    | false =>
      have hveiled : r.veiled.stage = r.stage.veiled := rfl
      cases hs : r.stage <;> simp only [checked?, hveiled, hs, ReplayStage.veiled]

/-- Whether a cycle begins is not hidden. Its watermark is. -/
theorem isSome_opened?_veiled (r : Replay) (h : Happening) :
    (r.veiled.opened? h).isSome = (r.opened? h).isSome := by
  rw [opened?, opened?, checked?_veiled]
  split
  · rename_i now pending _
    have hdue : r.veiled.emitter.isDue now = r.emitter.isDue now := rfl
    rw [hdue]
    split <;> rfl
  · rfl

theorem cycleEnd?_veiled (r : Replay) (now : Instant) (cancelled : Bool) (a : ReplayAnswer) :
    r.veiled.cycleEnd? now cancelled a = r.cycleEnd? now cancelled a := by
  have hconfig : r.veiled.emitter.config = r.emitter.config := rfl
  cases hs : r.stage with
  | emitting cycle pending checkedAt =>
    have hs' : r.veiled.stage = .emitting cycle.veiled pending checkedAt := by rw [veiled, hs]; rfl
    cases a with
    | listed result =>
      simp only [cycleEnd?, hs, hs']
      exact (congrArg Cycle.ended? (cycle.listed_veiled {} {} result)).symm
    | wrote result =>
      simp only [cycleEnd?, hs, hs']
      exact (congrArg Cycle.ended? (cycle.wrote_veiled {} {} result)).symm
    | _ => simp only [cycleEnd?, hs, hs', isSome_opened?_veiled, hconfig]
  | _ =>
    have hs' : r.veiled.stage = r.stage := by rw [veiled, hs]; rfl
    rw [hs] at hs'
    simp only [cycleEnd?, hs, hs', isSome_opened?_veiled, hconfig]

/-- What is seen of an answer is the same behind the veil. -/
theorem sight_veiled {r : Replay} (hr : r.IsLooping) (now : Instant) (cancelled : Bool) (a : ReplayAnswer) :
    r.veiled.sight now cancelled a = r.sight now cancelled a := by
  have hveil := veil_answer now cancelled r hr a
  rw [veil, veil, Prod.mk.injEq] at hveil
  obtain ⟨hstage, hsent⟩ := hveil
  have hdrains : (r.veiled.answer now cancelled a).1.ending? = (r.answer now cancelled a).1.ending? := by
    rw [← ending?_veiled, ← hstage, ending?_veiled]
  rw [sight, sight, isSome_opened?_veiled, cycleEnd?_veiled, hsent, hdrains]

/-! ### The end of a cycle -/

/-- After a step the last cycle has ended at an instant, and so many events have been sent since, next to the
one that the step sends. -/
structure Rhythm (last : Option Instant) (since : Nat) (x : Replay × Option Send) : Prop where
  lastCycle : x.1.emitter.lastCycle = last
  eventsSince : x.1.emitter.eventsSince = since + x.2.toList.length

section Ends

variable (r : Replay) (now : Instant) (cancelled : Bool) (e : Event)

/-- A step that sends nothing and leaves the emitter alone. -/
theorem Rhythm.idle {r r' : Replay} (h : r'.emitter = r.emitter) :
    Rhythm r.emitter.lastCycle r.emitter.eventsSince (r', none) :=
  ⟨congrArg Emitter.lastCycle h, congrArg Emitter.eventsSince h⟩

/-- At its head the loop counts what it sends. -/
theorem rhythm_turn : Rhythm r.emitter.lastCycle r.emitter.eventsSince (r.turn now cancelled e) := by
  rw [turn]
  split
  · exact .idle rfl
  · split
    · rename_i gap _
      obtain ⟨hlaunched, hsent⟩ := r.launched_send e gap
      have hemitter := hlaunched.emitter
      refine ⟨(congrArg Emitter.lastCycle hemitter).trans rfl, ?_⟩
      rw [hsent]
      exact (congrArg Emitter.eventsSince hemitter).trans rfl
    · exact .idle rfl

/-- The end of a cycle starts the count again. -/
theorem rhythm_emitted (w : Timestamp) (outcome : EmitOutcome) (checkedAt : Instant) :
    Rhythm (some now) 0 (r.emitted w outcome checkedAt now cancelled e) := by
  obtain ⟨s, i, he⟩ := r.emitted_eq w outcome checkedAt now cancelled e
  rw [he]
  exact rhythm_turn { r with emitter := r.emitter.booked now w outcome, statistics := s, instruments := i }
    now cancelled e

/-- A check books the cycle at once if one is due while cycles are disabled. -/
theorem rhythm_check :
    if r.emitter.isDue now && !r.emitter.config.enabled then Rhythm (some now) 0 (r.check now cancelled e)
    else Rhythm r.emitter.lastCycle r.emitter.eventsSince (r.check now cancelled e) := by
  rw [check]
  cases hdue : r.emitter.isDue now with
  | false =>
    obtain ⟨s, i, he⟩ := r.report_eq now now cancelled e
    rw [if_neg Bool.false_ne_true, Bool.false_and, if_neg Bool.false_ne_true, he]
    exact rhythm_turn { r with statistics := s, instruments := i } now cancelled e
  | true =>
    rw [if_pos rfl, Bool.true_and]
    cases henabled : r.emitter.config.enabled with
    | true => exact .idle rfl
    | false =>
      rw [if_neg Bool.false_ne_true, if_pos (by decide)]
      exact rhythm_emitted r now cancelled e _ _ now

/-- A cycle starts the count again when it ends well, and leaves it alone until then. -/
theorem rhythm_advance (cycle : Cycle) (i : Instruments) (checkedAt : Instant) :
    match cycle.ended? with
    | some (.ok _) => Rhythm (some now) 0 (r.advance cycle i checkedAt now cancelled e)
    | _ =>
      Rhythm r.emitter.lastCycle r.emitter.eventsSince (r.advance cycle i checkedAt now cancelled e) := by
  rw [advance, Cycle.ended?]
  cases cycle.stage with
  | ended result =>
    cases result with
    | ok outcome => exact rhythm_emitted _ now cancelled e _ outcome checkedAt
    | error fault => exact .idle rfl
  | _ => exact .idle rfl

section NotEmitting

variable {r : Replay} {now : Instant} {cancelled : Bool} {a : ReplayAnswer}

/-- Unless one is under way, a cycle can only end at once, while cycles are disabled. -/
theorem cycleEnd?_of_not_emitting (hr : ∀ cycle e checkedAt, r.stage ≠ .emitting cycle e checkedAt) :
    r.cycleEnd? now cancelled a =
      if (r.opened? (.answered now cancelled a)).isSome && !r.emitter.config.enabled
      then some (.ok .disabled) else none := by
  cases hs : r.stage with
  | emitting cycle e checkedAt => exact absurd hs (hr cycle e checkedAt)
  | _ => simp only [cycleEnd?, hs]

/-- A check begins and ends a cycle at once if one is due while cycles are disabled. -/
theorem rhythm_of_checked (hr : ∀ cycle e checkedAt, r.stage ≠ .emitting cycle e checkedAt) {e : Event}
    (hc : r.checked? (.answered now cancelled a) = some (now, e)) :
    match r.cycleEnd? now cancelled a with
    | some (.ok _) => Rhythm (some now) 0 (r.check now false e)
    | _ => Rhythm r.emitter.lastCycle r.emitter.eventsSince (r.check now false e) := by
  have hopened : (r.opened? (.answered now cancelled a)).isSome = r.emitter.isDue now := by
    rw [opened?, hc]
    cases hdue : r.emitter.isDue now <;> simp [hdue]
  have hcheck := r.rhythm_check now false e
  rw [cycleEnd?_of_not_emitting hr, hopened]
  split at hcheck
  · rw [if_pos (by assumption)]
    exact hcheck
  · rw [if_neg (by assumption)]
    exact hcheck

/-- Without a check the emitter is left alone, but for the event that is sent. -/
theorem rhythm_of_unchecked (hr : ∀ cycle e checkedAt, r.stage ≠ .emitting cycle e checkedAt)
    (hc : r.checked? (.answered now cancelled a) = none) :
    Rhythm r.emitter.lastCycle r.emitter.eventsSince (r.answer now cancelled a) := by
  cases hs : r.stage with
  | emitting cycle e checkedAt => exact absurd hs (hr cycle e checkedAt)
  | opening =>
    cases a with
    | pulled result =>
      simp only [answer, hs]
      split
      · exact .idle rfl
      · exact .idle rfl
      · rename_i first _
        obtain ⟨s, i, he⟩ := r.begin_eq now cancelled first
        rw [he]
        exact rhythm_turn
          { r with
            pace := ⟨now, first.timestamp, r.config.speedup, r.config.minSleep⟩
            statistics := s, instruments := i } now cancelled first
    | _ =>
      simp only [answer, hs]
      exact .idle rfl
  | pulling =>
    cases a with
    | pulled result =>
      simp only [answer, hs]
      split
      · exact .idle rfl
      · exact .idle rfl
      · cases cancelled <;> simp_all [checked?]
    | _ =>
      simp only [answer, hs]
      exact .idle rfl
  | sleeping pending d =>
    cases a with
    | slept =>
      cases cancelled with
      | true =>
        simp only [answer, hs]
        exact .idle rfl
      | false => simp [checked?, hs] at hc
    | _ =>
      simp only [answer, hs]
      exact .idle rfl
  | flushing ending =>
    cases a with
    | flushed drained =>
      rcases drained with fault | u
      · simp only [answer, hs]
        exact .idle (r.settled_finish ending _).emitter
      · simp only [answer, hs]
        exact .idle (r.settled_settle ending).emitter
    | _ =>
      simp only [answer, hs]
      exact .idle rfl
  | _ =>
    simp only [answer, hs]
    exact .idle rfl

end NotEmitting

/-- The end of a cycle that is seen is the one that the emitter books, faults apart, and it counts the sends
that are seen since. -/
theorem rhythm_answer (a : ReplayAnswer) :
    match r.cycleEnd? now cancelled a with
    | some (.ok _) => Rhythm (some now) 0 (r.answer now cancelled a)
    | _ => Rhythm r.emitter.lastCycle r.emitter.eventsSince (r.answer now cancelled a) := by
  by_cases hr : ∀ cycle e checkedAt, r.stage ≠ .emitting cycle e checkedAt
  · cases hc : r.checked? (.answered now cancelled a) with
    | none =>
      rw [cycleEnd?_of_not_emitting hr, opened?, hc]
      exact rhythm_of_unchecked hr hc
    | some y =>
      obtain ⟨rfl, hanswer⟩ := answer_of_checked hc
      rw [hanswer]
      exact rhythm_of_checked hr hc
  · simp only [not_forall, not_not] at hr
    obtain ⟨cycle, e, checkedAt, hs⟩ := hr
    cases a with
    | listed result =>
      have hadvance := r.rhythm_advance now cancelled e (cycle.listed result r.instruments).1
        (cycle.listed result r.instruments).2 checkedAt
      rw [Cycle.ended?_listed] at hadvance
      simp only [answer, cycleEnd?, hs]
      exact hadvance
    | wrote result =>
      have hadvance := r.rhythm_advance now cancelled e (cycle.wrote result r.instruments).1
        (cycle.wrote result r.instruments).2 checkedAt
      rw [Cycle.ended?_wrote] at hadvance
      simp only [answer, cycleEnd?, hs]
      exact hadvance
    | _ =>
      have hunchecked (a : ReplayAnswer) : r.checked? (.answered now cancelled a) = none := by
        cases cancelled <;> simp [checked?, hs]
      simp only [answer, cycleEnd?, hs, opened?, hunchecked]
      exact .idle rfl

end Ends

end Replay

end Tidemark
