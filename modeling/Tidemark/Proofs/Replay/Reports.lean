import Mathlib.Data.List.Induction
import Tidemark.Proofs.Pacing.Due
import Tidemark.Statistics

/-!
# Reports and the events behind them

Events are counted from one report to the next. So the calls that are made fall into slots, each of which ends
with the call that reports, and what comes after the last one is not reported yet:

```
start   record   report   record   report     record   report     record
        └───────────── slot ────────────┘     └──── slot ────┘    └ rest
                 (not due)          (due)                (due)
```

A call reports if nothing is left of the interval, and leaves everything as it is otherwise
(`maybeReport_of_due`, `maybeReport_of_not_due`). `Desk.Slotted` is what one call after another keeps, and with it
the events of the slots and of the rest are all events, each of them once (`reports_partition_events`). The time of
a call is not assumed to be after that of the one before: a call that comes too early by the clock does not report.
-/

namespace Tidemark

/-! ### The time that is divided by -/

/-- A number above zero in its place is positive. -/
theorem Binary64.zero_less_of_place {x : Binary64} (h : 0 < x.place) : zero.less x = true := by
  cases x with
  | nan => exact absurd h (Int.lt_irrefl 0)
  | infinite s =>
    cases s with
    | false => rfl
    | true =>
      have hneg : (infinite true).place = -(ceiling : Int) := rfl
      omega
  | finite s m p =>
    show decide (signed false (0 * 2 ^ 0) < signed s (m * 2 ^ p)) = true
    rw [Nat.zero_mul, signed_zero, decide_eq_true_iff]
    exact h

/-- A span that is not empty is not empty in seconds either. -/
theorem Span.zero_less_toSeconds {d : Span} (hpos : 0 < d.nanos) : Binary64.zero.less d.toSeconds = true := by
  have hleast : 0 < (Span.mk 1).toSeconds.place := by decide +kernel
  exact Binary64.zero_less_of_place (Int.lt_of_lt_of_le hleast (toSeconds_mono hpos))

namespace Statistics

variable {s : Statistics} {now : Instant}

/-! ### One call -/

/-- No time is left exactly when a report is due. -/
theorem timeUntilDue_eq_zero_iff : s.timeUntilDue now = Span.zero ↔ s.isDue now = true := by
  rw [isDue, decide_eq_true_iff, timeUntilDue, Span.saturatingSub, Span.zero, Span.mk.injEq, Nat.sub_eq_zero_iff_le]
  rfl

/-- A report that is due divides the events by the time since the last one, and begins a new count. -/
theorem maybeReport_of_due (hdue : s.isDue now = true) (watermark : Option Timestamp) (lag : Int)
    (i : Instruments) : ∃ i', s.maybeReport now watermark lag i =
      (some ⟨Binary64.ofNat s.events / (now.since s.lastReport).toSeconds, lag, watermark⟩,
        { s with lastReport := now, events := 0 }, i') := by
  rw [maybeReport, report?, if_pos hdue]
  exact ⟨_, rfl⟩

theorem maybeReport_of_not_due (hdue : s.isDue now = false) (watermark : Option Timestamp) (lag : Int)
    (i : Instruments) : s.maybeReport now watermark lag i = (none, s, i) := by
  rw [maybeReport, report?, if_neg (by simp [hdue])]

/-! ### Calls one after another -/

inductive Call where
  /-- An event was sent. -/
  | record
  /-- It may be time to report. -/
  | report (now : Instant) (watermark : Option Timestamp) (lag : Int)

/-- How many events were sent. -/
def recorded (calls : List Call) : Nat :=
  calls.countP (· matches .record)

/-- Statistics with what they write to, and how the calls were answered, the first first. -/
structure Desk where
  statistics : Statistics
  instruments : Instruments
  answers : List (Option Report) := []

/-- Nothing has been called yet. -/
def opened (interval : Span) (start : Instant) (i : Instruments) : Desk :=
  { statistics := { interval, lastReport := start }, instruments := i }

namespace Desk

def call (d : Desk) : Call → Desk
  | .record => { d with statistics := d.statistics.recordEvents 1, answers := d.answers ++ [none] }
  | .report now watermark lag =>
    let (report, statistics, instruments) := d.statistics.maybeReport now watermark lag d.instruments
    { statistics, instruments, answers := d.answers ++ [report] }

def after (d : Desk) (calls : List Call) : Desk :=
  calls.foldl call d

end Desk

/-- The calls from one report, or from the start, to the next. -/
structure Slot where
  opened : Instant
  before : List Call
  now : Instant
  watermark : Option Timestamp
  lag : Int

namespace Slot

def calls (slot : Slot) : List Call :=
  slot.before ++ [.report slot.now slot.watermark slot.lag]

/-- The report at the end of a slot has the rate of the events of the slot. -/
def report (slot : Slot) : Report :=
  ⟨Binary64.ofNat (recorded slot.before) / (slot.now.since slot.opened).toSeconds, slot.lag, slot.watermark⟩

/-- Only the last call of a slot is answered with a report. -/
def answers (slot : Slot) : List (Option Report) :=
  (slot.before.map fun _ ↦ none) ++ [some slot.report]

/-- The slot lasts for an interval at least, and the time that its events are divided by is positive. -/
structure Lasts (interval : Span) (slot : Slot) : Prop where
  interval : slot.opened.after interval ≤ slot.now
  positive : Binary64.zero.less (slot.now.since slot.opened).toSeconds = true

end Slot

/-- Calls fall into slots, and into a rest that is not reported yet. -/
structure Desk.Slotted (interval : Span) (start : Instant) (calls : List Call) (d : Desk) (slots : List Slot)
    (rest : List Call) : Prop where
  calls : calls = slots.flatMap Slot.calls ++ rest
  answers : d.answers = slots.flatMap Slot.answers ++ rest.map fun _ ↦ none
  /-- The slots are opened at the start and at every report but the last. -/
  adjacent : start :: slots.map (·.now) = slots.map (·.opened) ++ [d.statistics.lastReport]
  lasts : ∀ slot ∈ slots, slot.Lasts interval
  interval : d.statistics.interval = interval
  events : d.statistics.events = recorded rest

variable {interval : Span} {start : Instant} {calls rest : List Call} {slots : List Slot} {d : Desk}

theorem recorded_append (calls calls' : List Call) : recorded (calls ++ calls') = recorded calls + recorded calls' :=
  List.countP_append

/-- A slot that ends when a report is due lasts. -/
theorem lasts_of_due (hpos : 0 < s.interval.nanos) (hdue : s.isDue now = true) (before : List Call)
    (watermark : Option Timestamp) (lag : Int) :
    (Slot.mk s.lastReport before now watermark lag).Lasts s.interval := by
  have hle : s.interval.nanos ≤ now.nanos - s.lastReport.nanos := of_decide_eq_true hdue
  refine ⟨?_, Span.zero_less_toSeconds (Nat.lt_of_lt_of_le hpos hle)⟩
  show s.lastReport.nanos + s.interval.nanos ≤ now.nanos
  omega

/-- One more call belongs to the rest, or makes it a slot. -/
theorem Desk.Slotted.call (h : d.Slotted interval start calls slots rest) (hpos : 0 < interval.nanos) (c : Call) :
    ∃ slots rest, (d.call c).Slotted interval start (calls ++ [c]) slots rest := by
  cases c with
  | record =>
    exact ⟨slots, rest ++ [.record], { h with
      calls := by rw [h.calls, List.append_assoc]
      answers := by simp [Desk.call, h.answers]
      events := by
        rw [recorded_append, ← h.events]
        rfl }⟩
  | report now watermark lag =>
    cases hdue : d.statistics.isDue now with
    | false =>
      have hcall : d.call (.report now watermark lag) = { d with answers := d.answers ++ [none] } := by
        rw [Desk.call, maybeReport_of_not_due hdue]
      rw [hcall]
      exact ⟨slots, rest ++ [.report now watermark lag], { h with
        calls := by rw [h.calls, List.append_assoc]
        answers := by simp [h.answers]
        events := by
          rw [recorded_append, ← h.events]
          rfl }⟩
    | true =>
      obtain ⟨i, hreport⟩ := maybeReport_of_due hdue watermark lag d.instruments
      let slot : Slot := ⟨d.statistics.lastReport, rest, now, watermark, lag⟩
      have hcall : d.call (.report now watermark lag) =
          ⟨{ d.statistics with lastReport := now, events := 0 }, i, d.answers ++ [some slot.report]⟩ := by
        rw [Desk.call, hreport, h.events]
        rfl
      rw [hcall]
      exact ⟨slots ++ [slot], [], {
        calls := by simp [h.calls, slot, Slot.calls]
        answers := by simp [h.answers, slot, Slot.answers]
        adjacent := by
          rw [List.map_append, List.map_append, ← List.cons_append, h.adjacent]
          rfl
        lasts := by
          intro slot' hslot
          rcases List.mem_append.1 hslot with hold | hnew
          · exact h.lasts slot' hold
          · obtain rfl := List.mem_singleton.1 hnew
            rw [← h.interval] at hpos ⊢
            exact lasts_of_due hpos hdue rest watermark lag
        interval := h.interval
        events := rfl }⟩

/-- Whatever is called, the calls fall into slots. -/
theorem slotted_after (hpos : 0 < interval.nanos) (start : Instant) (i : Instruments) (calls : List Call) :
    ∃ slots rest, ((opened interval start i).after calls).Slotted interval start calls slots rest := by
  induction calls using List.reverseRecOn with
  | nil =>
    exact ⟨[], [], {
      calls := rfl
      answers := rfl
      adjacent := rfl
      lasts := by simp
      interval := rfl
      events := rfl }⟩
  | append_singleton calls c ih =>
    obtain ⟨slots, rest, h⟩ := ih
    rw [Desk.after, List.foldl_append]
    exact h.call hpos c

/-- The events of all slots and of the rest are those of the calls. -/
theorem recorded_slots (slots : List Slot) (rest : List Call) :
    (slots.map fun slot ↦ recorded slot.before).sum + recorded rest =
      recorded (slots.flatMap Slot.calls ++ rest) := by
  induction slots with
  | nil => simp
  | cons slot slots ih =>
    have hslot : recorded slot.calls = recorded slot.before := by
      simp [recorded, Slot.calls]
    rw [List.map_cons, List.sum_cons, Nat.add_assoc, ih, List.flatMap_cons, List.append_assoc, ← hslot,
      ← recorded_append]

/-- The calls fall into slots. Each slot ends with a report of its own events, an interval or more after the report
before, so that every event is behind one report or not reported yet; the time that the events are divided by is
never zero. Whatever was called, a call reports if no time is left until the next report is due, and changes nothing
if some is left. -/
theorem reports_partition_events (hpos : 0 < interval.nanos) (start : Instant) (i : Instruments)
    (calls : List Call) :
    let d := (opened interval start i).after calls
    (∃ slots rest, d.Slotted interval start calls slots rest ∧
      (slots.map fun slot ↦ recorded slot.before).sum + d.statistics.events = recorded calls) ∧
    ∀ now watermark lag,
      ((d.statistics.maybeReport now watermark lag d.instruments).1.isSome ↔
        d.statistics.timeUntilDue now = Span.zero) ∧
      (d.statistics.timeUntilDue now ≠ Span.zero →
        d.statistics.maybeReport now watermark lag d.instruments = (none, d.statistics, d.instruments)) := by
  intro d
  obtain ⟨slots, rest, h⟩ := slotted_after hpos start i calls
  refine ⟨⟨slots, rest, h, ?_⟩, fun now watermark lag ↦ ?_⟩
  · rw [h.events]
    exact (recorded_slots slots rest).trans (congrArg recorded h.calls.symm)
  · rw [ne_eq, timeUntilDue_eq_zero_iff]
    cases hdue : d.statistics.isDue now with
    | false =>
      rw [maybeReport_of_not_due hdue]
      simp
    | true =>
      obtain ⟨i', hreport⟩ := maybeReport_of_due hdue watermark lag d.instruments
      rw [hreport]
      simp

/-- Two events and a report that comes too early, then one more event and two reports. -/
def earlyAndDue : List Call :=
  [.record, .record, .report ⟨9999999999⟩ none 0, .record, .report ⟨10000000000⟩ none 0,
    .report ⟨20000000000⟩ none 0]

/-- Nothing is reported too early. The first report has all three events, and the second one has none. -/
theorem reports_partition_events_earlyAndDue :
    0 < (Span.ofSeconds 10).nanos ∧
      ((opened (Span.ofSeconds 10) .start {}).after earlyAndDue).answers.map (·.isSome) =
        [false, false, false, false, true, true] ∧
      ∃ slots rest, ((opened (Span.ofSeconds 10) .start {}).after earlyAndDue).Slotted (Span.ofSeconds 10) .start
          earlyAndDue slots rest ∧
        (slots.map fun slot ↦ recorded slot.before).sum +
          ((opened (Span.ofSeconds 10) .start {}).after earlyAndDue).statistics.events = 3 :=
  ⟨by decide, by decide +kernel, (reports_partition_events (by decide) .start {} earlyAndDue).1⟩

end Statistics

end Tidemark
