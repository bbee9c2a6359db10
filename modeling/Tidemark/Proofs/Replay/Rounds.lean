import Mathlib.Algebra.GroupWithZero.Nat
import Tidemark.Proofs.Replay.Exchanged

/-!
# The rounds of a run

A round is a cycle that has ended well, with its account. What a run has asked its destination for is the
rounds so far, one after the other, and then what the cycle under way has asked for:

```
exchanges = round ++ round ++ ... ++ begun          opened = watermarks of the rounds ++ the one under way
```

A `Ledger` says this, and that the totals of the emitter are the sums over the rounds. Each beat of a run
keeps it (`Ledger.beat`), and a run that is not broken off has one, `ledger_after`. What a round counts as
written is what was found by its listing, unless it is skipped (`Round.outcome_cases`).
-/

namespace Tidemark

/-- A cycle that has ended well, with all that it asked for. -/
structure Round where
  watermark : Timestamp
  lists : List ListCall
  puts : List PutCall
  outcome : EmitOutcome
  account : Cycle.Account watermark lists puts (.ok outcome)

/-- A put that was acknowledged. -/
def Exchange.isWritten : Exchange → Bool
  | .list _ => false
  | .put call => call.answer.isOk

namespace Round

def exchanges (x : Round) : List Exchange :=
  x.lists.map .list ++ x.puts.map .put

/-- The destination throttled the cycle. -/
def isSkipped (x : Round) : Bool :=
  x.outcome = .skipped

/-- How many partitions were listed. -/
def listed (x : Round) : Nat :=
  (foundIn x.lists).length

/-- How many puts were acknowledged. -/
def written (x : Round) : Nat :=
  x.puts.countP fun call ↦ call.answer.isOk

/-- The puts of a round that count as written are those that were acknowledged. -/
theorem countP_exchanges (x : Round) : x.exchanges.countP Exchange.isWritten = x.written := by
  have hlists : (x.lists.map Exchange.list).countP Exchange.isWritten = 0 := by
    rw [List.countP_map]
    exact List.countP_eq_zero.2 fun call _ ↦ Bool.false_ne_true
  have hputs : (x.puts.map Exchange.put).countP Exchange.isWritten = x.written := by
    rw [List.countP_map]
    rfl
  rw [exchanges, List.countP_append, hlists, hputs, Nat.zero_add]

/-- A round was written to all the partitions that it found, or it was skipped. -/
theorem outcome_cases (x : Round) :
    (x.outcome = .emitted x.listed ∧ x.written = x.listed) ∨ x.outcome = .skipped := by
  have hresult := x.account.result_eq
  cases hfault : firstFault? x.lists x.puts with
  | none =>
    rw [hfault] at hresult
    refine Or.inl ⟨Except.ok.inj hresult, ?_⟩
    have hputs := (Option.or_eq_none_iff.1 hfault).2
    rw [listed, ← (x.account.all hfault).2, written, List.countP_eq_length]
    intro call hcall
    have hnone := List.findSome?_eq_none_iff.1 hputs call hcall
    cases hanswer : call.answer with
    | ok ack => rfl
    | error fault => exact absurd hnone (by simp [hanswer, faultOf?])
  | some fault =>
    rw [hfault] at hresult
    dsimp only at hresult
    split at hresult
    · exact Or.inr (Except.ok.inj hresult)
    · exact absurd hresult (by simp)

/-! ### Sums over rounds -/

/-- The skips that are booked are the rounds that were skipped. -/
theorem sum_skips (rounds : List Round) :
    (rounds.map fun x ↦ x.outcome.skips).sum = rounds.countP isSkipped := by
  induction rounds with
  | nil => rfl
  | cons x rounds ih =>
    rw [List.map_cons, List.sum_cons, ih, List.countP_cons, Nat.add_comm]
    rcases x.outcome_cases with ⟨ho, -⟩ | ho <;> simp [isSkipped, ho, EmitOutcome.skips]

/-- The partitions that are booked are those that were listed in rounds not skipped. -/
theorem sum_partitions (rounds : List Round) :
    (rounds.map fun x ↦ x.outcome.partitions).sum =
      ((rounds.filter fun x ↦ !x.isSkipped).map listed).sum := by
  induction rounds with
  | nil => rfl
  | cons x rounds ih =>
    rw [List.map_cons, List.sum_cons, ih]
    rcases x.outcome_cases with ⟨ho, -⟩ | ho <;> simp [isSkipped, ho, EmitOutcome.partitions]

/-- The puts that were acknowledged are those that count as written, and those of the rounds that were
skipped afterwards. -/
theorem countP_flatMap_exchanges (rounds : List Round) :
    (rounds.flatMap exchanges).countP Exchange.isWritten =
      ((rounds.filter fun x ↦ !x.isSkipped).map listed).sum +
        ((rounds.filter isSkipped).map written).sum := by
  induction rounds with
  | nil => rfl
  | cons x rounds ih =>
    rw [List.flatMap_cons, List.countP_append, countP_exchanges, ih]
    rcases x.outcome_cases with ⟨ho, hwritten⟩ | ho
    · simp [isSkipped, ho, hwritten, Nat.add_assoc]
    · simp [isSkipped, ho, Nat.add_left_comm]

end Round

theorem Cycle.Course.concat {w : Timestamp} {stage last next : CycleStage} {xs : List Exchange}
    {x : Exchange} (hxs : Course w stage xs last) (hx : Goes w last x next) :
    Course w stage (xs ++ [x]) next := by
  induction hxs with
  | nil => exact .cons hx (.nil next)
  | cons hy _ ih => exact .cons hy (ih hx)

/-! ### The ledger -/

/-- What a run has shown of its cycles, sorted into the rounds so far and what the cycle under way has
asked for; the totals of the emitter are those of the rounds. `booked` are the watermarks of all cycles
that have ended. -/
structure Ledger (config : WatermarkConfig) (exchanges : List Exchange) (opened : List Timestamp)
    (cycle? : Option Cycle) (e : Emitter) (rounds : List Round) (booked : List Timestamp)
    (begun : List Exchange) : Prop where
  config_eq : e.config = config
  exchanges_eq : exchanges = rounds.flatMap Round.exchanges ++ begun
  course : ∀ c, cycle? = some c → Cycle.Course c.watermark (.listing {}) begun c.stage
  idle : cycle? = none → begun = []
  opened_eq : opened = booked ++ (cycle?.map Cycle.watermark).toList
  enabled : cycle?.isSome → config.enabled = true
  watermarks : rounds.map Round.watermark = if config.enabled then booked else []
  emitted : e.recordsEmitted = (rounds.map fun x ↦ x.outcome.partitions).sum
  skipped : e.cyclesSkipped = (rounds.map fun x ↦ x.outcome.skips).sum
  last : e.lastWatermark = booked.getLast?

namespace Ledger

variable {config : WatermarkConfig} {xs begun : List Exchange} {ws booked : List Timestamp} {e : Emitter}
  {rounds : List Round} {w : Timestamp} {stage next : CycleStage} {x : Exchange}

theorem empty (config : WatermarkConfig) : Ledger config [] [] none { config } [] [] [] where
  config_eq := rfl
  exchanges_eq := rfl
  course := by simp
  idle _ := rfl
  opened_eq := rfl
  enabled := by simp
  watermarks := by simp
  emitted := rfl
  skipped := rfl
  last := rfl

theorem opened (hl : Ledger config xs ws none e rounds booked begun) (hon : e.config.enabled = true)
    (w : Timestamp) : Ledger config xs (ws ++ [w]) (some (Cycle.start w)) e rounds booked begun where
  config_eq := hl.config_eq
  exchanges_eq := hl.exchanges_eq
  course := by
    intro c hc
    rw [← Option.some.inj hc, hl.idle rfl]
    exact .nil _
  idle := by simp
  opened_eq := by
    rw [hl.opened_eq]
    simp
    rfl
  enabled _ := hl.config_eq ▸ hon
  watermarks := hl.watermarks
  emitted := hl.emitted
  skipped := hl.skipped
  last := hl.last

/-- A cycle that is not to be written is booked and makes no round. -/
theorem disabled (hl : Ledger config xs ws none e rounds booked begun) (hoff : e.config.enabled = false)
    (w : Timestamp) :
    Ledger config xs (ws ++ [w]) none { e with lastWatermark := some w } rounds (booked ++ [w])
      begun where
  config_eq := hl.config_eq
  exchanges_eq := hl.exchanges_eq
  course := by simp
  idle := hl.idle
  opened_eq := by
    rw [hl.opened_eq]
    simp
  enabled := by simp
  watermarks := by
    have hnone := hl.watermarks
    rw [hl.config_eq] at hoff
    rw [if_neg (by simp [hoff])] at hnone
    rw [hnone, if_neg (by simp [hoff])]
  emitted := hl.emitted
  skipped := hl.skipped
  last := by simp

/-- An exchange of the cycle under way goes into the ledger. -/
theorem went (hl : Ledger config xs ws (some ⟨w, stage⟩) e rounds booked begun)
    (hx : Cycle.Goes w stage x next) :
    Ledger config (xs ++ [x]) ws (some ⟨w, next⟩) e rounds booked (begun ++ [x]) where
  config_eq := hl.config_eq
  exchanges_eq := by rw [hl.exchanges_eq, List.append_assoc]
  course := by
    rintro c hc
    obtain rfl := Option.some.inj hc
    exact (hl.course _ rfl).concat hx
  idle := by simp
  opened_eq := hl.opened_eq
  enabled _ := hl.enabled rfl
  watermarks := hl.watermarks
  emitted := hl.emitted
  skipped := hl.skipped
  last := hl.last

/-- A cycle that ends well is one round more. -/
theorem closed (hl : Ledger config xs ws (some ⟨w, stage⟩) e rounds booked begun)
    {outcome : EmitOutcome} (hx : Cycle.Goes w stage x (.ended (.ok outcome))) :
    ∃ round : Round, Ledger config (xs ++ [x]) ws none
      { e with
        lastWatermark := some w
        recordsEmitted := e.recordsEmitted + outcome.partitions
        cyclesSkipped := e.cyclesSkipped + outcome.skips }
      (rounds ++ [round]) (booked ++ [w]) [] := by
  obtain ⟨lists, puts, hbegun, haccount⟩ := ((hl.course _ rfl).concat hx).account
  have hon := hl.enabled rfl
  refine ⟨⟨w, lists, puts, outcome, haccount⟩, hl.config_eq, ?_, by simp, fun _ ↦ rfl, ?_, by simp, ?_,
    ?_, ?_, ?_⟩
  · rw [hl.exchanges_eq, List.append_assoc, hbegun]
    simp [Round.exchanges]
  · rw [hl.opened_eq]
    simp
  · have hrounds := hl.watermarks
    rw [if_pos hon] at hrounds
    rw [if_pos hon, List.map_append, hrounds]
    rfl
  · simp [hl.emitted]
  · simp [hl.skipped]
  · simp

end Ledger

namespace Replay

variable {config : WatermarkConfig} {r r' : Replay} {h : Happening} {xs begun : List Exchange}
  {ws booked : List Timestamp} {rounds : List Round}

/-- Every beat keeps the ledger, unless it breaks the replay off. -/
theorem Beat.ledger (hb : r.Beat h r')
    (hl : Ledger config xs ws r.cycle? r.emitter.totals rounds booked begun) :
    r'.IsBroken ∨ ∃ rounds booked begun,
      Ledger config (xs ++ (r.exchange? h).toList) (ws ++ (r.opened? h).toList) r'.cycle?
        r'.emitter.totals rounds booked begun := by
  cases hb with
  | quiet hx ho hc he =>
    rw [hx, ho, hc, he]
    refine Or.inr ⟨rounds, booked, begun, ?_⟩
    simpa using hl
  | opened hx ho hon hc hc' he =>
    rw [hc] at hl
    rw [hx, ho, hc', he]
    refine Or.inr ⟨rounds, booked, begun, ?_⟩
    simpa using hl.opened hon _
  | @disabled w _ hx ho hoff hc hc' he =>
    rw [hc] at hl
    rw [hx, ho, hc', he, Emitter.totals_booked, Option.toList_none, List.append_nil]
    exact Or.inr ⟨rounds, _, begun, hl.disabled hoff w⟩
  | went hx ho hgoes _ hc hc' he =>
    rw [hc] at hl
    rw [hx, ho, hc', he, Option.toList_none, List.append_nil]
    exact Or.inr ⟨rounds, booked, _, hl.went hgoes⟩
  | closed hx ho hgoes hc hc' he =>
    rw [hc] at hl
    obtain ⟨round, hl'⟩ := hl.closed hgoes
    rw [hx, ho, hc', he, Emitter.totals_booked, Option.toList_none, List.append_nil]
    exact Or.inr ⟨_, _, _, hl'⟩
  | broke hbroken => exact Or.inl hbroken

/-- A run that is not broken off has a ledger. -/
theorem ledger_after (hasks : r.IsAsking) (hc : r.cycle? = none)
    (he : r.emitter = { config }) (hs : List Happening) :
    (r.after hs).IsBroken ∨ ∃ rounds booked begun,
      Ledger config (r.observe exchange? hs) (r.observe opened? hs) (r.after hs).cycle?
        (r.after hs).emitter.totals rounds booked begun := by
  induction hs using List.reverseRecOn with
  | nil =>
    rw [after_nil, hc, he]
    exact Or.inr ⟨[], [], [], .empty config⟩
  | append_singleton hs h ih =>
    rw [after_concat, observe_concat, observe_concat]
    rcases ih with hbroken | ⟨rounds, booked, begun, hl⟩
    · exact Or.inl (broken_step hbroken h)
    · exact (beat_step (asking_after hasks hs) h).ledger hl

end Replay

end Tidemark
