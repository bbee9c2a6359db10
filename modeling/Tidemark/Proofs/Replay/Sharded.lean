import Tidemark.Proofs.Replay.Rounds
import Tidemark.Proofs.Replay.Shutdown
import Tidemark.Proofs.Shards.Served

/-!
# The cycles of a replay against a sharded stream

A cycle that has begun is served by a sharded stream. `Fares` says what it comes to, from the faults that its
exchanges have met so far; there is never more than one, since a fault ends the cycle:

```
faults so far         the cycle                         the replay
no fault              is under way, or is written       goes on
throttling            is skipped                        goes on
any other fault       ends with it                      ends with a fault of the kind watermark
```

One step keeps it (`fares_step`), so it holds until the cycle has ended, `fares_after`. `Attended` relates the
happenings to what the service was asked for and how it replied, `Attended.serves`. Neither of the two knows
of the other, and `throttling_is_told_from_failure` reads the replies of the service off both.
-/

namespace Tidemark

open Rehearsal Shards

/-! ### Cycles -/

/-- The faults that some exchanges have met. -/
def faultsOf (xs : List Exchange) : List Fault :=
  xs.filterMap Exchange.fault?

namespace Cycle

/-- A fault ends a cycle. Without one it is written to the end, or has something to ask for. -/
theorem Goes.fault_cases {w : Timestamp} {stage next : CycleStage} {x : Exchange}
    (hx : Goes w stage x next) :
    (∃ fault, x.fault? = some fault ∧ next = .ended (verdict fault)) ∨
      (x.fault? = none ∧
        ((∃ partitions, next = .ended (.ok (.emitted partitions))) ∨
          (⟨w, next⟩ : Cycle).request?.isSome)) := by
  have honward : ∀ left listed, (∃ partitions, onward left listed = .ended (.ok (.emitted partitions))) ∨
      (⟨w, onward left listed⟩ : Cycle).request?.isSome := by
    intro left listed
    cases left with
    | nil => exact Or.inl ⟨listed, rfl⟩
    | cons d rest => exact Or.inr rfl
  cases hx with
  | paged _ => exact Or.inr ⟨rfl, Or.inr rfl⟩
  | listed _ => exact Or.inr ⟨rfl, honward _ _⟩
  | unlisted => exact Or.inl ⟨_, rfl, rfl⟩
  | written => exact Or.inr ⟨rfl, honward _ _⟩
  | unwritten => exact Or.inl ⟨_, rfl, rfl⟩

/-- Once something was put, the listing has met no fault. -/
theorem Account.listed_of_puts {w : Timestamp} {lists : List ListCall} {puts : List PutCall}
    {result : Except Fault EmitOutcome} (ha : Account w lists puts result) (hputs : puts ≠ []) :
    ∀ call ∈ lists, faultOf? call.answer = none := by
  obtain ⟨last, page, hlast, hanswer, -⟩ := ha.complete hputs
  obtain ⟨earlier, rfl⟩ := List.getLast?_eq_some_iff.1 hlast
  intro call hcall
  rcases List.mem_append.1 hcall with hcall | hcall
  · have hnext := ha.asked.continues call (by rwa [List.dropLast_concat])
    cases hanswer' : call.answer with
    | ok page' => rfl
    | error fault => simp [hanswer', nextOf] at hnext
  · rw [List.mem_singleton.1 hcall, hanswer]
    rfl

section Course

variable {w : Timestamp} {lists : List ListCall} {puts : List PutCall}

/-- The partitions of a cycle are those that its listings found. -/
theorem flatMap_partitions :
    (lists.map Exchange.list ++ puts.map Exchange.put).flatMap Exchange.partitions = foundIn lists := by
  simp [List.flatMap_map, Exchange.partitions, foundIn]

theorem filterMap_record? :
    (lists.map Exchange.list ++ puts.map Exchange.put).filterMap Exchange.record? =
      puts.map PutCall.record := by
  simp [List.filterMap_map, Function.comp_def, Exchange.record?]

/-- A cycle that is written to the end has put one record for each partition listed, in their order. -/
theorem Course.records {xs : List Exchange} {partitions : Nat}
    (hxs : Course w (.listing {}) xs (.ended (.ok (.emitted partitions)))) :
    xs.filterMap Exchange.record? =
        (xs.flatMap Exchange.partitions).map (fun d ↦ Record.ofWatermark w d.lower) ∧
      (xs.flatMap Exchange.partitions).length = partitions := by
  obtain ⟨lists, puts, rfl, ha⟩ := hxs.account
  rw [filterMap_record?, flatMap_partitions]
  have hresult := ha.result_eq
  cases hfault : firstFault? lists puts with
  | some fault =>
    rw [hfault] at hresult
    dsimp only at hresult
    split at hresult <;> exact absurd hresult (by simp)
  | none =>
    rw [hfault] at hresult
    obtain ⟨-, hlength⟩ := ha.all hfault
    refine ⟨ha.records.eq_of_length ?_, ?_⟩
    · rw [List.length_map, List.length_map, hlength]
    · exact (EmitOutcome.emitted.inj (Except.ok.inj hresult)).symm

/-- A cycle whose listing fails has put nothing. -/
theorem Course.unwritten {xs : List Exchange} {result : Except Fault EmitOutcome}
    (hxs : Course w (.listing {}) xs (.ended result)) {x : Exchange} (hx : x ∈ xs)
    (hlists : x.record? = none) {fault : Fault} (hfault : x.fault? = some fault) :
    xs.filterMap Exchange.record? = [] := by
  obtain ⟨lists, puts, rfl, ha⟩ := hxs.account
  rw [filterMap_record?]
  by_contra hputs
  have hlisted := ha.listed_of_puts fun hnil ↦ hputs (by rw [hnil]; rfl)
  rcases List.mem_append.1 hx with hx | hx
  · obtain ⟨call, hcall, rfl⟩ := List.mem_map.1 hx
    exact absurd ((hlisted call hcall).symm.trans hfault) (by simp)
  · obtain ⟨call, -, rfl⟩ := List.mem_map.1 hx
    exact absurd hlists (by simp [Exchange.record?])

end Course

end Cycle

namespace Replay

/-- The loop goes on, unless the replay was cancelled by the last of some happenings. -/
def GoesOn (r : Replay) (hs : List Happening) : Prop :=
  (r.after hs).IsLooping ∨
    ((r.after hs).stage = .flushing (.ok ()) ∧ ∃ now a, hs.getLast? = some (.answered now true a))

/-- The cycle has ended well, written or skipped, and is booked; the loop goes on. -/
structure Closes (r : Replay) (hs : List Happening) (outcome : EmitOutcome) : Prop where
  ended : (r.after hs).cycle? = none
  onward : r.GoesOn hs
  emitted : (r.after hs).emitter.recordsEmitted = r.emitter.recordsEmitted + outcome.partitions
  skipped : (r.after hs).emitter.cyclesSkipped = r.emitter.cyclesSkipped + outcome.skips

/-- What has become of a cycle with a watermark, told by the faults that its exchanges have met. -/
inductive Fares (r : Replay) (w : Timestamp) (hs : List Happening) : Prop where
  | underway {stage : CycleStage}
      (hcycle : (r.after hs).cycle? = some ⟨w, stage⟩)
      (hcourse : Cycle.Course w (.listing {}) (r.observe exchange? hs) stage)
      (hfaults : faultsOf (r.observe exchange? hs) = [])
      (htotals : (r.after hs).emitter.totals = r.emitter.totals)
  | written {partitions : Nat}
      (hcourse : Cycle.Course w (.listing {}) (r.observe exchange? hs) (.ended (.ok (.emitted partitions))))
      (hfaults : faultsOf (r.observe exchange? hs) = [])
      (hcloses : r.Closes hs (.emitted partitions))
  | skipped {fault : Fault}
      (hfaults : faultsOf (r.observe exchange? hs) = [fault])
      (hthrottled : fault.isThrottled = true)
      (hcloses : r.Closes hs .skipped)
  | failed {fault : Fault}
      (hcourse : Cycle.Course w (.listing {}) (r.observe exchange? hs) (.ended (.error fault)))
      (hfaults : faultsOf (r.observe exchange? hs) = [fault])
      (hfatal : fault.isThrottled = false)
      (hstage : (r.after hs).stage = .flushing (.error (.cycle fault)))

variable {r : Replay} {w : Timestamp} {hs : List Happening}

/-- A cycle that ends well with an exchange is booked, and the loop goes on. -/
theorem Exchanged.closes {x : Exchange} {stage : CycleStage} {outcome : EmitOutcome} {e : Event}
    {checkedAt now : Instant} {cancelled : Bool} {a : ReplayAnswer}
    (hex : (r.after hs).Exchanged (.answered now cancelled a) x w stage (.ended (.ok outcome)) e checkedAt now
      cancelled)
    (htotals : (r.after hs).emitter.totals = r.emitter.totals) :
    r.Closes (hs ++ [.answered now cancelled a]) outcome := by
  obtain ⟨hended, hbooked, honward⟩ := hex.closed
  rw [← after_concat] at hended hbooked honward
  rw [Emitter.totals_booked, htotals] at hbooked
  refine ⟨hended, ?_, congrArg Emitter.recordsEmitted hbooked, congrArg Emitter.cyclesSkipped hbooked⟩
  rw [GoesOn, List.getLast?_concat]
  exact honward.imp_right fun hleft ↦ ⟨hleft.1, now, a, by rw [hleft.2]⟩

/-- An exchange of the cycle under way adds its fault to none. -/
theorem fares_exchange {stage : CycleStage} {now : Instant} {cancelled : Bool} {a : ReplayAnswer}
    {x : Exchange} (hcycle : (r.after hs).cycle? = some ⟨w, stage⟩)
    (hcourse : Cycle.Course w (.listing {}) (r.observe exchange? hs) stage)
    (hfaults : faultsOf (r.observe exchange? hs) = [])
    (htotals : (r.after hs).emitter.totals = r.emitter.totals)
    (hx : (r.after hs).exchange? (.answered now cancelled a) = some x) :
    r.Fares w (hs ++ [.answered now cancelled a]) := by
  obtain ⟨w', stage', next, e, checkedAt, hex⟩ := exchanged_of_answer hx
  have hsame : (r.after hs).cycle? = some ⟨w', stage'⟩ := cycle?_eq_some_iff.2 ⟨e, checkedAt, hex.stage_eq⟩
  obtain ⟨rfl, rfl⟩ := Cycle.mk.inj (Option.some.inj (hcycle.symm.trans hsame))
  have hafter := r.after_concat hs (.answered now cancelled a)
  have hobserved := observe_concat exchange? r hs (.answered now cancelled a)
  rw [hx, Option.toList_some] at hobserved
  have hgoes := hobserved ▸ hcourse.concat hex.goes
  have hnew : faultsOf (r.observe exchange? (hs ++ [.answered now cancelled a])) = x.fault?.toList := by
    rw [hobserved, faultsOf, List.filterMap_append, ← faultsOf, hfaults]
    cases hfault : x.fault? <;> simp [hfault]
  rcases hex.goes.fault_cases with ⟨fault, hfault, rfl⟩ | ⟨hcalm, ⟨partitions, rfl⟩ | hask⟩
  · rw [hfault] at hnew
    rw [Cycle.verdict] at hex hgoes
    by_cases ht : fault.isThrottled
    · rw [if_pos ht] at hex
      exact .skipped hnew ht (hex.closes htotals)
    · rw [if_neg ht] at hex hgoes
      refine .failed hgoes hnew (Bool.eq_false_iff.2 ht) ?_
      rw [hafter, hex.step_eq]
      rfl
  · rw [hcalm] at hnew
    exact .written hgoes hnew (hex.closes htotals)
  · rw [hcalm] at hnew
    obtain ⟨hgoing, hemitter⟩ := hex.underway hask
    exact .underway (hafter ▸ hgoing) hgoes hnew (by rw [hafter, hemitter, htotals])

/-- Whatever happens while the cycle is under way, the faults tell what has become of it. -/
theorem fares_step (hasks : (r.after hs).IsAsking) (hf : r.Fares w hs)
    (hsome : (r.after hs).cycle?.isSome) (h : Happening) : r.Fares w (hs ++ [h]) := by
  cases hf with
  | written _ _ hcloses => exact absurd hsome (by simp [hcloses.ended])
  | skipped _ _ hcloses => exact absurd hsome (by simp [hcloses.ended])
  | failed _ _ _ hstage => exact absurd hsome (by simp [cycle?, hstage])
  | @underway stage hcycle hcourse hfaults htotals =>
    cases hx : (r.after hs).exchange? h with
    | some x =>
      cases h with
      | completed id outcome => exact absurd hx (by simp [exchange?])
      | answered now cancelled a => exact fares_exchange hcycle hcourse hfaults htotals hx
    | none =>
      have hafter := r.after_concat hs h
      have hobserved := observe_concat exchange? r hs h
      rw [hx, Option.toList_none, List.append_nil] at hobserved
      obtain ⟨hstage, hemitter⟩ := kept_of_cycle hasks hcycle hx
      have hkept : (r.after (hs ++ [h])).cycle? = some ⟨w, stage⟩ := by
        rw [hafter, cycle?, hstage, ← cycle?, hcycle]
      exact .underway hkept (hobserved ▸ hcourse) (hobserved ▸ hfaults) (by rw [hafter, hemitter, htotals])

/-- A cycle is under way until the last of some happenings. -/
def Lasts (r : Replay) (hs : List Happening) : Prop :=
  ∀ n < hs.length, (r.after (hs.take n)).cycle?.isSome

instance (r : Replay) (hs : List Happening) : Decidable (r.Lasts hs) :=
  inferInstanceAs (Decidable (∀ n < hs.length, (r.after (hs.take n)).cycle?.isSome))

theorem Lasts.of_concat {h : Happening} (hl : r.Lasts (hs ++ [h])) :
    r.Lasts hs ∧ (r.after hs).cycle?.isSome := by
  have htake : ∀ n ≤ hs.length, (hs ++ [h]).take n = hs.take n := fun n hn ↦ List.take_append_of_le_length hn
  have hlength : (hs ++ [h]).length = hs.length + 1 := List.length_append
  constructor
  · intro n hn
    rw [← htake n (Nat.le_of_lt hn)]
    exact hl n (by omega)
  · have hlast := hl hs.length (by omega)
    rwa [htake _ (Nat.le_refl _), List.take_length] at hlast

/-- A cycle that is opened, and is to be written, has just begun. -/
theorem cycle?_of_opened {h : Happening} (ho : r.opened? h = some w) (hon : r.emitter.config.enabled = true) :
    (r.step h).1.cycle? = some (Cycle.start w) := by
  obtain ⟨now, e, hstep⟩ := step_of_opened ho
  rw [hstep, if_pos hon]
  rfl

/-- What has become of a cycle that had just begun. -/
theorem fares_after (hasks : r.IsAsking) (hbegun : r.cycle? = some (Cycle.start w)) (hl : r.Lasts hs) :
    r.Fares w hs := by
  induction hs using List.reverseRecOn with
  | nil => exact .underway hbegun (.nil _) rfl rfl
  | append_singleton hs h ih =>
    obtain ⟨hl, hsome⟩ := hl.of_concat
    exact fares_step (asking_after hasks hs) (ih hl) hsome h

/-! ### Closed and failed -/

/-- Whatever happens next, the replay waits for the answer to its flush and then for what is outstanding, and
after that it has ended with the fault. -/
def EndsWith (r : Replay) (fault : Fault) : Prop :=
  ∀ more, match r.observe flushed? more with
    | [] => (r.after more).request = .flush
    | _ :: _ => (r.after more).stage = .ended (.error fault) ∨
      ((r.after more).request = .settle ∧ (r.after more).dispatch.outstanding ≠ [])

/-- The loop ends with a fault of the kind `watermark`, and so does the replay. -/
def Fails (r : Replay) (hs : List Happening) : Prop :=
  ∃ fault, fault.kind = .watermark ∧ (r.after hs).stage = .flushing (.error fault) ∧
    (r.after hs).EndsWith fault

/-- A loop that has ended with the fault of a cycle waits for its flush, and then for what is outstanding. -/
theorem endsWith_of_flushing (hasks : r.IsAsking) {cause : Fault}
    (hs : r.stage = .flushing (.error (.cycle cause))) : r.EndsWith (.cycle cause) := by
  intro more
  have hleft : ¬ r.IsLooping := by simp [IsLooping, hs]
  have hsource : r.sourceFault? more = none := by
    rw [sourceFault?, (run_of_not_looping hleft more).2.2]
    rfl
  have hstart : r.Winds none (some cause) [] ([] ++ [.flush]) := .flushing hs List.not_mem_nil
  have hw := Winds.after hasks hstart more
  rw [hsource, Option.some_or, List.nil_append] at hw
  generalize r.observe flushed? more = flushes at hw
  generalize _ ++ r.observe call? more = calls at hw
  cases hw with
  | looping _ _ hcycle => exact absurd hcycle (by simp)
  | flushing hs' => simp [request, hs']
  | settling hs' hwaits => exact Or.inr ⟨by rw [request, hs'], hwaits⟩
  | ended hs' => exact Or.inl hs'

/-- A cycle that has ended well has not failed. -/
theorem Closes.not_fails {outcome : EmitOutcome} (h : r.Closes hs outcome) : ¬ r.Fails hs := by
  rintro ⟨fault, -, hstage, -⟩
  rcases h.onward with hl | ⟨hleft, -⟩
  · simp [IsLooping, hstage] at hl
  · exact absurd (hstage.symm.trans hleft) (by simp)

/-- A fault that an exchange has met decides about the cycle. -/
theorem Fares.of_fault (hf : r.Fares w hs) (hasks : r.IsAsking) {x : Exchange}
    (hx : x ∈ r.observe exchange? hs) {fault : Fault} (hfault : x.fault? = some fault) :
    (fault.isThrottled = true ∧ r.Closes hs .skipped) ∨
      (fault.isThrottled = false ∧ r.Fails hs ∧
        Cycle.Course w (.listing {}) (r.observe exchange? hs) (.ended (.error fault))) := by
  have hmem : fault ∈ faultsOf (r.observe exchange? hs) := List.mem_filterMap.2 ⟨x, hx, hfault⟩
  cases hf with
  | underway _ _ hfaults => exact absurd (hfaults ▸ hmem) List.not_mem_nil
  | written _ hfaults => exact absurd (hfaults ▸ hmem) List.not_mem_nil
  | skipped hfaults hthrottled hcloses =>
    rw [hfaults, List.mem_singleton] at hmem
    exact Or.inl ⟨hmem ▸ hthrottled, hcloses⟩
  | failed hcourse hfaults hfatal hstage =>
    rw [hfaults, List.mem_singleton] at hmem
    subst hmem
    have hends := endsWith_of_flushing (asking_after hasks hs) hstage
    exact Or.inr ⟨hfatal, ⟨_, rfl, hstage, hends⟩, hcourse⟩

/-! ### Served by a stream -/

/-- What a sharded stream can have come to while a replay ran against it, with the listings and puts that it
has served. The replay takes the answers of the client, and in between anything may happen that asks the
service for no listing and no put: time passes, batches are written, the replies that are yet to come
change. -/
inductive Attended (r : Replay) (w₀ : Sharding) : List Happening → List Served → Sharding → Prop where
  | fresh : Attended r w₀ [] [] w₀
  | disturbed {hs : List Happening} {served : List Served} {w w' : Sharding} :
      Attended r w₀ hs served w → w'.state.streamName = w.state.streamName → w'.asked = w.asked →
      Attended r w₀ hs served w'
  | listed {hs : List Happening} {served : List Served} {w : Sharding} {token : Option String}
      (now : Instant) (cancelled : Bool) :
      Attended r w₀ hs served w → (r.after hs).request = .list token →
      Attended r w₀ (hs ++ [.answered now cancelled (.listed (w.list token).1)])
        (served ++ [.list token w.listReply]) (w.list token).2
  | wrote {hs : List Happening} {served : List Served} {w : Sharding} {record : Record}
      (now : Instant) (cancelled : Bool) :
      Attended r w₀ hs served w → (r.after hs).request = .put record →
      Attended r w₀ (hs ++ [.answered now cancelled (.wrote (w.put record).1)])
        (served ++ [.put record w.putReply]) (w.put record).2
  | passed {hs : List Happening} {served : List Served} {w : Sharding} (h : Happening) :
      Attended r w₀ hs served w → (r.after hs).exchange? h = none → Attended r w₀ (hs ++ [h]) served w

/-- The exchanges of the replay are what was served, and the service was asked for just that. -/
structure Serves (r : Replay) (w₀ : Sharding) (hs : List Happening) (served : List Served)
    (w : Sharding) : Prop where
  exchanges : r.observe exchange? hs = served.map Served.exchange
  asked : w.asked = w₀.asked ++ served.map (Served.request w₀.state.streamName)
  streamName : w.state.streamName = w₀.state.streamName

section Serves

variable {w₀ world world' : Sharding} {served : List Served}

theorem Serves.concat {h : Happening} {s : Served} (hserves : r.Serves w₀ hs served world)
    (hx : (r.after hs).exchange? h = some s.exchange)
    (hasked : world'.asked = world.asked ++ [s.request world.state.streamName])
    (hname : world'.state.streamName = world.state.streamName) :
    r.Serves w₀ (hs ++ [h]) (served ++ [s]) world' where
  exchanges := by
    rw [observe_concat, hx, hserves.exchanges, List.map_append]
    rfl
  asked := by
    rw [hasked, hserves.asked, hserves.streamName, List.map_append, List.append_assoc]
    rfl
  streamName := hname.trans hserves.streamName

/-- Whatever the replay was attended with, its exchanges are what was served. -/
theorem Attended.serves (ha : r.Attended w₀ hs served world) : r.Serves w₀ hs served world := by
  induction ha with
  | fresh => exact ⟨rfl, (List.append_nil _).symm, rfl⟩
  | disturbed _ hname hasked ih =>
    exact ⟨ih.exchanges, hasked.trans ih.asked, hname.trans ih.streamName⟩
  | passed h _ hx ih =>
    refine ⟨?_, ih.asked, ih.streamName⟩
    rw [observe_concat, hx, ih.exchanges, Option.toList_none, List.append_nil]
  | @listed hs served world token now cancelled _ hq ih =>
    obtain ⟨hanswer, hasked, hname⟩ := world.list_eq token
    refine ih.concat (s := .list token world.listReply) ?_ hasked hname
    simp only [exchange?, hq, hanswer, Served.exchange]
  | @wrote hs served world record now cancelled _ hq ih =>
    obtain ⟨hanswer, hasked, hname⟩ := world.put_eq record
    refine ih.concat (s := .put record world.putReply) ?_ hasked hname
    simp only [exchange?, hq, hanswer, Served.exchange]

/-! ### What becomes of a cycle that is served -/

/-- The code of a refusal decides between skipping the cycle and ending the replay. -/
theorem Fares.of_refusal (hf : r.Fares w hs) (hasks : r.IsAsking) {s : Served}
    (hs' : s.exchange ∈ r.observe exchange? hs) {refusal : Refusal} (hrefusal : s.refusal? = some refusal) :
    (r.Closes hs .skipped ↔ refusal.IsThrottling) ∧ (r.Fails hs ↔ ¬ refusal.IsThrottling) := by
  rcases s.fault_cases with ⟨hsound, -⟩ | ⟨refusal', hrefusal', -, hfault⟩ | ⟨hnone, -⟩
  · exact absurd (hrefusal.symm.trans hsound.1) (by simp)
  · obtain rfl := Option.some.inj (hrefusal.symm.trans hrefusal')
    rw [← StreamFault.isThrottled_ofRefusal]
    rcases hf.of_fault hasks hs' hfault with ⟨ht, hskipped⟩ | ⟨ht, hfails, -⟩
    · exact ⟨iff_of_true hskipped ht, iff_of_false hskipped.not_fails (not_not_intro ht)⟩
    · have hfatal := Bool.eq_false_iff.1 ht
      exact ⟨iff_of_false (fun hskipped ↦ hskipped.not_fails hfails) hfatal, iff_of_true hfails hfatal⟩
  · exact absurd (hrefusal.symm.trans hnone) (by simp)

/-- A shard without a range ends the replay before anything is put. -/
theorem Fares.of_rangeless (hf : r.Fares w hs) (hasks : r.IsAsking) {s : Served}
    (hs' : s.exchange ∈ r.observe exchange? hs) (hbare : s.IsRangeless) :
    r.Fails hs ∧ (r.observe exchange? hs).filterMap Exchange.record? = [] := by
  rcases s.fault_cases with ⟨hsound, -⟩ | ⟨-, -, hranged, -⟩ | ⟨-, -, fault, hfault, ht⟩
  · exact absurd hbare hsound.2
  · exact absurd hbare hranged
  · rcases hf.of_fault hasks hs' hfault with ⟨ht', -⟩ | ⟨-, hfails, hcourse⟩
    · exact absurd (ht.symm.trans ht') (by simp)
    · exact ⟨hfails, hcourse.unwritten hs' (s.record?_exchange.trans hbare.record?) hfault⟩

/-- A cycle that has met no fault and has ended was written to all that was listed. -/
theorem Fares.of_calm (hf : r.Fares w hs) (hnone : faultsOf (r.observe exchange? hs) = [])
    (hended : (r.after hs).cycle? = none) :
    (r.observe exchange? hs).filterMap Exchange.record? =
        ((r.observe exchange? hs).flatMap Exchange.partitions).map (fun d ↦ Record.ofWatermark w d.lower) ∧
      r.Closes hs (.emitted ((r.observe exchange? hs).flatMap Exchange.partitions).length) := by
  cases hf with
  | underway hcycle => exact absurd (hended.symm.trans hcycle) (by simp)
  | skipped hfaults => exact absurd (hnone.symm.trans hfaults) (by simp)
  | failed _ hfaults => exact absurd (hnone.symm.trans hfaults) (by simp)
  | written hcourse _ hcloses =>
    obtain ⟨hrecords, hlength⟩ := hcourse.records
    exact ⟨hrecords, hlength ▸ hcloses⟩

/-- Against a sharded stream, what a cycle has asked the service for and what becomes of it are told by the
replies of the service. A listing is asked for by the name of the stream exactly if no token is there to go on
with. If anything was refused, the cycle is skipped and the replay goes on exactly if the code is one of the
throttling codes, and otherwise the replay ends with a fault of the kind `watermark`. It also does so if a shard
has no range, and then no record was put. If all went well and the cycle has ended, then one record was put for
each shard listed, in their order, and its hash is where the range of the shard begins. -/
theorem throttling_is_told_from_failure (c : ReplayConfig) (t : Tracker) (i : Instruments)
    {before : List Happening} {w : Timestamp}
    (hbegun : ((start c t i).after before).cycle? = some (Cycle.start w))
    (hlasts : ((start c t i).after before).Lasts hs)
    (hattended : ((start c t i).after before).Attended w₀ hs served world) :
    let r := (start c t i).after before
    let streamName := w₀.state.streamName
    let puts := served.filterMap Served.record?
    r.observe exchange? hs = served.map Served.exchange ∧
      world.asked = w₀.asked ++ served.map (Served.request streamName) ∧
      (∀ page, .list page ∈ served.map (Served.request streamName) →
        (page.streamName = some streamName ∧ page.token = none) ∨
          (page.streamName = none ∧ page.token.isSome)) ∧
      (∀ s ∈ served, ∀ refusal, s.refusal? = some refusal →
        (r.Closes hs .skipped ↔ refusal.IsThrottling) ∧ (r.Fails hs ↔ ¬ refusal.IsThrottling)) ∧
      (∀ s ∈ served, s.IsRangeless → r.Fails hs ∧ puts = []) ∧
      ((∀ s ∈ served, s.IsSound) → (r.after hs).cycle? = none →
        puts.map (fun record ↦ record.routing.hash?) = (served.flatMap Served.shards).map Shard.lower ∧
          (∀ record ∈ puts, ∃ lower, record = Record.ofWatermark w lower) ∧
          r.Closes hs (.emitted puts.length)) := by
  intro r streamName puts
  have hasks : r.IsAsking := asking_after (asking_start c t i) before
  have hfares : r.Fares w hs := fares_after hasks hbegun hlasts
  obtain ⟨hexchanges, hasked, -⟩ := hattended.serves
  have hputs : (r.observe exchange? hs).filterMap Exchange.record? = puts := by
    rw [hexchanges]
    exact Served.filterMap_record? served
  have hexchanged : ∀ s ∈ served, s.exchange ∈ r.observe exchange? hs := fun s hs' ↦ by
    rw [hexchanges]
    exact List.mem_map_of_mem hs'
  refine ⟨hexchanges, hasked, ?_, ?_, ?_, ?_⟩
  · intro page hpage
    obtain ⟨s, -, hs'⟩ := List.mem_map.1 hpage
    exact Served.name_or_token hs'
  · exact fun s hs' refusal hrefusal ↦ hfares.of_refusal hasks (hexchanged s hs') hrefusal
  · intro s hs' hbare
    obtain ⟨hfails, hnone⟩ := hfares.of_rangeless hasks (hexchanged s hs') hbare
    exact ⟨hfails, hputs.symm.trans hnone⟩
  · intro hsound hended
    have hnone : faultsOf (r.observe exchange? hs) = [] := by
      rw [hexchanges, faultsOf, List.filterMap_map]
      exact List.filterMap_eq_nil_iff.2 fun s hs' ↦ (hsound s hs').fault?
    obtain ⟨hrecords, hcloses⟩ := hfares.of_calm hnone hended
    have hlowers := Served.lowers_of_sound hsound
    rw [← hexchanges] at hlowers
    rw [hputs] at hrecords
    refine ⟨?_, ?_, ?_⟩
    · rw [hrecords, hlowers, List.map_map]
      rfl
    · intro record hrecord
      rw [hrecords] at hrecord
      obtain ⟨d, -, rfl⟩ := List.mem_map.1 hrecord
      exact ⟨d.lower, rfl⟩
    · rw [hrecords, List.length_map]
      exact hcloses

/-- The second page of the listing is throttled, and the cycle is skipped. -/
theorem throttling_is_told_from_failure_slowDown :
    let pulled (now : Instant) (n : Nat) : Happening := .answered now false (.pulled (.ok threeEvents[n]?))
    let r := (start everyEvent {} {}).after [pulled Instant.start 0, pulled tenSeconds 1]
    let script : ServiceScript :=
      { listings :=
          [.ok ⟨[⟨"shard", some "0"⟩], some "next"⟩, .error (.coded "SlowDown" none)] }
    let w₀ := (Sharding.connect { streamName := "stream" } script).2
    let first := w₀.list none
    let second := Sharding.list first.2 (some "next")
    let hs : List Happening :=
      [.answered tenSeconds false (.listed first.1), .answered tenSeconds false (.listed second.1)]
    let served : List Served := [.list none w₀.listReply, .list (some "next") (Sharding.listReply first.2)]
    r.cycle? = some (Cycle.start ⟨999, by decide, by decide⟩) ∧ r.Lasts hs ∧ r.Attended w₀ hs served second.2 ∧
      Sharding.asked second.2 = [.list ⟨some "stream", none⟩, .list ⟨none, some "next"⟩] ∧ r.Closes hs .skipped := by
  intro pulled r script w₀ first second hs served
  have hbegun : r.cycle? = some (Cycle.start ⟨999, by decide, by decide⟩) := by
    have hopened : ((start everyEvent {} {}).after [pulled Instant.start 0]).opened? (pulled tenSeconds 1) =
        some ⟨999, by decide, by decide⟩ := by decide +kernel
    have hcycle := cycle?_of_opened hopened (by decide +kernel)
    rwa [← after_concat] at hcycle
  have hlasts : r.Lasts hs := by decide +kernel
  have hattended : r.Attended w₀ hs served second.2 :=
    .listed tenSeconds false (.listed tenSeconds false .fresh (by decide +kernel)) (by decide +kernel)
  obtain ⟨-, hasked, -, hrefused, -⟩ :=
    throttling_is_told_from_failure everyEvent {} {} hbegun hlasts hattended
  have hskipped := (hrefused _ (List.mem_cons_of_mem _ List.mem_cons_self) (.coded "SlowDown" none)
    (by decide +kernel)).1.2 (by decide)
  exact ⟨hbegun, hlasts, hattended, hasked, hskipped⟩

end Serves

end Replay

end Tidemark
