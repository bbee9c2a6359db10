import Mathlib.Data.ENat.Lattice
import Tidemark.Proofs.Retry.Attempts
import Tidemark.Proofs.Time.Instants
import Tidemark.Retry

/-!
# The course of a retry

What is called, and when, is told by the outcomes and the delays alone. A call `Decides` when it succeeds or fails
for good; any other is followed by a further one if there is a delay left:

```
outcomes   busy     busy     busy     done
delays         d₀       d₁       d₂            least Decides = 3, no delay is asked for after it
delays         d₀       d₁    none             least (delay? = none) = 2, the third failure is the result
```

So the calls are counted by the first position at which either happens. Up to there a retry goes on
(`run_of_goesOn`), and there it stops for good (`run_of_stops`). Either count may be infinite, and the lesser of
the two is the one that ends it (`min_least`). How many delays a backoff has is told by its attempts
(`delay?_drawn_eq_none_iff`). `called_until_decided` is all of this for any operation and any delays. A delay is
slept as long as it says unless the clock does not count so far (`longest_delay_is_cut_short`).
-/

namespace Tidemark

/-- The least number with a property, infinite if there is none. -/
noncomputable def least (P : ℕ → Prop) : ℕ∞ :=
  ⨅ n, ⨅ _ : P n, (n : ℕ∞)

section Least

variable {P Q : ℕ → Prop} {n : ℕ}

/-- The least number with a property has it, and none before does. -/
theorem least_eq_coe_iff : least P = n ↔ P n ∧ ∀ m < n, ¬ P m := by
  constructor
  · intro h
    have hbelow : ∀ m, P m → n ≤ m := fun m hm ↦ by
      have hle : least P ≤ m := iInf₂_le m hm
      rw [h] at hle
      exact_mod_cast hle
    refine ⟨?_, fun m hlt hm ↦ absurd (hbelow m hm) (Nat.not_le.2 hlt)⟩
    by_contra hn
    have habove : ((n + 1 : ℕ) : ℕ∞) ≤ least P := le_iInf₂ fun m hm ↦ by
      have hne : n ≠ m := fun he ↦ hn (he ▸ hm)
      exact_mod_cast Nat.lt_of_le_of_ne (hbelow m hm) hne
    rw [h] at habove
    exact absurd (Nat.cast_le.1 habove) (Nat.not_succ_le_self n)
  · rintro ⟨hn, hbefore⟩
    refine le_antisymm (iInf₂_le n hn) (le_iInf₂ fun m hm ↦ ?_)
    exact_mod_cast Nat.not_lt.1 fun hlt ↦ hbefore m hlt hm

/-- There is no least number with a property that none has. -/
theorem least_eq_top_iff : least P = ⊤ ↔ ∀ n, ¬ P n := by
  simp [least]

/-- The least number with either of two properties is the lesser of the two. -/
theorem min_least : min (least P) (least Q) = least fun n ↦ P n ∨ Q n := by
  simp only [least, iInf_or, iInf_inf_eq]

/-- A number that is one more than the least one comes right after it. -/
theorem exists_of_least_add_one (h : least P + 1 = n) : ∃ m, n = m + 1 ∧ least P = m := by
  cases hleast : least P with
  | top =>
    rw [hleast] at h
    exact absurd h (ENat.top_ne_natCast n)
  | coe m =>
    rw [hleast] at h
    exact ⟨m, by exact_mod_cast h.symm, rfl⟩

/-- If no number before has the property, the least one that has it tells whether this one does. -/
theorem least_add_one_eq_iff (hbefore : ∀ m < n, ¬ P m) : least P + 1 = (n + 1 : ℕ) ↔ P n := by
  constructor
  · intro h
    obtain ⟨m, hm, hleast⟩ := exists_of_least_add_one h
    rw [Nat.succ.inj hm]
    exact (least_eq_coe_iff.1 hleast).1
  · intro hn
    rw [least_eq_coe_iff.2 ⟨hn, hbefore⟩]
    rfl

end Least

namespace Retry

variable {ε α δ : Type} (p : Retry ε α δ) (now : Instant) (s : δ) {n : ℕ}

/-- What is left of the delays when so many have been asked for. -/
def delaysAfter : ℕ → δ
  | 0 => s
  | n + 1 => (p.next (delaysAfter n)).2

/-- The delay that there is after a call, counted from zero, if it is asked for. -/
def delay? (n : ℕ) : Option Span :=
  (p.next (p.delaysAfter s n)).1

/-- A call succeeds, or fails for good. -/
def Decides (n : ℕ) : Prop :=
  ∀ e, (p.operation n).2 = .error e → p.retryable e = false

/-- A call is the last one. -/
def Stops (n : ℕ) : Prop :=
  p.Decides n ∨ p.delay? s n = none

/-- When a call begins if there is one. -/
def began : ℕ → Instant
  | 0 => now
  | n + 1 => ((began n).after (p.operation n).1).wake ((p.delay? s n).getD Span.zero)

/-- A call if there is one. -/
def call (n : ℕ) : RetryCall ε α :=
  ⟨p.began now s n, (p.began now s n).after (p.operation n).1, (p.operation n).2⟩

/-- How a retry stands that goes on after so many calls. -/
def before (n : ℕ) : Retrial ε α δ :=
  { now := p.began now s n
    delays := p.delaysAfter s n
    calls := (List.range n).map (p.call now s) }

variable {p now s}

/-! ### Calls -/

/-- Once a retry has its result nothing more happens. -/
theorem run_of_isSome {r : Retrial ε α δ} (h : r.result.isSome) (n : ℕ) : p.run n r = r := by
  cases n with
  | zero => rfl
  | succ n => rw [run, if_pos h]

theorem step_of_isSome {r : Retrial ε α δ} (h : r.result.isSome) : p.step r = r := by
  obtain ⟨result, hresult⟩ := Option.isSome_iff_exists.1 h
  rw [step, hresult]

/-- One call more is one step more at the end. -/
theorem run_succ (n : ℕ) (r : Retrial ε α δ) : p.run (n + 1) r = p.step (p.run n r) := by
  induction n generalizing r with
  | zero =>
    show (if r.result.isSome then r else p.step r) = p.step r
    split
    · exact (step_of_isSome ‹_›).symm
    · rfl
  | succ n ih =>
    rw [run]
    split
    · rename_i hresult
      rw [run_of_isSome hresult, step_of_isSome hresult]
    · rename_i hresult
      rw [ih, run, if_neg hresult]

/-- A call that does not decide fails with an error that may be tried again. -/
theorem exists_of_not_decides (h : ¬ p.Decides n) :
    ∃ e, (p.operation n).2 = .error e ∧ p.retryable e = true := by
  simpa [Decides] using h

/-- A call that is not the last one is a step to the next. -/
theorem step_before (h : ¬ p.Stops s n) : p.step (p.before now s n) = p.before now s (n + 1) := by
  obtain ⟨hpasses, hdelay⟩ := not_or.1 h
  obtain ⟨d, hd⟩ := Option.ne_none_iff_exists'.1 hdelay
  obtain ⟨e, houtcome, hretryable⟩ := exists_of_not_decides hpasses
  have hnext : p.next (p.delaysAfter s n) = (some d, p.delaysAfter s (n + 1)) := Prod.ext hd rfl
  simp [step, before, retryStep, houtcome, hretryable, hnext, List.range_succ, call, began, hd]

/-- How a retry ends with a call: right after it, with its outcome, and with a delay asked for only if the call
did not decide. -/
theorem step_before_of_stops (now : Instant) (h : p.Stops s n) :
    ∃ delays, p.step (p.before now s n) =
        { now := (p.call now s n).ended
          delays
          calls := (List.range (n + 1)).map (p.call now s)
          result := some (p.call now s n).outcome } ∧
      (p.Decides n → delays = p.delaysAfter s n) ∧ (¬ p.Decides n → delays = p.delaysAfter s (n + 1)) := by
  by_cases hdecides : p.Decides n
  · refine ⟨p.delaysAfter s n, ?_, fun _ ↦ rfl, fun hnot ↦ absurd hdecides hnot⟩
    cases houtcome : (p.operation n).2 with
    | ok value => simp [step, before, retryStep, houtcome, List.range_succ, call]
    | error e => simp [step, before, retryStep, houtcome, hdecides e houtcome, List.range_succ, call]
  · refine ⟨p.delaysAfter s (n + 1), ?_, fun hyes ↦ absurd hyes hdecides, fun _ ↦ rfl⟩
    have hnext : p.next (p.delaysAfter s n) = (none, p.delaysAfter s (n + 1)) :=
      Prod.ext (h.resolve_left hdecides) rfl
    obtain ⟨e, houtcome, hretryable⟩ := exists_of_not_decides hdecides
    simp [step, before, retryStep, houtcome, hretryable, hnext, List.range_succ, call]

/-- A retry goes on as long as no call is the last one. -/
theorem run_of_goesOn (h : ∀ j < n, ¬ p.Stops s j) :
    p.run n { now, delays := s } = p.before now s n := by
  induction n with
  | zero => rfl
  | succ n ih =>
    rw [run_succ, ih fun j hj ↦ h j (Nat.lt_succ_of_lt hj)]
    exact step_before (h n (Nat.lt_succ_self n))

/-- A retry that has come to its last call stays where that leaves it. -/
theorem run_of_stops (hbefore : ∀ j < n, ¬ p.Stops s j) (h : p.Stops s n) {m : ℕ} (hm : n < m) :
    p.run m { now, delays := s } = p.step (p.before now s n) := by
  induction m, hm using Nat.le_induction with
  | base => rw [run_succ, run_of_goesOn hbefore]
  | succ m _ ih =>
    obtain ⟨delays, hstep, -⟩ := step_before_of_stops now h
    rw [run_succ, ih, hstep]
    exact step_of_isSome rfl

/-- The first call that is the last one, if there is one among so many. -/
theorem goesOn_or_stops (p : Retry ε α δ) (s : δ) (n : ℕ) :
    (∀ j < n, ¬ p.Stops s j) ∨ ∃ m < n, p.Stops s m ∧ ∀ j < m, ¬ p.Stops s j := by
  classical
  by_cases h : ∃ m < n, p.Stops s m
  · obtain ⟨m, hm, hstops⟩ := h
    have hfirst : ∃ m, p.Stops s m := ⟨m, hstops⟩
    refine Or.inr ⟨Nat.find hfirst, ?_, Nat.find_spec hfirst, fun j hj ↦ Nat.find_min hfirst hj⟩
    exact Nat.lt_of_le_of_lt (Nat.find_min' hfirst hstops) hm
  · exact Or.inl fun j hj hstops ↦ h ⟨j, hj, hstops⟩

/-! ### The time between calls -/

variable (p now s) in
/-- Calls follow each other as the operation and the delays have it. The first begins at once; each takes its time
and has its outcome. Between a call and the next there is a sleep of the delay, which ends at a whole millisecond. -/
structure Paced (calls : List (RetryCall ε α)) : Prop where
  first : ∀ c, calls[0]? = some c → c.began = now
  each : ∀ j c, calls[j]? = some c →
    c.ended = c.began.after (p.operation j).1 ∧ c.outcome = (p.operation j).2
  next : ∀ j c c', calls[j]? = some c → calls[j + 1]? = some c' →
    ∃ d, p.delay? s j = some d ∧ (c.ended.after (c.ended.slept d)).IsNextMilli c'.began

/-- The calls are numbered in the order in which they are made. -/
theorem getElem?_calls {j : ℕ} {c : RetryCall ε α} :
    ((List.range n).map (p.call now s))[j]? = some c ↔ j < n ∧ p.call now s j = c := by
  rw [List.getElem?_map]
  by_cases hj : j < n
  · simp [hj]
  · rw [List.getElem?_eq_none (by rwa [List.length_range, Nat.not_lt] at *)]
    simp [hj]

/-- The calls are paced if every one but the last has a delay after it. -/
theorem paced_calls (h : ∀ j, j + 1 < n → p.delay? s j ≠ none) :
    p.Paced now s ((List.range n).map (p.call now s)) where
  first c hc := by
    obtain ⟨-, rfl⟩ := getElem?_calls.1 hc
    rfl
  each j c hc := by
    obtain ⟨-, rfl⟩ := getElem?_calls.1 hc
    exact ⟨rfl, rfl⟩
  next j c c' hc hc' := by
    obtain ⟨-, rfl⟩ := getElem?_calls.1 hc
    obtain ⟨hlt, rfl⟩ := getElem?_calls.1 hc'
    obtain ⟨d, hd⟩ := Option.ne_none_iff_exists'.1 (h j hlt)
    have hbegan : (p.call now s (j + 1)).began = (p.call now s j).ended.wake d := by
      show ((p.began now s j).after (p.operation j).1).wake ((p.delay? s j).getD Span.zero) = _
      rw [hd]
      rfl
    exact ⟨d, hd, hbegan ▸ Instant.wake_isNextMilli _ d⟩

/-- However far a retry has come, its calls are paced. -/
theorem paced_run (p : Retry ε α δ) (now : Instant) (s : δ) (n : ℕ) :
    p.Paced now s (p.run n { now, delays := s }).calls := by
  have hdelay {m : ℕ} (hbefore : ∀ j < m, ¬ p.Stops s j) (j : ℕ) (hj : j < m) : p.delay? s j ≠ none :=
    fun hnone ↦ hbefore j hj (Or.inr hnone)
  rcases goesOn_or_stops p s n with hbefore | ⟨m, hm, hstops, hbefore⟩
  · rw [run_of_goesOn hbefore]
    exact paced_calls fun j hj ↦ hdelay hbefore j (Nat.lt_of_succ_lt hj)
  · obtain ⟨delays, hstep, -⟩ := step_before_of_stops now hstops
    rw [run_of_stops hbefore hstops hm, hstep]
    exact paced_calls fun j hj ↦ hdelay hbefore j (Nat.lt_of_succ_lt_succ hj)

end Retry

/-! ### Delays of a backoff -/

/-- The next delay of a backoff. The factors for the delays are drawn one after the other. -/
def Backoff.drawn (draws : ℕ → Binary64) (s : Backoff × ℕ) : Option Span × (Backoff × ℕ) :=
  ((s.1.next (draws s.2)).1, (s.1.next (draws s.2)).2, s.2 + 1)

namespace Retry

variable {ε α δ : Type}

/-- The same operation, retried with a backoff. -/
def backedOff (p : Retry ε α δ) (draws : ℕ → Binary64) : Retry ε α (Backoff × ℕ) :=
  { p with next := Backoff.drawn draws }

/-- To ask for a delay more is to ask for one first and for the others then. -/
theorem delaysAfter_succ (p : Retry ε α δ) (s : δ) (n : ℕ) :
    p.delaysAfter s (n + 1) = p.delaysAfter (p.next s).2 n := by
  induction n with
  | zero => rfl
  | succ n ih =>
    rw [delaysAfter, ih]
    rfl

/-- The delay after the next call is the first delay of what is left. -/
theorem delay?_succ (p : Retry ε α δ) (s : δ) (n : ℕ) : p.delay? s (n + 1) = p.delay? (p.next s).2 n := by
  rw [delay?, delaysAfter_succ]
  rfl

/-- A backoff has as many delays as attempts that are left, whatever is drawn. -/
theorem delay?_drawn_eq_none_iff {p : Retry ε α (Backoff × ℕ)} {draws : ℕ → Binary64}
    (hnext : p.next = Backoff.drawn draws) {s : Backoff × ℕ} {most : ℕ} (hmost : s.1.maxAttempts = some most)
    (hlt : most < 2 ^ 32) (n : ℕ) : p.delay? s n = none ↔ most ≤ s.1.attempt.toNat + n := by
  induction n generalizing s with
  | zero =>
    have hleft := Backoff.next_eq_none_iff hmost (draws s.2)
    rw [delay?, delaysAfter, hnext]
    exact hleft
  | succ n ih =>
    have hrest : (p.next s).2.1.maxAttempts = some most := by
      rw [hnext]
      exact (Backoff.maxAttempts_next s.1 _).trans hmost
    rw [delay?_succ, ih hrest, hnext]
    show most ≤ (s.1.next (draws s.2)).2.attempt.toNat + n ↔ most ≤ s.1.attempt.toNat + (n + 1)
    by_cases hdone : most ≤ s.1.attempt.toNat
    · rw [Backoff.next_of_exhausted ((Backoff.exhausted_iff hmost).2 hdone)]
      show most ≤ s.1.attempt.toNat + n ↔ _
      omega
    · rw [Backoff.attempt_next hmost hlt (Nat.not_le.1 hdone)]
      omega

/-- With a backoff there is one call more than attempts at most, and the retry comes to an end. -/
theorem backedOff_ends (p : Retry ε α δ) (draws : ℕ → Binary64) (now : Instant) {b : Backoff} {most : ℕ}
    (hmost : b.maxAttempts = some most) (hlt : most < 2 ^ 32) :
    ∃ m ≤ most + 1, ∃ r, (∀ n ≥ m, (p.backedOff draws).run n { now, delays := (b, 0) } = r) ∧
      r.calls.length = m ∧ r.result.isSome := by
  have hlast : (p.backedOff draws).Stops (b, 0) most :=
    Or.inr ((delay?_drawn_eq_none_iff rfl hmost hlt most).2 (Nat.le_add_left _ _))
  rcases goesOn_or_stops (p.backedOff draws) (b, 0) (most + 1) with hgoes | ⟨m, hm, hstops, hbefore⟩
  · exact absurd hlast (hgoes most (Nat.lt_succ_self most))
  · obtain ⟨left, hstep, -⟩ := step_before_of_stops now hstops
    refine ⟨m + 1, hm, _, fun n hn ↦ run_of_stops hbefore hstops hn, ?_⟩
    rw [hstep]
    exact ⟨by rw [List.length_map, List.length_range], rfl⟩

/-! ### How often the operation is called -/

/-- An operation is called exactly as often as it should be. The calls end with the first that decides, or with the
first failure after which there is no delay; if there is neither, they never end. The outcome of the last call is the
result, right when it ends, and a call that decides leaves the delays as they are. Between two calls there is a
sleep of the delay that was drawn. A backoff that has so many attempts allows for one call more than that, and the
retry comes to an end. -/
theorem called_until_decided (p : Retry ε α δ) (now : Instant) (s : δ) :
    let decided := least p.Decides + 1
    let delays := least fun n ↦ p.delay? s n = none
    let run (n : ℕ) := p.run n { now, delays := s }
    (∀ n, p.Paced now s (run n).calls) ∧
      (min decided (delays + 1) = ⊤ → ∀ n, (run n).result = none ∧ (run n).calls.length = n) ∧
      (∀ m : ℕ, min decided (delays + 1) = m →
        (∀ n < m, (run n).result = none) ∧
          ∃ r last, (∀ n ≥ m, run n = r) ∧ r.calls.length = m ∧ r.calls.getLast? = some last ∧
            r.result = some last.outcome ∧ r.now = last.ended ∧
            (decided = m → r.delays = p.delaysAfter s (m - 1)) ∧
            (decided ≠ m → r.delays = p.delaysAfter s m)) ∧
      ∀ (b : Backoff) (most : ℕ) (draws : ℕ → Binary64), b.maxAttempts = some most → most < 2 ^ 32 →
        ∃ m ≤ most + 1, ∃ r, (∀ n ≥ m, (p.backedOff draws).run n { now, delays := (b, 0) } = r) ∧
          r.calls.length = m ∧ r.result.isSome := by
  intro decided delays run
  have hcount : min decided (delays + 1) = least (p.Stops s) + 1 := by
    rw [min_add_add_right, min_least]
    rfl
  refine ⟨paced_run p now s, fun htop n ↦ ?_, fun m hm ↦ ?_, fun b most draws ↦ backedOff_ends p draws now⟩
  · rw [hcount, ENat.add_eq_top, or_iff_left ENat.one_ne_top, least_eq_top_iff] at htop
    have hrun : run n = p.before now s n := run_of_goesOn fun j _ ↦ htop j
    rw [hrun]
    exact ⟨rfl, by rw [before, List.length_map, List.length_range]⟩
  · obtain ⟨n, rfl, hn⟩ := exists_of_least_add_one (hcount ▸ hm)
    obtain ⟨hstops, hbefore⟩ := least_eq_coe_iff.1 hn
    have hdecided : decided = (n + 1 : ℕ) ↔ p.Decides n :=
      least_add_one_eq_iff fun j hj hdecides ↦ hbefore j hj (Or.inl hdecides)
    obtain ⟨left, hstep, hkept, hdrawn⟩ := step_before_of_stops now hstops
    have hrun {j : ℕ} (hj : n < j) : run j = p.step (p.before now s n) := run_of_stops hbefore hstops hj
    refine ⟨fun j hj ↦ ?_, p.step (p.before now s n), p.call now s n, fun j hj ↦ hrun hj, ?_⟩
    · have hbegun : run j = p.before now s j :=
        run_of_goesOn fun i hi ↦ hbefore i (Nat.lt_of_lt_of_le hi (Nat.le_of_lt_succ hj))
      rw [hbegun]
      rfl
    · rw [hstep]
      refine ⟨by rw [List.length_map, List.length_range], ?_, rfl, rfl, ?_, ?_⟩
      · rw [List.getLast?_map, List.getLast?_range]
        rfl
      · exact fun he ↦ hkept (hdecided.1 he)
      · exact fun hne ↦ hdrawn fun hdecides ↦ hne (hdecided.2 hdecides)

/-- An operation that is busy once. -/
def busyOnce : Retry String String (Backoff × ℕ) where
  retryable e := e == "busy"
  next := Backoff.drawn fun _ ↦ Binary64.ofNat 1
  operation n := (Span.zero, if n = 0 then .error "busy" else .ok "done")

/-- A delay that the clock cannot count to the end of is not slept: the next call does not wait for it. -/
theorem longest_delay_is_cut_short :
    let s := (Backoff.create Span.longest Span.longest (Binary64.ofNat 1) Binary64.zero (some 1), 0)
    ∃ first second, (busyOnce.run 2 { now := .start, delays := s }).calls = [first, second] ∧
      busyOnce.delay? s 0 = some Span.longest ∧ first.ended = .start ∧
      second.began = Instant.start.after Span.farAway ∧ second.began < first.ended.after Span.longest :=
  ⟨_, _, rfl, by decide +kernel, by decide +kernel, by decide +kernel, by decide +kernel⟩

end Retry

end Tidemark
