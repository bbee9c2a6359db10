import Mathlib.Data.Nat.Find
import Tidemark.Proofs.Shards.Verdicts

/-!
# Records that are tried again

A batch makes a request for all its records, then one for those that were throttled, and so on (`before`).
What ends a record follows from what the answers say of that record alone: `Ends` names its last request and
its outcome. Both exist (`exists_ends`) and there is only one of each (`Ends.unique`). The handles that
resolve with an answer are those of the records that end with it (`resolutions_eq`), so that in the end every
handle has resolved once (`resolvedBy_perm`). Altogether a batch does what its records would do one by one,
`written_one_by_one`.
-/

namespace Tidemark.Shards

/-! ### What becomes of a record -/

/-- No outcome is found yet for a record that is throttled and has attempts left. -/
theorem outcome?_eq_none_iff {most attempts : Nat} {v : Verdict} :
    Batch.outcome? most attempts v = none ↔ v.isThrottled = true ∧ attempts < most := by
  cases v with
  | settled o => simp [Batch.outcome?, Verdict.isThrottled]
  | throttled fault => simp [Batch.outcome?, Verdict.isThrottled]

/-- An outcome is found for a record that is settled, or throttled for the last time. -/
theorem outcome?_eq_some_iff {most attempts : Nat} {v : Verdict} {o : Outcome} :
    Batch.outcome? most attempts v = some o ↔
      v = .settled o ∨ ∃ fault, v = .throttled fault ∧ most ≤ attempts ∧ o = .error fault := by
  cases v with
  | settled o' => simp [Batch.outcome?]
  | throttled fault =>
    by_cases h : attempts < most
    · simp [Batch.outcome?, h, Nat.not_le.2 h]
    · simp [Batch.outcome?, h, Nat.le_of_not_lt h, eq_comm]

/-- A record of which the answers say this is settled by one of them: by the first that does not throttle
it, or by the last that it may have. -/
structure Ends (most : Nat) (said : Nat → Verdict) (last : Nat) (o : Outcome) : Prop where
  lt : last < most
  throttled : ∀ j < last, (said j).isThrottled = true
  outcome : Batch.outcome? most (last + 1) (said last) = some o

/-- Something becomes of every record that may be tried at all. -/
theorem exists_ends {most : Nat} (hmost : 1 ≤ most) (said : Nat → Verdict) :
    ∃ last o, Ends most said last o := by
  by_cases h : ∃ k, k < most ∧ (said k).isThrottled = false
  · -- the first attempt that is not throttled
    obtain ⟨hlt, hsettled⟩ := Nat.find_spec h
    cases hv : said (Nat.find h) with
    | throttled fault =>
      rw [hv] at hsettled
      exact absurd hsettled Bool.noConfusion
    | settled o =>
      refine ⟨Nat.find h, o, hlt, fun j hj ↦ ?_, by rw [hv]; rfl⟩
      have hmin := Nat.find_min h hj
      rw [not_and, Bool.not_eq_false] at hmin
      exact hmin (Nat.lt_trans hj hlt)
  · have hall : ∀ k < most, (said k).isThrottled = true := by
      intro k hk
      rw [← Bool.not_eq_false]
      exact fun hf ↦ h ⟨k, hk, hf⟩
    cases hv : said (most - 1) with
    | settled o => exact absurd (hall (most - 1) (by omega)) (by simp [hv, Verdict.isThrottled])
    | throttled fault =>
      refine ⟨most - 1, .error fault, by omega, fun j hj ↦ hall j (by omega), ?_⟩
      rw [hv]
      exact outcome?_eq_some_iff.2 (Or.inr ⟨fault, rfl, by omega, rfl⟩)

/-- The requests that have a record are those up to its last. -/
theorem Ends.throttled_iff {most last j : Nat} {said : Nat → Verdict} {o : Outcome}
    (h : Ends most said last o) (hj : j < most) :
    (∀ k < j, (said k).isThrottled = true) ↔ j ≤ last := by
  constructor
  · intro hthrottled
    by_contra hlt
    have hnone : Batch.outcome? most (last + 1) (said last) = none :=
      outcome?_eq_none_iff.2 ⟨hthrottled last (by omega), by omega⟩
    exact absurd (hnone.symm.trans h.outcome) (Option.some_ne_none o).symm
  · exact fun hle k hk ↦ h.throttled k (Nat.lt_of_lt_of_le hk hle)

/-- Among the requests that have a record, only the last finds an outcome for it. -/
theorem Ends.outcome?_eq {most last j : Nat} {said : Nat → Verdict} {o : Outcome}
    (h : Ends most said last o) (hj : j < most) (hthrottled : ∀ k < j, (said k).isThrottled = true) :
    Batch.outcome? most (j + 1) (said j) = if last = j then some o else none := by
  rcases Nat.eq_or_lt_of_le ((h.throttled_iff hj).1 hthrottled) with rfl | hlt
  · rw [if_pos rfl, h.outcome]
  · rw [if_neg (Nat.ne_of_gt hlt)]
    exact outcome?_eq_none_iff.2 ⟨h.throttled j hlt, Nat.lt_of_le_of_lt hlt h.lt⟩

/-- A record ends with one request and in one way. -/
theorem Ends.unique {most last last' : Nat} {said : Nat → Verdict} {o o' : Outcome}
    (h : Ends most said last o) (h' : Ends most said last' o') : last' = last ∧ o' = o := by
  have houtcome := h.outcome?_eq h'.lt h'.throttled
  rw [h'.outcome] at houtcome
  split at houtcome
  · rename_i heq
    exact ⟨heq.symm, Option.some.inj houtcome⟩
  · exact absurd houtcome (Option.some_ne_none o')

/-! ### A batch along its requests -/

namespace Batch

/-- The batch after an answer, none if no record is tried again. -/
def next? (b : Batch) (draw : Binary64) (answer : BatchAnswer) : Option Batch :=
  let again := (b.answered answer).2
  if again.isEmpty then none else some (b.retry draw again).2

/-- The verdicts of an answer are those at its positions. -/
theorem verdicts_eq (answer : BatchAnswer) (records : List Submitted) :
    verdicts answer records = (List.range records.length).map (verdictAt answer) := by
  cases answer with
  | error refusal =>
    show records.map (fun _ ↦ refusedVerdict refusal) =
      (List.range records.length).map fun _ ↦ refusedVerdict refusal
    rw [List.map_const', List.map_const', List.length_range]
  | ok entries =>
    rw [List.range_eq_range', ← List.zipIdx_map_snd, List.map_map]
    rfl

section Written

variable (records : List Submitted) (most : Nat) (answers : Nat → BatchAnswer)
  (draws : Nat → Binary64)

/-- The batch before one of its requests, counted from zero; none once the batch has ended. A batch without
records makes no request. -/
def before : Nat → Option Batch
  | 0 => if records.isEmpty then none else some (start records most)
  | j + 1 => (before j).bind fun b ↦ b.next? (draws j) (answers j)

/-- What a request writes, if it is made. -/
def request? (j : Nat) : Option (List Submitted) :=
  (before records most answers draws j).map (·.records)

/-- The handles that resolve with the answer to a request. -/
def resolutions (j : Nat) : List (Nat × Outcome) :=
  match before records most answers draws j with
  | some b => (b.answered (answers j)).1
  | none => []

/-- The handles that resolve with the answers to the first requests. -/
def resolvedBy (n : Nat) : List (Nat × Outcome) :=
  (List.range n).flatMap (resolutions records most answers draws)

end Written

section Along

variable {records : List Submitted} {most : Nat} {answers : Nat → BatchAnswer}
  {draws : Nat → Binary64} {j : Nat}

/-- A request finds the batch with the records that remain. -/
structure Reached (records : List Submitted) (most : Nat) (answers : Nat → BatchAnswer) (j : Nat)
    (b : Batch) : Prop where
  writes : b.records = (remaining answers records j).map Prod.fst
  attempts : b.attempts = j
  maxAttempts : b.maxAttempts = most
  lt : j < most
  ne_nil : remaining answers records j ≠ []

/-- An answer is taken record by record. -/
theorem Reached.answered_eq {b : Batch} (h : Reached records most answers j b) :
    b.answered (answers j) =
      ((remaining answers records j).filterMap fun x ↦
          (outcome? most (j + 1) (own answers j x.2)).map (x.1.handle, ·),
        ((remaining answers records j).filter fun x ↦
          (outcome? most (j + 1) (own answers j x.2)).isNone).map Prod.fst) := by
  have hjudged : b.records.zip ((verdicts (answers j) b.records).map
        (outcome? b.maxAttempts (b.attempts + 1))) =
      (remaining answers records j).map fun x ↦
        (x.1, outcome? most (j + 1) (own answers j x.2)) := by
    -- the position of an entry is the position of its record
    rw [verdicts_eq, h.writes, List.length_map, ← map_position_remaining, List.map_map, List.map_map,
      List.zip_map', h.maxAttempts, h.attempts]
    rfl
  rw [answered]
  dsimp only
  rw [hjudged, List.filterMap_map, List.filter_map, List.map_map]
  rfl

/-- The records that no outcome is found for are those of the next request, if there may be one. -/
theorem filter_isNone_remaining :
    ((remaining answers records j).filter fun x ↦
        (outcome? most (j + 1) (own answers j x.2)).isNone) =
      if j + 1 < most then remaining answers records (j + 1) else [] := by
  split
  · rename_i hlt
    rw [remaining_succ]
    refine List.filter_congr fun x _ ↦ ?_
    rw [Bool.eq_iff_iff, Option.isNone_iff_eq_none, outcome?_eq_none_iff]
    simp [hlt]
  · rename_i hge
    rw [List.filter_eq_nil_iff]
    intro x _ hx
    exact hge (outcome?_eq_none_iff.1 (Option.isNone_iff_eq_none.1 hx)).2

/-- A request is made while records remain and attempts are left. -/
theorem before_cases (records : List Submitted) (answers : Nat → BatchAnswer) (draws : Nat → Binary64)
    (hmost : 1 ≤ most) (j : Nat) :
    (∃ b, before records most answers draws j = some b ∧ Reached records most answers j b) ∨
      (before records most answers draws j = none ∧
        (most ≤ j ∨ remaining answers records j = [])) := by
  induction j with
  | zero =>
    cases records with
    | nil => exact Or.inr ⟨rfl, Or.inr rfl⟩
    | cons s rest =>
      refine Or.inl ⟨_, rfl, ?_, rfl, rfl, hmost, ?_⟩
      · rw [remaining_zero, List.zipIdx_map_fst]
        rfl
      · rw [remaining_zero]
        simp
  | succ j ih =>
    rcases ih with ⟨b, hb, hr⟩ | ⟨hnone, hend⟩
    · have hnext : before records most answers draws (j + 1) = b.next? (draws j) (answers j) := by
        rw [before, hb]
        rfl
      have hagain : (b.answered (answers j)).2 =
          (if j + 1 < most then remaining answers records (j + 1) else []).map Prod.fst := by
        rw [hr.answered_eq, filter_isNone_remaining]
      rw [hnext, next?, hagain]
      by_cases hlt : j + 1 < most
      · rw [if_pos hlt]
        by_cases hnil : remaining answers records (j + 1) = []
        · exact Or.inr ⟨by simp [hnil], Or.inr hnil⟩
        · refine Or.inl ⟨_, if_neg (by simpa using hnil), rfl, ?_, hr.maxAttempts, hlt, hnil⟩
          exact congrArg (· + 1) hr.attempts
      · rw [if_neg hlt]
        exact Or.inr ⟨rfl, Or.inl (Nat.le_of_not_lt hlt)⟩
    · refine Or.inr ⟨by rw [before, hnone]; rfl, ?_⟩
      rcases hend with hle | hnil
      · exact Or.inl (Nat.le_succ_of_le hle)
      · exact Or.inr (by rw [remaining_succ, hnil]; rfl)

/-- A request is made if and only if attempts and records are left, and it has the records that remain. -/
theorem request?_eq_some_iff (hmost : 1 ≤ most) {l : List Submitted} :
    request? records most answers draws j = some l ↔
      j < most ∧ l ≠ [] ∧ l = (remaining answers records j).map Prod.fst := by
  rw [request?]
  rcases before_cases records answers draws hmost j with
    ⟨b, hb, hr⟩ | ⟨hnone, hend⟩
  · rw [hb, Option.map_some, Option.some.injEq, hr.writes]
    constructor
    · rintro rfl
      exact ⟨hr.lt, by simpa using hr.ne_nil, rfl⟩
    · rintro ⟨-, -, rfl⟩
      rfl
  · rw [hnone]
    constructor
    · intro h
      exact absurd h (by simp)
    · rintro ⟨hlt, hne, rfl⟩
      rcases hend with hle | hnil
      · exact absurd hlt (Nat.not_lt.2 hle)
      · exact absurd hnil (by simpa using hne)

/-- A record that a request has stands at its position there. -/
theorem getElem?_request (hmost : 1 ≤ most) {l : List Submitted} {i : Nat} {s : Submitted}
    (hl : request? records most answers draws j = some l) (hs : records[i]? = some s)
    (hasked : asked answers j i = true) : l[position answers j i]? = some s := by
  obtain ⟨-, -, rfl⟩ := (request?_eq_some_iff hmost).1 hl
  have hmem : (s, i) ∈ remaining answers records j :=
    List.mem_filter.2 ⟨List.mem_zipIdx_iff_getElem?.2 hs, hasked⟩
  obtain ⟨n, hn⟩ := List.getElem?_of_mem hmem
  have hposition : position answers j i = n := by
    have hnth : ((remaining answers records j).map fun x ↦ position answers j x.2)[n]? =
        (List.range (remaining answers records j).length)[n]? := by
      rw [map_position_remaining]
    rw [List.getElem?_map, hn, List.getElem?_range (List.getElem?_eq_some_iff.1 hn).1] at hnth
    exact Option.some.inj hnth
  rw [hposition, List.getElem?_map, hn]
  rfl

/-- The handles of the records that end with a request resolve with its answer, in the order of the
batch. -/
theorem resolutions_eq (hmost : 1 ≤ most) {last : Nat → Nat} {outcome : Nat → Outcome}
    (hends : ∀ i, Ends most (own answers · i) (last i) (outcome i)) (j : Nat) :
    resolutions records most answers draws j =
      (records.zipIdx.filter fun x ↦ last x.2 == j).map fun x ↦ (x.1.handle, outcome x.2) := by
  have hremaining (hj : j < most) :
      ((remaining answers records j).filterMap fun x ↦
          (outcome? most (j + 1) (own answers j x.2)).map (x.1.handle, ·)) =
        (records.zipIdx.filter fun x ↦ last x.2 == j).map fun x ↦ (x.1.handle, outcome x.2) := by
    rw [remaining, ← List.filterMap_eq_map, List.filterMap_filter, List.filterMap_filter]
    refine List.filterMap_congr fun x _ ↦ ?_
    by_cases hasked : asked answers j x.2 = true
    · rw [if_pos hasked, (hends x.2).outcome?_eq hj ((asked_iff answers j x.2).1 hasked)]
      by_cases hlast : last x.2 = j <;> simp [hlast]
    · have hlast : last x.2 ≠ j := by
        rintro rfl
        exact hasked ((asked_iff answers _ x.2).2 (hends x.2).throttled)
      simp [hasked, hlast]
  rw [resolutions]
  rcases before_cases records answers draws hmost j with
    ⟨b, hb, hr⟩ | ⟨hnone, hend⟩
  · rw [hb, ← hremaining hr.lt]
    exact congrArg Prod.fst hr.answered_eq
  · rw [hnone]
    rcases Nat.lt_or_ge j most with hlt | hle
    · have hnil : remaining answers records j = [] := hend.resolve_left (Nat.not_le.2 hlt)
      rw [← hremaining hlt, hnil]
      rfl
    · refine (List.map_eq_nil_iff.2 (List.filter_eq_nil_iff.2 fun x _ ↦ ?_)).symm
      rw [beq_iff_eq]
      exact Nat.ne_of_lt (Nat.lt_of_lt_of_le (hends x.2).lt hle)

/-- Sorted by a number, what is below a bound comes number after number. -/
theorem flatMap_filter_range_perm {α : Type} (l : List α) (f : α → Nat) (n : Nat) :
    ((List.range n).flatMap fun j ↦ l.filter fun x ↦ f x == j).Perm (l.filter fun x ↦ f x < n) := by
  induction n with
  | zero => simp
  | succ n ih =>
    have hlt : (l.filter fun x ↦ f x < n + 1).filter (fun x ↦ f x < n) = l.filter fun x ↦ f x < n := by
      rw [List.filter_filter]
      exact List.filter_congr fun x _ ↦ by grind
    have heq : (l.filter fun x ↦ f x < n + 1).filter (fun x ↦ !decide (f x < n)) =
        l.filter fun x ↦ f x == n := by
      rw [List.filter_filter]
      exact List.filter_congr fun x _ ↦ by grind
    have hsplit := List.filter_append_perm (fun x ↦ decide (f x < n)) (l.filter fun x ↦ f x < n + 1)
    rw [hlt, heq] at hsplit
    rw [List.range_succ, List.flatMap_append, List.flatMap_singleton]
    exact (ih.append_right _).trans hsplit

/-- Every handle resolves once. -/
theorem resolvedBy_perm (hmost : 1 ≤ most) {last : Nat → Nat} {outcome : Nat → Outcome}
    (hends : ∀ i, Ends most (own answers · i) (last i) (outcome i)) {n : Nat} (hn : most ≤ n) :
    (resolvedBy records most answers draws n).Perm
      (records.zipIdx.map fun x ↦ (x.1.handle, outcome x.2)) := by
  have hall : (records.zipIdx.filter fun x ↦ last x.2 < n) = records.zipIdx :=
    List.filter_eq_self.2 fun x _ ↦ decide_eq_true (Nat.lt_of_lt_of_le (hends x.2).lt hn)
  have hperm := (flatMap_filter_range_perm records.zipIdx (fun x ↦ last x.2) n).map
    fun x ↦ (x.1.handle, outcome x.2)
  rw [hall, List.map_flatMap] at hperm
  have heach : resolutions records most answers draws = fun j ↦
      (records.zipIdx.filter fun x ↦ last x.2 == j).map fun x ↦ (x.1.handle, outcome x.2) :=
    funext fun j ↦ resolutions_eq hmost hends j
  rwa [resolvedBy, heach]

end Along

/-- What happens to the records of a batch, told of each by itself: `last` numbers the request that ends it,
and `outcome` is what its handle resolves to. -/
structure OneByOne (records : List Submitted) (most : Nat) (answers : Nat → BatchAnswer)
    (draws : Nat → Binary64) (last : Nat → Nat) (outcome : Nat → Outcome) : Prop where
  /-- A request is made while attempts and records are left, and has these in the order of the batch. -/
  request_iff : ∀ j l, request? records most answers draws j = some l ↔
    j < most ∧ l ≠ [] ∧ l = (records.zipIdx.filter fun x ↦ asked answers j x.2).map Prod.fst
  /-- The records that are left were throttled by every answer so far. -/
  asked_iff : ∀ j i, asked answers j i = true ↔
    ∀ k < j, ∃ fault, Throttles (answers k) (position answers k i) fault
  /-- What an answer says at the position of a record is about that record. -/
  placed : ∀ j l i s, request? records most answers draws j = some l → records[i]? = some s →
    asked answers j i = true → l[position answers j i]? = some s
  last_lt : ∀ i, last i < most
  asked_last : ∀ i, asked answers (last i) i = true
  /-- A record ends with the first answer that settles it, or is throttled for the last time. -/
  ended : ∀ i, Settles (answers (last i)) (position answers (last i) i) (outcome i) ∨
    last i + 1 = most ∧ ∃ fault,
      Throttles (answers (last i)) (position answers (last i) i) fault ∧ outcome i = .error fault
  /-- The handles that resolve with an answer are those of the records that end with it. -/
  resolves : ∀ j, resolutions records most answers draws j =
    (records.zipIdx.filter fun x ↦ last x.2 == j).map fun x ↦ (x.1.handle, outcome x.2)
  /-- Every handle resolves, and only once. -/
  once : ∀ n, most ≤ n → (resolvedBy records most answers draws n).Perm
    (records.zipIdx.map fun x ↦ (x.1.handle, outcome x.2))
  /-- A record that is alone in its batch, and has the answers that the others leave to it, is in as many
  requests and ends the same. -/
  alone : ∀ i s, records[i]? = some s → ∀ draws' j,
    request? [s] most (fun k ↦ onlyAt (answers k) (position answers k i)) draws' j =
        (if j ≤ last i then some [s] else none) ∧
      resolutions [s] most (fun k ↦ onlyAt (answers k) (position answers k i)) draws' j =
        if last i = j then [(s.handle, outcome i)] else []

theorem own_onlyAt (answers : Nat → BatchAnswer) (i j : Nat) :
    own (fun k ↦ onlyAt (answers k) (position answers k i)) j 0 = own answers j i :=
  verdictAt_onlyAt (answers j) (position answers j i)

/-- A batch of one record does what the answers say of that record. -/
theorem alone_eq {most last i : Nat} (hmost : 1 ≤ most) {answers : Nat → BatchAnswer} {o : Outcome}
    (hends : Ends most (own answers · i) last o) (s : Submitted) (draws : Nat → Binary64) (j : Nat) :
    request? [s] most (fun k ↦ onlyAt (answers k) (position answers k i)) draws j =
        (if j ≤ last then some [s] else none) ∧
      resolutions [s] most (fun k ↦ onlyAt (answers k) (position answers k i)) draws j =
        if last = j then [(s.handle, o)] else [] := by
  choose last' outcome' hends' using
    fun n ↦ exists_ends hmost (own (fun k ↦ onlyAt (answers k) (position answers k i)) · n)
  have hzero := hends' 0
  simp only [own_onlyAt] at hzero
  obtain ⟨hlast, houtcome⟩ := hends.unique hzero
  constructor
  · have hasked (hj : j < most) :
        asked (fun k ↦ onlyAt (answers k) (position answers k i)) j 0 = true ↔ j ≤ last := by
      rw [Shards.asked_iff, ← hlast, ← (hends' 0).throttled_iff hj]
    ext l
    rw [request?_eq_some_iff hmost, remaining, List.zipIdx_singleton, List.filter_singleton]
    by_cases hle : j ≤ last
    · have hj : j < most := Nat.lt_of_le_of_lt hle hends.lt
      rw [if_pos hle, (hasked hj).2 hle]
      constructor
      · rintro ⟨-, -, rfl⟩
        rfl
      · rintro ⟨⟩
        exact ⟨hj, List.cons_ne_nil _ _, rfl⟩
    · rw [if_neg hle]
      constructor
      · rintro ⟨hj, hne, rfl⟩
        rw [Bool.eq_false_iff.2 (mt (hasked hj).1 hle)] at hne
        exact absurd rfl hne
      · simp
  · rw [resolutions_eq hmost hends']
    by_cases h : last = j <;> simp [hlast, houtcome, h]

/-- Retries keep every record with its own answers: whatever a service answers, a batch treats each of its
records as if it were the only one. -/
theorem written_one_by_one (records : List Submitted) {most : Nat} (hmost : 1 ≤ most)
    (answers : Nat → BatchAnswer) (draws : Nat → Binary64) :
    ∃ last outcome, OneByOne records most answers draws last outcome := by
  choose last outcome hends using fun i ↦ exists_ends hmost (own answers · i)
  have hasked (j i : Nat) : asked answers j i = true ↔
      ∀ k < j, ∃ fault, Throttles (answers k) (position answers k i) fault := by
    rw [Shards.asked_iff]
    exact forall₂_congr fun k _ ↦ isThrottled_iff
  refine ⟨last, outcome, {
    request_iff := fun j l ↦ request?_eq_some_iff hmost
    asked_iff := hasked
    placed := fun j l i s ↦ getElem?_request hmost
    last_lt := fun i ↦ (hends i).lt
    asked_last := fun i ↦ (Shards.asked_iff answers _ i).2 (hends i).throttled
    ended := fun i ↦ ?_
    resolves := resolutions_eq hmost hends
    once := fun n ↦ resolvedBy_perm hmost hends
    alone := fun i s _ draws' j ↦ alone_eq hmost (hends i) s draws' j }⟩
  rcases outcome?_eq_some_iff.1 (hends i).outcome with hsettled | ⟨fault, hthrottled, hle, ho⟩
  · exact Or.inl (verdictAt_eq_settled_iff.1 hsettled)
  · have hlt := (hends i).lt
    exact Or.inr ⟨by omega, fault, verdictAt_eq_throttled_iff.1 hthrottled, ho⟩

/-- The first of two records is throttled, and has the first entry of the next answer. -/
def slowAnswers : Nat → BatchAnswer
  | 0 => .ok [.refused "SlowDown" none, .accepted ⟨"shard", some "1"⟩]
  | _ => .ok [.accepted ⟨"shard", some "2"⟩]

/-- Two records whose handles have the numbers 7 and 8. -/
def twoRecords : List Submitted :=
  [⟨7, ⟨.empty, .byKey "a"⟩⟩, ⟨8, ⟨.empty, .byKey "b"⟩⟩]

/-- The first record takes two requests and the second one takes one, each with its own answers. -/
theorem written_one_by_one_slowAnswers :
    1 ≤ 2 ∧
      resolvedBy twoRecords 2 slowAnswers (fun _ ↦ Binary64.ofNat 1) 2 =
        [(8, .ok ⟨"shard", some "1"⟩), (7, .ok ⟨"shard", some "2"⟩)] ∧
      ∃ last outcome, OneByOne twoRecords 2 slowAnswers (fun _ ↦ Binary64.ofNat 1) last outcome :=
  ⟨by decide, rfl,
    written_one_by_one twoRecords (by decide) slowAnswers fun _ ↦ Binary64.ofNat 1⟩

end Batch

end Tidemark.Shards
