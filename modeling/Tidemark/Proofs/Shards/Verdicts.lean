import Mathlib.Data.List.Basic
import Tidemark.Shards.Batch

/-!
# Answers, read record by record

A request has no more records than the one before it, and an answer has its entries in the order of its own
request. `asked` and `position` tell from the answers alone which records of a batch a request has, and where
they stand in it:

```
request 0     a b c d       answer    ok  throttled  throttled  fault
request 1     b c           answer    throttled  ok                       c stands at position 1
```

`verdictAt` is what an answer says at a position. It settles the record there or throttles it
(`settles_or_throttles`), and `own` is what it says of a record at the position that the record has.
-/

namespace Tidemark.Shards

/-! ### What an answer says of a record -/

/-- What an answer says of the record at a position of its request. -/
def verdictAt (answer : BatchAnswer) (position : Nat) : Verdict :=
  match answer with
  | .error refusal => refusedVerdict refusal
  | .ok entries =>
    match entries[position]? with
    | some entry => entry.verdict
    | none => .settled (.error (.destination .dropped))

/-- The part of an answer that is about the record at a position of its request. -/
def onlyAt (answer : BatchAnswer) (position : Nat) : BatchAnswer :=
  answer.map fun entries ↦ entries[position]?.toList

/-- What an answer says of a record alone is what it says of it among others. -/
theorem verdictAt_onlyAt (answer : BatchAnswer) (position : Nat) :
    verdictAt (onlyAt answer position) 0 = verdictAt answer position := by
  cases answer with
  | error refusal => rfl
  | ok entries =>
    simp only [onlyAt, Except.map, verdictAt]
    cases entries[position]? <;> rfl

/-- The record is to be tried again. -/
def Verdict.isThrottled : Verdict → Bool
  | throttled _ => true
  | settled _ => false

/-- The answer settles what becomes of the record at a position of its request. -/
inductive Settles (answer : BatchAnswer) (position : Nat) : Outcome → Prop where
  | accepted {entries : List Entry} {ack : Ack} :
      answer = .ok entries → entries[position]? = some (.accepted ack) →
      Settles answer position (.ok ack)
  | refused {entries : List Entry} {code : String} {message : Option String} :
      answer = .ok entries → entries[position]? = some (.refused code message) →
      code ∉ StreamFault.throttlingCodes →
      Settles answer position (.error (StreamFault.service (code ++ ": " ++ message.getD "")).toFault)
  /-- The request was refused as a whole, and with a fault that does not pass. -/
  | refusedWhole {refusal : Refusal} :
      answer = .error refusal → (∀ code, refusal.code? = some code → code ∉ StreamFault.throttlingCodes) →
      Settles answer position
        (.error (StreamFault.service (StreamFault.service refusal.text).message).toFault)
  | missing {entries : List Entry} :
      answer = .ok entries → entries.length ≤ position →
      Settles answer position (.error (.destination .dropped))

/-- The answer says that the record at a position of its request was throttled, with the fault in case that
the record is not tried again. -/
inductive Throttles (answer : BatchAnswer) (position : Nat) : Fault → Prop where
  | entry {entries : List Entry} {code : String} {message : Option String} :
      answer = .ok entries → entries[position]? = some (.refused code message) →
      code ∈ StreamFault.throttlingCodes →
      Throttles answer position (.throttled (.reported (code ++ ": " ++ message.getD "")))
  | whole {refusal : Refusal} {code : String} :
      answer = .error refusal → refusal.code? = some code → code ∈ StreamFault.throttlingCodes →
      Throttles answer position (.throttled (.reported refusal.text))

/-- A code is throttling exactly if it is in the list. -/
theorem isThrottling_iff {code : String} :
    StreamFault.isThrottling code = true ↔ code ∈ StreamFault.throttlingCodes := by
  rw [StreamFault.isThrottling, List.contains_iff_mem]

/-- Every answer settles a record or throttles it. -/
theorem settles_or_throttles (answer : BatchAnswer) (position : Nat) :
    (∃ o, Settles answer position o) ∨ ∃ fault, Throttles answer position fault := by
  cases answer with
  | error refusal =>
    by_cases h : ∃ code, refusal.code? = some code ∧ code ∈ StreamFault.throttlingCodes
    · obtain ⟨code, hcode, hin⟩ := h
      exact Or.inr ⟨_, .whole rfl hcode hin⟩
    · exact Or.inl ⟨_, .refusedWhole rfl fun code hcode hin ↦ h ⟨code, hcode, hin⟩⟩
  | ok entries =>
    cases hentry : entries[position]? with
    | none => exact Or.inl ⟨_, .missing rfl (List.getElem?_eq_none_iff.1 hentry)⟩
    | some entry =>
      cases entry with
      | accepted ack => exact Or.inl ⟨_, .accepted rfl hentry⟩
      | refused code message =>
        by_cases hin : code ∈ StreamFault.throttlingCodes
        · exact Or.inr ⟨_, .entry rfl hentry hin⟩
        · exact Or.inl ⟨_, .refused rfl hentry hin⟩

theorem Settles.verdictAt_eq {answer : BatchAnswer} {position : Nat} {o : Outcome}
    (h : Settles answer position o) : verdictAt answer position = .settled o := by
  cases h with
  | accepted he hentry => simp only [he, verdictAt, hentry, Entry.verdict]
  | refused he hentry hout =>
    simp only [he, verdictAt, hentry, Entry.verdict, if_neg (mt isThrottling_iff.1 hout)]
  | @refusedWhole refusal he hout =>
    simp only [he, verdictAt, refusedVerdict, StreamFault.ofRefusal]
    cases hcode : refusal.code? with
    | none => rfl
    | some code => simp only [if_neg (mt isThrottling_iff.1 (hout code hcode))]
  | missing he hlen => simp only [he, verdictAt, List.getElem?_eq_none_iff.2 hlen]

theorem Throttles.verdictAt_eq {answer : BatchAnswer} {position : Nat} {fault : Fault}
    (h : Throttles answer position fault) : verdictAt answer position = .throttled fault := by
  cases h with
  | entry he hentry hin =>
    simp only [he, verdictAt, hentry, Entry.verdict, if_pos (isThrottling_iff.2 hin)]
    rfl
  | whole he hcode hin =>
    simp only [he, verdictAt, refusedVerdict, StreamFault.ofRefusal, hcode,
      if_pos (isThrottling_iff.2 hin)]
    rfl

/-- A record is settled exactly by the answers that settle it. -/
theorem verdictAt_eq_settled_iff {answer : BatchAnswer} {position : Nat} {o : Outcome} :
    verdictAt answer position = .settled o ↔ Settles answer position o := by
  refine ⟨fun hv ↦ ?_, Settles.verdictAt_eq⟩
  rcases settles_or_throttles answer position with ⟨o', h⟩ | ⟨fault, h⟩
  · rwa [← Verdict.settled.inj (h.verdictAt_eq.symm.trans hv)]
  · exact absurd (h.verdictAt_eq.symm.trans hv) (by simp)

/-- A record is throttled exactly by the answers that throttle it, with the fault that they tell. -/
theorem verdictAt_eq_throttled_iff {answer : BatchAnswer} {position : Nat} {fault : Fault} :
    verdictAt answer position = .throttled fault ↔ Throttles answer position fault := by
  refine ⟨fun hv ↦ ?_, Throttles.verdictAt_eq⟩
  rcases settles_or_throttles answer position with ⟨o, h⟩ | ⟨fault', h⟩
  · exact absurd (h.verdictAt_eq.symm.trans hv) (by simp)
  · rwa [← Verdict.throttled.inj (h.verdictAt_eq.symm.trans hv)]

/-- Whether a record is throttled can be told without its fault. -/
theorem isThrottled_iff {answer : BatchAnswer} {position : Nat} :
    (verdictAt answer position).isThrottled = true ↔ ∃ fault, Throttles answer position fault := by
  simp only [← verdictAt_eq_throttled_iff]
  cases verdictAt answer position <;> simp [Verdict.isThrottled]

/-! ### Which records a request has -/

section Answers

variable (answers : Nat → BatchAnswer)

/-- Whether a request has a record, both counted from zero. The record has to be throttled by every earlier
answer, each time at the position that is left to it by the records before it. -/
def asked : Nat → Nat → Bool
  | 0, _ => true
  | j + 1, i => asked j i && (verdictAt (answers j) ((List.range i).countP (asked j))).isThrottled

/-- Where a record stands in a request: after those of the earlier records that the request has. -/
def position (j i : Nat) : Nat :=
  (List.range i).countP (asked answers j)

/-- What an answer says of a record. -/
def own (j i : Nat) : Verdict :=
  verdictAt (answers j) (position answers j i)

/-- A request has the records that the request before it had and whose answers throttled them. -/
theorem asked_succ (j i : Nat) :
    asked answers (j + 1) i = (asked answers j i && (own answers j i).isThrottled) :=
  rfl

/-- A request has the records that every answer before it throttled. -/
theorem asked_iff (j i : Nat) :
    asked answers j i = true ↔ ∀ k < j, (own answers k i).isThrottled = true := by
  induction j with
  | zero => simp [asked]
  | succ j ih =>
    rw [asked_succ, Bool.and_eq_true, ih]
    constructor
    · rintro ⟨hbefore, hlast⟩ k hk
      rcases Nat.lt_succ_iff_lt_or_eq.1 hk with hk | rfl
      · exact hbefore k hk
      · exact hlast
    · intro h
      exact ⟨fun k hk ↦ h k (Nat.lt_succ_of_lt hk), h j (Nat.lt_succ_self j)⟩

/-- The records that a request has, with their numbers in the batch. -/
def remaining (records : List Submitted) (j : Nat) : List (Submitted × Nat) :=
  records.zipIdx.filter fun x ↦ asked answers j x.2

theorem remaining_zero (records : List Submitted) : remaining answers records 0 = records.zipIdx :=
  List.filter_eq_self.2 fun _ _ ↦ rfl

/-- What remains for the next request is what the answer throttles of this one. -/
theorem remaining_succ (records : List Submitted) (j : Nat) :
    remaining answers records (j + 1) =
      (remaining answers records j).filter fun x ↦ (own answers j x.2).isThrottled := by
  rw [remaining, remaining, List.filter_filter]
  refine List.filter_congr fun x _ ↦ ?_
  rw [asked_succ, Bool.and_comm]

/-- Among the numbers that pass a test, each stands after as many as pass before it. -/
theorem map_countP_filter_range (p : Nat → Bool) (n : Nat) :
    ((List.range n).filter p).map (fun i ↦ (List.range i).countP p) =
      List.range ((List.range n).countP p) := by
  induction n with
  | zero => rfl
  | succ n ih =>
    rw [List.range_succ, List.filter_append, List.map_append, ih, List.countP_append]
    cases hp : p n with
    | true => simp [hp, List.range_succ]
    | false => simp [hp]

/-- The positions in a request are counted through. -/
theorem map_position_remaining (records : List Submitted) (j : Nat) :
    (remaining answers records j).map (fun x ↦ position answers j x.2) =
      List.range (remaining answers records j).length := by
  have hsnd : (remaining answers records j).map Prod.snd =
      (List.range records.length).filter (asked answers j) := by
    rw [List.range_eq_range', ← List.zipIdx_map_snd, List.filter_map]
    rfl
  have hcount : (List.range records.length).countP (asked answers j) =
      (remaining answers records j).length := by
    rw [List.countP_eq_length_filter, ← hsnd, List.length_map]
  rw [← hcount, ← map_countP_filter_range, ← hsnd, List.map_map]
  rfl

end Answers

end Tidemark.Shards
