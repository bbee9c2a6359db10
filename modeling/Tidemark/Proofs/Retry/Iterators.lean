import Mathlib.Data.List.Induction
import Tidemark.Proofs.Retry.Attempts

/-!
# Backoffs as iterators

A backoff is asked for its delays one by one, or for a later one with those before it passed over. It can be reset,
and cloned at any moment, so there are soon several of them. An iterator is a backoff with the delays that it gave
since it was created or last reset; a clone has those of its original:

```
0   create ── d₁ ── d₂ ── d₃ ──────── reset ── d₁          attempt 1
                     └── clone
1                          └── d₃ ── d₄                    attempt 4
```

A backoff is told by how many delays it gave: it is the one that was created, with that number counted (`Counts`).
Every call keeps this. The count has 32 bits, which is enough for any limit. A backoff without a limit may give more
delays than that. Then the count overflows (`Counts.overflows_iff`): a build that checks its arithmetic crashes, and
one that does not counts from zero again, with the first delay (`unlimited_attempts_start_over`).
-/

namespace Tidemark

namespace Backoff

/-- The backoff with so many attempts counted. -/
def counting (b : Backoff) (n : ℕ) : Backoff :=
  { b with attempt := UInt32.ofNat n }

/-- What the delay with a number is without jitter. They are numbered from zero. -/
def planned (b : Backoff) (n : ℕ) : Span :=
  b.delay Binary64.zero (UInt32.ofNat (n + 1))

/-- Without jitter a delay does not depend on what is drawn. -/
theorem delay_of_no_jitter {b : Backoff} (h : Binary64.zero.less b.jitter = false) (draw draw' : Binary64)
    (attempt : UInt32) : b.delay draw attempt = b.delay draw' attempt := by
  simp only [delay, h, Bool.false_eq_true, if_false]

/-- A backoff, and the delays it gave since it was created or last reset, the first first. -/
structure Iterator where
  backoff : Backoff
  yielded : List Span

namespace Iterator

def next (it : Iterator) (draw : Binary64) : Iterator :=
  ⟨(it.backoff.next draw).2, it.yielded ++ (it.backoff.next draw).1.toList⟩

/-- The iterator after so many calls of `next`. -/
def nexts (it : Iterator) (draws : ℕ → Binary64) : ℕ → Iterator
  | 0 => it
  | n + 1 => (it.nexts draws n).next (draws n)

/-- The delays that are passed over count as given. -/
def nth (it : Iterator) (draws : ℕ → Binary64) (n : ℕ) : Iterator :=
  ⟨(it.backoff.nth (draws n) n).2, (it.nexts draws n).yielded ++ (it.backoff.nth (draws n) n).1.toList⟩

def reset (it : Iterator) : Iterator :=
  ⟨it.backoff.reset, []⟩

end Iterator

/-- A call of one of several iterators. -/
inductive Call where
  | next (i : ℕ) (draw : Binary64)
  | nth (i n : ℕ) (draws : ℕ → Binary64)
  | reset (i : ℕ)
  | clone (i : ℕ)

namespace Call

/-- The iterator that is called. -/
def index : Call → ℕ
  | next i _ => i
  | nth i _ _ => i
  | reset i => i
  | clone i => i

/-- What a call makes of the iterator that is called. -/
def changes : Call → Iterator → Iterator
  | next _ draw, it => it.next draw
  | nth _ n draws, it => it.nth draws n
  | reset _, it => it.reset
  | clone _, it => it

/-- The clone that a call adds. -/
def added (its : List Iterator) : Call → List Iterator
  | clone i => its[i]?.toList
  | _ => []

end Call

/-- The iterators after a call. -/
def call (its : List Iterator) (c : Call) : List Iterator :=
  its.modify c.index c.changes ++ c.added its

/-- The iterators after some calls. At first there is the backoff that was created. -/
def after (b : Backoff) (calls : List Call) : List Iterator :=
  calls.foldl call [⟨b, []⟩]

/-! ### A backoff is told by how many delays it gave -/

/-- The iterator is the backoff that was created, and counts the delays it gave. A limit is a number of 32 bits. -/
structure Counts (b : Backoff) (it : Iterator) : Prop where
  backoff : it.backoff = b.counting it.yielded.length
  narrow : ∀ most, b.maxAttempts = some most → most < 2 ^ 32
  within : ∀ most, b.maxAttempts = some most → it.yielded.length ≤ most
  planned : Binary64.zero.less b.jitter = false →
    it.yielded = (List.range it.yielded.length).map b.planned

namespace Counts

variable {b : Backoff} {it : Iterator}

/-- The count is the number of delays that were given, as far as 32 bits tell it. -/
theorem attempt (h : Counts b it) : it.backoff.attempt.toNat = it.yielded.length % 2 ^ 32 := by
  rw [h.backoff]
  exact UInt32.toNat_ofNat'

/-- A limit is reached before the count starts over. -/
theorem attempt_of_limit (h : Counts b it) {most : ℕ} (hmost : b.maxAttempts = some most) :
    it.backoff.attempt.toNat = it.yielded.length := by
  rw [h.attempt, Nat.mod_eq_of_lt (Nat.lt_of_le_of_lt (h.within most hmost) (h.narrow most hmost))]

/-- The limit is the one that the backoff was created with. -/
theorem maxAttempts (h : Counts b it) : it.backoff.maxAttempts = b.maxAttempts := by
  rw [h.backoff]
  rfl

/-- An iterator is exhausted when it gave as many delays as its limit allows. -/
theorem exhausted_iff (h : Counts b it) :
    it.backoff.exhausted = true ↔ ∃ most, b.maxAttempts = some most ∧ most ≤ it.yielded.length := by
  cases hmost : b.maxAttempts with
  | none => simp [exhausted, h.maxAttempts, hmost]
  | some most =>
    rw [Backoff.exhausted_iff (h.maxAttempts.trans hmost), h.attempt_of_limit hmost]
    simp

/-- The count overflows only without a limit, on the delay that completes two to the 32nd of them. -/
theorem overflows_iff (h : Counts b it) (n : ℕ) :
    it.backoff.overflows n = true ↔ b.maxAttempts = none ∧ 2 ^ 32 ≤ it.yielded.length % 2 ^ 32 + n := by
  rw [overflows, decide_eq_true_iff]
  cases hmost : b.maxAttempts with
  | none =>
    rw [available, h.maxAttempts, hmost, h.attempt]
    exact ⟨fun hle ↦ ⟨rfl, hle⟩, And.right⟩
  | some most =>
    have hwithin := h.within most hmost
    have hnarrow := h.narrow most hmost
    rw [available, h.maxAttempts, hmost, h.attempt_of_limit hmost]
    exact ⟨fun hle ↦ absurd hle (by dsimp only; omega), nofun⟩

/-! ### One delay more -/

/-- An exhausted iterator stays as it is when it is asked. -/
theorem next_of_exhausted (hdone : it.backoff.exhausted = true) (draw : Binary64) : it.next draw = it := by
  rw [Iterator.next, Backoff.next_of_exhausted hdone, Option.toList_none, List.append_nil]

/-- An iterator that is not exhausted gives the delay with the next number, and counts it. -/
theorem next_of_not_exhausted (h : Counts b it) (hgoes : ¬ it.backoff.exhausted = true) (draw : Binary64) :
    it.next draw = ⟨b.counting (it.yielded.length + 1),
      it.yielded ++ [b.delay draw (UInt32.ofNat (it.yielded.length + 1))]⟩ := by
  have hcount : it.backoff.attempt + 1 = UInt32.ofNat (it.yielded.length + 1) := by
    rw [h.backoff, UInt32.ofNat_add]
    rfl
  rw [Iterator.next, Backoff.next, if_neg hgoes]
  show Iterator.mk { it.backoff with attempt := it.backoff.attempt + 1 }
    (it.yielded ++ [it.backoff.delay draw (it.backoff.attempt + 1)]) = _
  rw [hcount, h.backoff]
  rfl

/-- An iterator that is asked for a delay goes on counting. -/
protected theorem next (h : Counts b it) (draw : Binary64) : Counts b (it.next draw) := by
  by_cases hdone : it.backoff.exhausted = true
  · rwa [next_of_exhausted hdone]
  rw [h.next_of_not_exhausted hdone]
  have hlength (d : Span) : (it.yielded ++ [d]).length = it.yielded.length + 1 := List.length_append
  refine ⟨by rw [hlength], h.narrow, fun most hmost ↦ ?_, fun hplain ↦ ?_⟩
  · rw [hlength]
    by_contra hle
    exact hdone (h.exhausted_iff.2 ⟨most, hmost, Nat.le_of_lt_succ (Nat.not_le.1 hle)⟩)
  · rw [hlength, List.range_succ, List.map_append, ← h.planned hplain, List.map_singleton, Backoff.planned,
      delay_of_no_jitter hplain draw]

protected theorem nexts (h : Counts b it) (draws : ℕ → Binary64) (n : ℕ) : Counts b (it.nexts draws n) := by
  induction n with
  | zero => exact h
  | succ n ih => exact ih.next (draws n)

/-! ### Delays that are passed over -/

/-- As many delays are given as there are, when so many are asked for. -/
theorem length_nexts (h : Counts b it) (draws : ℕ → Binary64) (n : ℕ) :
    (it.nexts draws n).yielded.length = it.yielded.length + it.backoff.available n := by
  induction n with
  | zero =>
    rw [available]
    split <;> simp [Iterator.nexts]
  | succ n ih =>
    have hn := h.nexts draws n
    rw [Iterator.nexts]
    by_cases hdone : (it.nexts draws n).backoff.exhausted = true
    · obtain ⟨most, hmost, hle⟩ := hn.exhausted_iff.1 hdone
      rw [next_of_exhausted hdone, ih]
      rw [ih] at hle
      simp only [available, h.maxAttempts, hmost, h.attempt_of_limit hmost] at hle ⊢
      omega
    · rw [hn.next_of_not_exhausted hdone, List.length_append, List.length_singleton, ih]
      rw [hn.exhausted_iff, ih] at hdone
      cases hmost : b.maxAttempts with
      | none => simp only [available, h.maxAttempts, hmost, Nat.add_assoc]
      | some most =>
        have hlt : ¬ most ≤ it.yielded.length + it.backoff.available n := fun hle ↦ hdone ⟨most, hmost, hle⟩
        simp only [available, h.maxAttempts, hmost, h.attempt_of_limit hmost] at hlt ⊢
        omega

/-- To skip delays counts them like taking them does. -/
theorem skip (h : Counts b it) (draws : ℕ → Binary64) (n : ℕ) :
    it.backoff.skip n = (it.nexts draws n).backoff := by
  rw [(h.nexts draws n).backoff, h.length_nexts, Backoff.skip, counting, UInt32.ofNat_add, h.backoff]
  rfl

/-- The delay after those that are skipped is the one after those that are taken. -/
theorem nth_eq (h : Counts b it) (draws : ℕ → Binary64) (n : ℕ) :
    it.backoff.nth (draws n) n = (it.nexts draws n).backoff.next (draws n) := by
  rw [Backoff.nth, h.skip draws]

/-- To pass over delays is to take them and not to look at them. -/
theorem nth_eq_nexts (h : Counts b it) (draws : ℕ → Binary64) (n : ℕ) :
    it.nth draws n = it.nexts draws (n + 1) := by
  rw [Iterator.nth, h.nth_eq]
  rfl

/-! ### Any call of any of the iterators -/

/-- An iterator that is reset counts from where it was created. -/
protected theorem reset (h : Counts b it) : Counts b it.reset where
  backoff := by
    rw [Iterator.reset, h.backoff]
    rfl
  narrow := h.narrow
  within _ _ := Nat.zero_le _
  planned _ := rfl

/-- A reset makes an iterator what was created. -/
theorem reset_eq (h : Counts b it) (hfresh : b.attempt = 0) : it.reset = ⟨b, []⟩ := by
  rw [Iterator.reset, h.backoff]
  show Iterator.mk { b with attempt := 0 } [] = _
  rw [← hfresh]

/-- Every call leaves an iterator counting. -/
protected theorem changes (h : Counts b it) (c : Call) : Counts b (c.changes it) := by
  cases c with
  | next i draw => exact h.next draw
  | nth i n draws =>
    rw [Call.changes, h.nth_eq_nexts]
    exact h.nexts draws (n + 1)
  | reset i => exact h.reset
  | clone i => exact h

/-- Only a reset changes what is exhausted. -/
theorem changes_of_exhausted (h : Counts b it) (hdone : it.backoff.exhausted = true) {c : Call}
    (hc : c ≠ .reset c.index) : c.changes it = it := by
  cases c with
  | next i draw => exact next_of_exhausted hdone draw
  | nth i n draws =>
    rw [Call.changes, h.nth_eq_nexts]
    have hnexts (m : ℕ) : it.nexts draws m = it := by
      induction m with
      | zero => rfl
      | succ m ih => rw [Iterator.nexts, ih, next_of_exhausted hdone]
    exact hnexts (n + 1)
  | reset i => exact absurd rfl hc
  | clone i => rfl

end Counts

section Calls

variable {b : Backoff} {its : List Iterator} {i : ℕ} {it : Iterator} {c : Call}

/-- Calls come one after the other. -/
theorem after_append (b : Backoff) (calls later : List Call) :
    after b (calls ++ later) = later.foldl call (after b calls) :=
  List.foldl_append

/-- A call changes the iterator that is called. -/
theorem getElem?_call (h : its[i]? = some it) (c : Call) :
    (call its c)[i]? = some (if c.index = i then c.changes it else it) := by
  obtain ⟨hi, -⟩ := List.getElem?_eq_some_iff.1 h
  rw [call, List.getElem?_append_left (by rwa [List.length_modify]), List.getElem?_modify, h]
  split <;> rfl

theorem getElem?_call_of_ne (h : its[i]? = some it) (hne : c.index ≠ i) : (call its c)[i]? = some it := by
  rw [getElem?_call h, if_neg hne]

/-- A clone comes last and is as the one it was made of. -/
theorem call_clone (h : its[i]? = some it) : call its (.clone i) = its ++ [it] := by
  have hsame : its.modify i (Call.clone i).changes = its := List.modify_id i its
  rw [call, Call.added, h, Call.index, hsame]
  rfl

/-- Every call leaves all iterators counting. -/
theorem counts_call (h : ∀ it ∈ its, Counts b it) (c : Call) : ∀ it ∈ call its c, Counts b it := by
  intro it hit
  rcases List.mem_append.1 hit with hit | hit
  · obtain ⟨j, hj⟩ := List.mem_iff_getElem?.1 hit
    rw [List.getElem?_modify] at hj
    cases hold : its[j]? with
    | none =>
      rw [hold] at hj
      cases hj
    | some old =>
      rw [hold] at hj
      have hcounts := h old (List.mem_of_getElem? hold)
      obtain rfl := Option.some.inj hj
      dsimp only
      split
      · exact hcounts.changes c
      · exact hcounts
  · cases c with
    | clone i => exact h it (List.mem_of_getElem? (Option.mem_toList.1 hit))
    | _ => exact absurd hit List.not_mem_nil

/-- All iterators count, whatever was called. -/
theorem counts_after (hfresh : b.attempt = 0) (hlimit : ∀ most, b.maxAttempts = some most → most < 2 ^ 32)
    (calls : List Call) : ∀ it ∈ after b calls, Counts b it := by
  induction calls using List.reverseRecOn with
  | nil =>
    intro it hit
    obtain rfl := List.mem_singleton.1 hit
    refine ⟨?_, hlimit, fun _ _ ↦ Nat.zero_le _, fun _ ↦ rfl⟩
    show b = { b with attempt := 0 }
    rw [← hfresh]
  | append_singleton calls c ih =>
    rw [after_append]
    exact counts_call ih c

/-- What is exhausted stays as it is until it is reset. -/
theorem exhausted_kept (hcounts : ∀ it ∈ its, Counts b it) (h : its[i]? = some it)
    (hdone : it.backoff.exhausted = true) {later : List Call} (hlater : .reset i ∉ later) :
    (later.foldl call its)[i]? = some it := by
  induction later generalizing its with
  | nil => exact h
  | cons c later ih =>
    obtain ⟨hc, hlater⟩ := not_or.1 (fun hmem ↦ hlater (List.mem_cons.2 hmem))
    refine ih (counts_call hcounts c) ?_ hlater
    rw [getElem?_call h]
    split
    · rename_i hi
      rw [(hcounts it (List.mem_of_getElem? h)).changes_of_exhausted hdone (hi ▸ Ne.symm hc)]
    · rfl

end Calls

/-! ### The delays of any number of iterators -/

/-- Whatever is called, an iterator has a further delay exactly if there is no limit or fewer delays than that were
given since it was created or last reset, and it counts them, without a limit modulo two to the 32nd. Only where it
starts over does the count overflow. Delays that are passed over are given too. Without jitter they are always the
same ones in the same order. What is exhausted stays so until it is reset, which makes it what was created. A clone is
one iterator more, and no call of another iterator changes an iterator. -/
theorem delays_are_counted (base cap : Span) (factor jitter : Binary64) (limit : Option UInt32)
    (calls : List Call) :
    let b := create base cap factor jitter (limit.map UInt32.toNat)
    let its := after b calls
    (∀ it ∈ its,
      (∀ draw, (it.backoff.next draw).1 ≠ none ↔
        ∀ most, limit = some most → it.yielded.length < most.toNat) ∧
      (∀ draws n, it.backoff.nth (draws n) n = (it.nexts draws n).backoff.next (draws n)) ∧
      it.backoff.attempt.toNat = it.yielded.length % 2 ^ 32 ∧
      (limit ≠ none → it.backoff.attempt.toNat = it.yielded.length) ∧
      (∀ n, it.backoff.overflows n = true ↔ limit = none ∧ 2 ^ 32 ≤ it.yielded.length % 2 ^ 32 + n) ∧
      (Binary64.zero.less b.jitter = false →
        it.yielded = (List.range it.yielded.length).map b.planned)) ∧
    ∀ i it, its[i]? = some it →
      (∀ draw, (it.backoff.next draw).1 = none →
        ∀ later, .reset i ∉ later → (after b (calls ++ later))[i]? = some it) ∧
      (call its (.reset i))[i]? = some ⟨b, []⟩ ∧
      call its (.clone i) = its ++ [it] ∧
      ∀ c, c.index ≠ i → (call its c)[i]? = some it := by
  intro b its
  have hlimit (most : ℕ) (hmost : b.maxAttempts = some most) : most < 2 ^ 32 := by
    obtain ⟨narrow, -, rfl⟩ := Option.map_eq_some_iff.1 hmost
    exact narrow.toNat_lt
  have hcounts := counts_after (b := b) rfl hlimit calls
  refine ⟨fun it hit ↦ ?_, fun i it hi ↦ ?_⟩
  · have h := hcounts it hit
    refine ⟨fun draw ↦ ?_, h.nth_eq, h.attempt, fun hsome ↦ ?_, fun n ↦ ?_, h.planned⟩
    · rw [ne_eq, next_eq_none_iff_exhausted, h.exhausted_iff]
      show (¬ ∃ most, limit.map UInt32.toNat = some most ∧ most ≤ it.yielded.length) ↔ _
      cases limit <;> simp
    · obtain ⟨most, rfl⟩ := Option.ne_none_iff_exists'.1 hsome
      exact h.attempt_of_limit rfl
    · rw [h.overflows_iff]
      exact and_congr_left' Option.map_eq_none_iff
  · refine ⟨fun draw hnone later hlater ↦ ?_, ?_, call_clone hi, fun c hne ↦ getElem?_call_of_ne hi hne⟩
    · rw [after_append]
      exact exhausted_kept hcounts hi ((next_eq_none_iff_exhausted _ draw).1 hnone) hlater
    · have hreset : it.reset = ⟨b, []⟩ := (hcounts it (List.mem_of_getElem? hi)).reset_eq rfl
      exact (getElem?_call hi (.reset i)).trans (by simp [Call.index, Call.changes, hreset])

/-- Where a later delay of a backoff without a limit is, and how it stands then. -/
theorem after_nth_of_unlimited {b : Backoff} (hfresh : b.attempt = 0) (hunlimited : b.maxAttempts = none)
    (draws : ℕ → Binary64) (n : ℕ) :
    ∃ it, after b [.nth 0 n draws] = [it] ∧ it.yielded.length = n + 1 ∧ it.backoff = b.counting (n + 1) ∧
      (Binary64.zero.less b.jitter = false → it.yielded.getLast? = some (b.planned n)) := by
  have hlimit (most : ℕ) (hmost : b.maxAttempts = some most) : most < 2 ^ 32 := by
    rw [hunlimited] at hmost
    cases hmost
  have hstart : Counts b ⟨b, []⟩ := counts_after hfresh hlimit [] _ (List.mem_singleton_self _)
  have hall := hstart.nexts draws (n + 1)
  have hlength : (Iterator.nexts ⟨b, []⟩ draws (n + 1)).yielded.length = n + 1 := by
    rw [hstart.length_nexts, available, hunlimited]
    exact Nat.zero_add _
  refine ⟨_, congrArg (fun it ↦ [it]) (hstart.nth_eq_nexts draws n), hlength, ?_, fun hplain ↦ ?_⟩
  · rw [hall.backoff, hlength]
  · rw [hall.planned hplain, hlength, List.range_succ, List.map_append, List.map_singleton, List.getLast?_concat]

/-- Two to the 32nd counts as zero, and there the exponent is what it is for the first delay. -/
theorem planned_starts_over (b : Backoff) : b.planned (2 ^ 32 - 1) = b.planned 0 := by
  have hzero : UInt32.ofNat (2 ^ 32 - 1 + 1) = 0 := by decide +kernel
  rw [planned, hzero]
  rfl

/-- Without a limit there are more delays than can be counted. When two to the 32nd were given, the count has
overflowed: none is counted, and the delay is the first one again, far from the longest. -/
theorem unlimited_attempts_start_over :
    let b := create (Span.ofMillis 10) (Span.ofMillis 1000) (Binary64.ofNat 2) Binary64.zero none
    b.overflows (2 ^ 32) = true ∧
      ∃ it, after b [.nth 0 (2 ^ 32 - 1) fun _ ↦ Binary64.zero] = [it] ∧ it.yielded.length = 2 ^ 32 ∧
        it.backoff.attempt = 0 ∧ it.yielded.getLast? = some (Span.ofMillis 10) := by
  intro b
  obtain ⟨it, hit, hlength, hbackoff, hlast⟩ :=
    after_nth_of_unlimited (b := b) rfl rfl (fun _ ↦ Binary64.zero) (2 ^ 32 - 1)
  have hplain : Binary64.zero.less b.jitter = false := by decide +kernel
  have hfirst : b.planned 0 = Span.ofMillis 10 := by decide +kernel
  refine ⟨decide_eq_true (Nat.le_add_left _ _), it, hit, hlength, ?_, ?_⟩
  · rw [hbackoff, counting]
    decide +kernel
  · rw [hlast hplain, planned_starts_over, hfirst]

end Backoff

end Tidemark
