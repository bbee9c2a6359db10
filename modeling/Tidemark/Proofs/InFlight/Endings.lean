import Mathlib.Data.Finset.Card
import Tidemark.Proofs.Destination.Log
import Tidemark.Rehearsal.Dispatching

/-!
# What ends on a stage

Whatever happens on a stage, at most one completion ends in it, and only when that completion gets to run:

```
resolve, abort, cues, acknowledgements   no completion ends          (Quiet)
a task that runs                         none, or its own one        (perform_cases)
a submission                             none, and one begins        (dispatch_begins)
```

A completion that has ended stays so, and each ending is reported once. As many are counted as outstanding as
have not ended (`Counted`).

A task that runs no completion resolves handles at most, and what else it changes concerns nobody
(`Untouched`). So what is kept when a handle resolves is kept by all these tasks (`Steadfast.perform`).
-/

namespace Tidemark.Rehearsal

namespace Ending

/-- The number of the completion that ended. -/
def id : Ending → Nat
  | .completed id _ => id
  | .aborted id => id

def isAborted : Ending → Bool
  | .completed _ _ => false
  | .aborted _ => true

/-- The completion ended with a fault; an abort is none. -/
def isFailure : Ending → Bool
  | .completed _ outcome => !outcome.isOk
  | .aborted _ => false

end Ending

/-- How a completion has ended, if it has. -/
def Completion.ended? : Completion → Option Bool
  | .ended aborted => some aborted
  | _ => none

/-- A completion has ended on the stage if its state says so. -/
theorem endedOf_eq (s : StageState) (id : Nat) :
    endedOf s id = s.completions[id]?.bind Completion.ended? := by
  rw [endedOf]
  cases s.completions[id]? with
  | none => rfl
  | some c => cases c <;> rfl

namespace Stage

variable {s s' s'' : Stage}

/-! ### Tasks that run no completion -/

/-- Only what the stream holds, who is asleep and the marks of the stage may be different. -/
structure Untouched (s s' : Stage) : Prop where
  completions : s'.state.completions = s.state.completions
  outstanding : s'.state.outstanding = s.state.outstanding
  handles : s'.state.handles = s.state.handles
  endings : s'.state.endings = s.state.endings
  calls : s'.state.calls = s.state.calls
  log : s'.state.stream.log = s.state.stream.log
  ready : s'.agenda.ready = s.agenda.ready
  now : s'.now = s.now

theorem untouched_onStream {f : InMemory → InMemory} (hlog : (f s.state.stream).log = s.state.stream.log) :
    Untouched s (s.onStream f) :=
  ⟨rfl, rfl, rfl, rfl, rfl, hlog, rfl, rfl⟩

/-- Handles and completions have nothing to do with the stream and the clock. -/
structure Apart (s s' : Stage) : Prop where
  stream : s'.state.stream = s.state.stream
  now : s'.now = s.now

/-- A handle resolves apart from the stream and the clock. -/
theorem apart_resolve (s : Stage) (handle : Nat) (outcome : Outcome) : Apart s (s.resolve handle outcome) := by
  rw [resolve]
  split
  · exact ⟨rfl, rfl⟩
  · dsimp only
    split
    · exact ⟨rfl, rfl⟩
    · split <;> exact ⟨rfl, rfl⟩

/-- A completion runs apart from the stream and the clock. -/
theorem apart_runCompletion (s : Stage) (id : Nat) : Apart s (s.runCompletion id) := by
  rw [runCompletion]
  split
  · exact ⟨rfl, rfl⟩
  · exact ⟨rfl, rfl⟩
  · split
    · exact ⟨rfl, rfl⟩
    · split <;> exact ⟨rfl, rfl⟩
  · exact ⟨rfl, rfl⟩

/-- A property that is kept when a handle resolves, and depends on nothing else that these tasks change. -/
structure Steadfast (P : Stage → Prop) : Prop where
  untouched : ∀ {s s' : Stage}, P s → Untouched s s' → P s'
  resolve : ∀ {s : Stage} (handle : Nat) (outcome : Outcome), P s → P (s.resolve handle outcome)

namespace Steadfast

variable {P : Stage → Prop} (hP : Steadfast P)
include hP

/-- A steadfast property is kept when several handles resolve. -/
theorem resolveAll (outcomes : List (Nat × Outcome)) (h : P s) : P (s.resolveAll outcomes) := by
  rw [Stage.resolveAll]
  induction outcomes generalizing s with
  | nil => exact h
  | cons o rest ih => exact ih (hP.resolve o.1 o.2 h)

theorem stream (step : StreamStep) (h : P s) : P (s.stream step).2 := by
  cases step with
  | reshard n => exact hP.untouched h (untouched_onStream (f := (·.reshard n)) rfl)
  | inject changes =>
    rw [Stage.stream]
    dsimp only
    exact hP.untouched h (untouched_onStream (s.state.stream.log_injected changes))
  | release index success =>
    have hlog := s.state.stream.log_release index success
    rw [Stage.stream]
    generalize s.state.stream.release index success = x at hlog ⊢
    obtain ⟨released, m⟩ := x
    cases released with
    | none => exact h
    | some held => exact hP.resolve _ _ (hP.untouched h (untouched_onStream (f := fun _ ↦ m) hlog))
  | releaseAll =>
    rw [Stage.stream]
    exact hP.resolveAll _ (hP.untouched h (untouched_onStream rfl))
  | _ => exact h

theorem acknowledge (handle : Nat) (ack : Ack) (h : P s) : P (s.acknowledge handle ack) :=
  hP.untouched (hP.resolve handle (.ok ack) h) ⟨rfl, rfl, rfl, rfl, rfl, rfl, rfl, rfl⟩

theorem perform {task : StageTask} (hne : ∀ id, task ≠ .complete id) (h : P s) : P (s.perform task) := by
  cases task with
  | complete id => exact absurd rfl (hne id)
  | acknowledge handle ack => exact hP.acknowledge handle ack h
  | delay handle ack d =>
    rw [Stage.perform]
    split
    · exact hP.acknowledge handle ack h
    · exact hP.untouched h ⟨rfl, rfl, rfl, rfl, rfl, rfl, rfl, rfl⟩
  | cue due c =>
    unfold Stage.perform
    dsimp only
    split
    · cases c with
      | cancel => exact hP.untouched h ⟨rfl, rfl, rfl, rfl, rfl, rfl, rfl, rfl⟩
      | stream step => exact hP.stream step h
    · exact hP.untouched h ⟨rfl, rfl, rfl, rfl, rfl, rfl, rfl, rfl⟩

end Steadfast

/-! ### Quiet changes -/

/-- No completion begins or ends, nothing is reported, and the destination is not called. -/
structure Quiet (s s' : Stage) : Prop where
  size : s'.state.completions.size = s.state.completions.size
  outstanding : s'.state.outstanding = s.state.outstanding
  ended : ∀ id, endedOf s'.state id = endedOf s.state id
  endings : s'.state.endings = s.state.endings
  calls : s'.state.calls = s.state.calls

namespace Quiet

/-- What leaves completions, reports and calls alone is quiet. -/
theorem of_eq (hc : s'.state.completions = s.state.completions)
    (ho : s'.state.outstanding = s.state.outstanding) (he : s'.state.endings = s.state.endings)
    (hl : s'.state.calls = s.state.calls) : Quiet s s' where
  size := by rw [hc]
  outstanding := ho
  ended id := by rw [endedOf, endedOf, hc]
  endings := he
  calls := hl

theorem refl (s : Stage) : Quiet s s :=
  of_eq rfl rfl rfl rfl

theorem trans (h : Quiet s s') (h' : Quiet s' s'') : Quiet s s'' where
  size := h'.size.trans h.size
  outstanding := h'.outstanding.trans h.outstanding
  ended id := (h'.ended id).trans (h.ended id)
  endings := h'.endings.trans h.endings
  calls := h'.calls.trans h.calls

/-- A completion that has not ended changes into another one that has not. -/
theorem of_set {id : Nat} {c d : Completion} (hid : s.state.completions[id]? = some c)
    (hopen : c.ended? = none) (hopen' : d.ended? = none)
    (hc : s'.state.completions = s.state.completions.setIfInBounds id d)
    (ho : s'.state.outstanding = s.state.outstanding) (he : s'.state.endings = s.state.endings)
    (hl : s'.state.calls = s.state.calls) : Quiet s s' where
  size := by rw [hc, Array.size_setIfInBounds]
  outstanding := ho
  ended j := by
    have hlt : id < s.state.completions.size := (Array.getElem?_eq_some_iff.1 hid).1
    rw [endedOf_eq, endedOf_eq, hc, Array.getElem?_setIfInBounds]
    by_cases hj : id = j
    · subst hj
      rw [if_pos rfl, if_pos hlt, hid]
      exact hopen'.trans hopen.symm
    · rw [if_neg hj]
  endings := he
  calls := hl

end Quiet

theorem quiet_resolve (s : Stage) (handle : Nat) (outcome : Outcome) :
    Quiet s (s.resolve handle outcome) := by
  rw [resolve]
  split
  · exact .refl s
  · dsimp only
    split
    · exact .of_eq rfl rfl rfl rfl
    · split
      · rename_i hid
        exact .of_set hid rfl (d := .ready (.ok handle) false) rfl rfl rfl rfl rfl
      · exact .of_eq rfl rfl rfl rfl

/-- To abort a completion is quiet until it gets to run. -/
theorem quiet_abort (s : Stage) (id : Nat) : Quiet s (s.abort id) := by
  rw [abort]
  split
  · rename_i source _ hid
    exact .of_set hid rfl (d := .ready source true) rfl rfl rfl rfl rfl
  · rename_i handle hid
    exact .of_set hid rfl (d := .ready (.ok handle) true) rfl rfl rfl rfl rfl
  · exact .refl s

theorem steadfast_quiet (s : Stage) : Steadfast (Quiet s) where
  untouched h hu := h.trans (.of_eq hu.completions hu.outstanding hu.endings hu.calls)
  resolve handle outcome h := h.trans (quiet_resolve _ handle outcome)

/-! ### Endings -/

/-- The stage after everything that ended on it was taken notice of. -/
def seen (s : Stage) : Stage :=
  s.takeEndings.2

theorem quiet_seen (he : s.state.endings = []) : Quiet s s.seen :=
  .of_eq rfl rfl he.symm rfl

/-- One completion ends, and it is reported. -/
structure Ends (s s' : Stage) (e : Ending) : Prop where
  lt_size : e.id < s.state.completions.size
  open_before : endedOf s.state e.id = none
  size : s'.state.completions.size = s.state.completions.size
  outstanding : s'.state.outstanding = s.state.outstanding - 1
  ended : ∀ j, endedOf s'.state j = if j = e.id then some e.isAborted else endedOf s.state j
  endings : s'.state.endings = e :: s.state.endings
  calls : s'.state.calls = s.state.calls

/-- A completion that had not ended ends when it is made to. -/
theorem ends_endCompletion {c : Completion} {e : Ending} (hid : s.state.completions[e.id]? = some c)
    (hopen : c.ended? = none) : Ends s (s.endCompletion e.id e) e := by
  have hlt : e.id < s.state.completions.size := (Array.getElem?_eq_some_iff.1 hid).1
  have hset : (s.endCompletion e.id e).state.completions =
      s.state.completions.setIfInBounds e.id (.ended e.isAborted) := by
    cases e <;> rfl
  exact
    { lt_size := hlt
      open_before := by
        rw [endedOf_eq, hid]
        exact hopen
      size := by rw [hset, Array.size_setIfInBounds]
      outstanding := rfl
      ended := by
        intro j
        rw [endedOf_eq, endedOf_eq, hset, Array.getElem?_setIfInBounds]
        by_cases hj : j = e.id
        · subst hj
          rw [if_pos rfl, if_pos rfl, if_pos hlt]
          rfl
        · rw [if_neg (Ne.symm hj), if_neg hj]
      endings := rfl
      calls := rfl }

/-- A completion that gets to run ends or goes on. -/
theorem runCompletion_cases (s : Stage) (id : Nat) :
    Quiet s (s.runCompletion id) ∨ ∃ e, Ends s (s.runCompletion id) e := by
  rw [runCompletion]
  split
  · rename_i hid
    exact Or.inr ⟨.aborted id, ends_endCompletion (e := .aborted id) hid rfl⟩
  · rename_i fault hid
    exact Or.inr ⟨_, ends_endCompletion (e := .completed id (.error fault)) hid rfl⟩
  · rename_i handle hid
    split
    · exact Or.inl (.refl s)
    · split
      · rename_i outcome _
        exact Or.inr ⟨_, ends_endCompletion (e := .completed id outcome) hid rfl⟩
      · exact Or.inl (.of_set hid rfl (d := .waiting handle) rfl rfl rfl rfl rfl)
  · exact Or.inl (.refl s)

/-- A task that runs ends at most one completion. -/
theorem perform_cases (task : StageTask) (s : Stage) :
    Quiet s (s.perform task) ∨ ∃ e, Ends s (s.perform task) e := by
  cases task with
  | complete id => exact s.runCompletion_cases id
  | _ => exact Or.inl ((steadfast_quiet s).perform nofun (.refl s))

/-! ### Submissions -/

theorem quiet_submitOwn (s : Stage) (record : Record) : Quiet s (s.submitOwn record).2 := by
  rw [submitOwn]
  split <;> exact .of_eq rfl rfl rfl rfl

/-- A submission is a call of the destination, and quiet but for that. -/
theorem quiet_submit (s : Stage) (record : Record) :
    Quiet (s.record (.submit record)) (s.submit record).2 := by
  rw [submit]
  dsimp only
  split
  · exact quiet_submitOwn _ record
  · rename_i first rest _
    cases first with
    | own =>
      refine Quiet.trans ?_ (quiet_submitOwn _ record)
      exact .of_eq rfl rfl rfl rfl
    | _ => exact .of_eq rfl rfl rfl rfl

/-- A completion begins, and the record is submitted. -/
structure Begins (s s' : Stage) (record : Record) : Prop where
  size : s'.state.completions.size = s.state.completions.size + 1
  outstanding : s'.state.outstanding = s.state.outstanding + 1
  ended : ∀ id, endedOf s'.state id = endedOf s.state id
  endings : s'.state.endings = s.state.endings
  calls : s'.state.calls = (s.now, .submit record) :: s.state.calls

theorem dispatch_begins (s : Stage) (record : Record) : Begins s (s.dispatch record) record := by
  have hq := s.quiet_submit record
  rw [dispatch]
  generalize s.submit record = x at hq ⊢
  obtain ⟨source, s'⟩ := x
  constructor
  · show (s'.state.completions.push (.ready source false)).size = _
    rw [Array.size_push]
    exact congrArg (· + 1) hq.size
  · exact congrArg (· + 1) hq.outstanding
  · intro id
    have he : endedOf s'.state id = endedOf s.state id := hq.ended id
    rw [← he, endedOf_eq, endedOf_eq]
    show (s'.state.completions.push (.ready source false))[id]?.bind _ = _
    rw [Array.getElem?_push]
    by_cases hid : id = s'.state.completions.size
    · rw [if_pos hid, Array.getElem?_eq_none (Nat.le_of_eq hid.symm)]
      rfl
    · rw [if_neg hid]
  · exact hq.endings
  · exact hq.calls

/-! ### How many are outstanding -/

/-- The completions that have not ended. -/
def opens (s : Stage) : Finset Nat :=
  (Finset.range s.state.completions.size).filter fun id ↦ endedOf s.state id = none

/-- As many completions are counted as outstanding as have not ended. -/
def Counted (s : Stage) : Prop :=
  s.state.outstanding = s.opens.card

/-- The open completions are those that have begun and not ended. -/
theorem mem_opens {id : Nat} : id ∈ s.opens ↔ id < s.state.completions.size ∧ endedOf s.state id = none := by
  rw [opens, Finset.mem_filter, Finset.mem_range]

namespace Counted

/-- The count stays right while nothing begins or ends. -/
theorem of_quiet (h : s.Counted) (hq : Quiet s s') : s'.Counted := by
  have hopens : s'.opens = s.opens := by
    ext id
    rw [mem_opens, mem_opens, hq.size, hq.ended]
  rw [Counted, hq.outstanding, hopens]
  exact h

/-- The count goes down with a completion that ends. -/
theorem of_ends (h : s.Counted) {e : Ending} (he : Ends s s' e) : s'.Counted := by
  have hopens : s'.opens = s.opens.erase e.id := by
    ext id
    rw [mem_opens, Finset.mem_erase, mem_opens, he.size, he.ended]
    by_cases hid : id = e.id <;> simp [hid]
  have hmem : e.id ∈ s.opens := mem_opens.2 ⟨he.lt_size, he.open_before⟩
  rw [Counted, he.outstanding, hopens, Finset.card_erase_of_mem hmem, h]

/-- The count goes up with a completion that begins. -/
theorem of_begins (h : s.Counted) {record : Record} (hb : Begins s s' record) : s'.Counted := by
  have hnew : endedOf s.state s.state.completions.size = none := by
    rw [endedOf_eq, Array.getElem?_eq_none (Nat.le_refl _)]
    rfl
  have hopens : s'.opens = insert s.state.completions.size s.opens := by
    ext id
    rw [mem_opens, Finset.mem_insert, mem_opens, hb.size, hb.ended]
    rcases Nat.lt_trichotomy id s.state.completions.size with hlt | rfl | hgt
    · simp [hlt, Nat.lt_succ_of_lt hlt, Nat.ne_of_lt hlt]
    · simp [hnew]
    · simp [Nat.not_lt.2 (Nat.le_of_lt hgt), Nat.not_lt.2 (Nat.succ_le_of_lt hgt), Nat.ne_of_gt hgt]
  have hfresh : s.state.completions.size ∉ s.opens := fun hmem ↦ Nat.lt_irrefl _ (mem_opens.1 hmem).1
  rw [Counted, hb.outstanding, hopens, Finset.card_insert_of_notMem hfresh, h]

/-- What was reported is not counted. -/
theorem seen (h : s.Counted) : s.seen.Counted :=
  h

/-- When none is counted, all have ended. -/
theorem isSome_of_zero (h : s.Counted) (hnone : s.state.outstanding = 0) {id : Nat}
    (hid : id < s.state.completions.size) : (endedOf s.state id).isSome := by
  have hopens : s.opens = ∅ := Finset.card_eq_zero.1 (h.symm.trans hnone)
  rw [Option.isSome_iff_ne_none]
  intro hopen
  have hmem : id ∈ s.opens := mem_opens.2 ⟨hid, hopen⟩
  rw [hopens] at hmem
  exact Finset.notMem_empty id hmem

end Counted

end Stage

end Tidemark.Rehearsal
