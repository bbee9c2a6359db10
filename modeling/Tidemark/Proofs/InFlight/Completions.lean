import Mathlib.Data.List.Induction
import Tidemark.Proofs.InFlight.Endings
import Tidemark.Proofs.InFlight.SharedKeys

/-!
# The dispatcher under every schedule

`Flow` is a dispatcher on its stage with a history: the events sent, the endings of their completions and
the keys that left the tracker. An `Act` is one thing that happens, and a run is any list of acts, so sends,
acknowledgements, aborts and tasks that get to run come in any order:

```
register ─> submit                     a send, in two acts; others may come in between
resolve, abort, around                 nothing ends
perform                                at most one completion ends, and is seen at once
```

`Booked` is the invariant, whatever keys the sends have. It ties the books of the dispatcher, where sends are told
apart by their numbers, to the stage, where their completions are counted and end. `Booked.act` carries it over
every act.
-/

namespace Tidemark

namespace Tracker

/-- The keys that leave a tracker which changes into another one. -/
def left (t t' : Tracker) : List EventKey :=
  t.keys.filter (· ∉ t'.keys)

/-- No key leaves a tracker that keeps all of them. -/
theorem left_eq_nil {t t' : Tracker} (h : ∀ k ∈ t.keys, k ∈ t'.keys) : t.left t' = [] := by
  rw [left, List.filter_eq_nil_iff]
  intro k hk
  simp [h k hk]

end Tracker

namespace Rehearsal

/-! ### A send in two acts -/

namespace Dispatching

/-- A send begins: the event is tracked. -/
def register (d : Dispatching) (e : Event) : Dispatching :=
  let (dispatch, tracker, instruments) := d.dispatch.send e d.tracker d.instruments
  { d with dispatch, tracker, instruments }

/-- The event of a send is submitted, and its completion begins. -/
def submit (d : Dispatching) (e : Event) : Dispatching :=
  { d with stage := d.stage.dispatch (Record.ofEvent e) }

end Dispatching

/-! ### Runs -/

/-- What can happen to a dispatcher and around it. -/
inductive Act where
  | register (event : Event)
  | submit
  /-- A handle resolves, to an acknowledgement, to a failure, or because its sender is gone. -/
  | resolve (handle : Nat) (outcome : Outcome)
  | abort (id : Nat)
  /-- A task gets to run. -/
  | perform (task : StageTask)
  /-- The destination is asked to flush. -/
  | flush
  /-- The stream, its script, the handles and the clock come to what they are on another stage. -/
  | around (s : Stage)

/-- A dispatcher with its history. -/
structure Flow where
  books : Dispatching
  /-- The event that is tracked and has not been submitted yet. -/
  entering : Option Event := none
  /-- The events sent; the number of a send is its position. -/
  sent : List Event := []
  /-- What ended, in order. -/
  endings : List Ending := []
  /-- The keys that left the tracker, once for every time. -/
  removed : List EventKey := []

/-- What the completions do not depend on is taken from another stage. -/
def Stage.around (s other : Stage) : Stage :=
  { other with state := { other.state with
      completions := s.state.completions
      outstanding := s.state.outstanding
      endings := s.state.endings
      calls := s.state.calls } }

namespace Flow

def onStage (f : Flow) (stage : Stage) : Flow :=
  { f with books := { f.books with stage } }

/-- What an act does, apart from what is seen of the tracker. A send does not begin before the last one
was submitted. -/
def act (f : Flow) : Act → Flow
  | .register e =>
    match f.entering with
    | some _ => f
    | none => { f with books := f.books.register e, entering := some e, sent := f.sent ++ [e] }
  | .submit =>
    match f.entering with
    | some e => { f with books := f.books.submit e, entering := none }
    | none => f
  | .resolve handle outcome => f.onStage (f.books.stage.resolve handle outcome)
  | .abort id => f.onStage (f.books.stage.abort id)
  | .perform task =>
    let stage := f.books.stage.perform task
    { f with books := f.books.absorb stage, endings := f.endings ++ stage.takeEndings.1 }
  | .flush => f.onStage (f.books.stage.record .flush)
  | .around s => f.onStage (f.books.stage.around s)

def step (f : Flow) (a : Act) : Flow :=
  { f.act a with removed := f.removed ++ f.books.tracker.left (f.act a).books.tracker }

def run (f : Flow) (acts : List Act) : Flow :=
  acts.foldl step f

/-- A dispatcher that has sent nothing. -/
def start (stream : InMemory) (script : Script) (i : Instruments) : Flow :=
  { books := { stage := Stage.ofStream stream script, instruments := i } }

/-- How the completion of a send has ended, if it has. -/
def ended (f : Flow) (id : Nat) : Option Bool :=
  endedOf f.books.stage.state id

/-- The event was sent, and its completion has not ended. -/
def Open (f : Flow) (id : Nat) (e : Event) : Prop :=
  f.sent[id]? = some e ∧ f.ended id = none

/-! ### The invariant -/

/-- Books, stage and history agree. -/
structure Booked (f : Flow) : Prop where
  sorted : f.books.tracker.Sorted
  numbered : f.books.dispatch.Numbered
  covered : f.books.dispatch.Covered f.books.tracker [] (f.sent.map Event.key)
  outstanding : ∀ id e, (⟨id, e⟩ : Send) ∈ f.books.dispatch.outstanding ↔ f.Open id e
  nextId : f.books.dispatch.nextId = f.sent.length
  size : f.books.stage.state.completions.size + f.entering.toList.length = f.sent.length
  counted : f.books.stage.Counted
  entering : ∀ e, f.entering = some e → f.sent.getLast? = some e
  seen : f.books.stage.state.endings = []
  nodup_endings : (f.endings.map Ending.id).Nodup
  ended : ∀ id aborted, f.ended id = some aborted ↔
    ∃ e ∈ f.endings, e.id = id ∧ e.isAborted = aborted
  failures : f.books.dispatch.failures = (f.endings.filter Ending.isFailure).length

theorem booked_start (stream : InMemory) (script : Script) (i : Instruments) :
    (start stream script i).Booked where
  sorted := Tracker.sorted_empty
  numbered := .empty
  covered := .start _ _
  outstanding := by simp [start, Open]
  nextId := rfl
  size := rfl
  counted := rfl
  entering := by simp [start]
  seen := rfl
  nodup_endings := List.nodup_nil
  ended := by
    intro id aborted
    simp [start, Flow.ended, endedOf, Stage.ofStream]
  failures := rfl

theorem run_concat (f : Flow) (acts : List Act) (a : Act) : f.run (acts ++ [a]) = (f.run acts).step a :=
  List.foldl_concat ..

/-! ### Quiet acts -/

variable {f : Flow}

/-- A send begins with the event being tracked, unless another one is under way. -/
theorem act_register (hnone : f.entering = none) (e : Event) :
    f.act (.register e) =
      { f with books := f.books.register e, entering := some e, sent := f.sent ++ [e] } := by
  simp only [act, hnone]

theorem act_submit {e : Event} (he : f.entering = some e) :
    f.act .submit = { f with books := f.books.submit e, entering := none } := by
  simp only [act, he]

namespace Booked

/-- The invariant looks at a stage only for what has ended on it, and for how many completions began. -/
theorem of_stage (h : f.Booked) {stage : Stage} {entering : Option Event}
    (hended : ∀ id, endedOf stage.state id = f.ended id)
    (hsize : stage.state.completions.size + entering.toList.length = f.sent.length)
    (hcounted : stage.Counted) (hentering : ∀ e, entering = some e → f.sent.getLast? = some e)
    (hseen : stage.state.endings = []) :
    Booked { f with books := { f.books with stage }, entering } where
  sorted := h.sorted
  numbered := h.numbered
  covered := h.covered
  outstanding id e := by
    show _ ↔ f.sent[id]? = some e ∧ endedOf stage.state id = none
    rw [hended]
    exact h.outstanding id e
  nextId := h.nextId
  size := hsize
  counted := hcounted
  entering := hentering
  seen := hseen
  nodup_endings := h.nodup_endings
  ended id aborted := by
    show endedOf stage.state id = some aborted ↔ _
    rw [hended]
    exact h.ended id aborted
  failures := h.failures

/-- Books, stage and history go on agreeing while the stage is quiet. -/
theorem onStage (h : f.Booked) {stage : Stage} (hq : Stage.Quiet f.books.stage stage) :
    (f.onStage stage).Booked := by
  refine h.of_stage hq.ended ?_ (h.counted.of_quiet hq) h.entering (hq.endings.trans h.seen)
  rw [hq.size]
  exact h.size

/-- No completion has begun for a number that no send has. -/
theorem ended_of_le (h : f.Booked) {id : Nat} (hid : f.sent.length ≤ id) : f.ended id = none := by
  have hsize : f.books.stage.state.completions.size ≤ id := by
    have := h.size
    omega
  rw [Flow.ended, endedOf_eq, Array.getElem?_eq_none hsize]
  rfl

/-- The event of a send under way is open: its completion has not begun. -/
theorem open_entering (h : f.Booked) {e : Event} (he : f.entering = some e) :
    f.Open (f.sent.length - 1) e := by
  have hsize := h.size
  have hlast := h.entering e he
  rw [he] at hsize
  rw [List.getLast?_eq_getElem?] at hlast
  refine ⟨hlast, ?_⟩
  have hnone : f.books.stage.state.completions[f.sent.length - 1]? = none := by
    refine Array.getElem?_eq_none ?_
    simp only [Option.toList_some, List.length_singleton] at hsize
    omega
  rw [Flow.ended, endedOf_eq, hnone]
  rfl

/-! ### A send -/

theorem register (h : f.Booked) (hnone : f.entering = none) (e : Event) :
    (f.act (.register e)).Booked := by
  have hlast : f.ended f.sent.length = none := h.ended_of_le (Nat.le_refl _)
  have hsize := h.size
  rw [hnone] at hsize
  rw [act_register hnone]
  exact
    { sorted := h.sorted.add e.key
      numbered := h.numbered.send e f.books.tracker f.books.instruments
      covered := by
        show (f.books.dispatch.send e f.books.tracker f.books.instruments).1.Covered (f.books.tracker.add e.key) []
          ((f.sent ++ [e]).map Event.key)
        rw [List.map_append]
        exact h.covered.send e f.books.instruments
      outstanding := by
        intro id e'
        show (⟨id, e'⟩ : Send) ∈ f.books.dispatch.outstanding ++ [⟨f.books.dispatch.nextId, e⟩] ↔
          (f.sent ++ [e])[id]? = some e' ∧ f.ended id = none
        rw [List.mem_append, h.outstanding, Open, h.nextId, List.mem_singleton, Send.mk.injEq,
          List.getElem?_append]
        -- the number of the send is the next position
        rcases Nat.lt_trichotomy id f.sent.length with hlt | rfl | hgt
        · simp [hlt, Nat.ne_of_lt hlt]
        · simp [hlast, eq_comm]
        · have hpos : id - f.sent.length ≠ 0 := by omega
          simp [Nat.not_lt.2 (Nat.le_of_lt hgt), Nat.ne_of_gt hgt, hpos]
      nextId := by
        show f.books.dispatch.nextId + 1 = (f.sent ++ [e]).length
        rw [h.nextId, List.length_append]
        rfl
      size := by
        show f.books.stage.state.completions.size + 1 = (f.sent ++ [e]).length
        rw [List.length_append, ← hsize]
        rfl
      counted := h.counted
      entering := by
        intro e' he
        rw [Option.some.inj he]
        simp
      seen := h.seen
      nodup_endings := h.nodup_endings
      ended := h.ended
      failures := h.failures }

theorem submit (h : f.Booked) {e : Event} (he : f.entering = some e) : (f.act .submit).Booked := by
  have hb := f.books.stage.dispatch_begins (Record.ofEvent e)
  have hsize := h.size
  rw [he] at hsize
  rw [act_submit he]
  exact h.of_stage hb.ended (hb.size.trans hsize) (h.counted.of_begins hb) (by simp) (hb.endings.trans h.seen)

end Booked

/-! ### A task that runs -/

/-- What taking notice of an ending does to the books. -/
structure Absorbed (d d' : Dispatching) (e : Ending) : Prop where
  stage : d'.stage = d.stage
  outstanding : d'.dispatch.outstanding = d.dispatch.outstanding.filter (·.id ≠ e.id)
  nextId : d'.dispatch.nextId = d.dispatch.nextId
  tracker : d'.tracker = d.dispatch.untracked e.id d.tracker
  failures : d'.dispatch.failures =
    d.dispatch.failures + if (d.dispatch.find? e.id).isSome && e.isFailure then 1 else 0

theorem absorbed (d : Dispatching) (e : Ending) : Absorbed d (d.absorbOne e) e := by
  cases e with
  | completed id outcome =>
    exact
      { stage := rfl
        outstanding := Dispatch.complete_outstanding d.dispatch id outcome d.tracker d.instruments
        nextId := Dispatch.complete_nextId d.dispatch id outcome d.tracker d.instruments
        tracker := Dispatch.complete_tracker d.dispatch id outcome d.tracker d.instruments
        failures := Dispatch.complete_failures d.dispatch id outcome d.tracker d.instruments }
  | aborted id =>
    exact
      { stage := rfl
        outstanding := Dispatch.abort_outstanding d.dispatch id d.tracker
        nextId := Dispatch.abort_nextId d.dispatch id d.tracker
        tracker := Dispatch.abort_tracker d.dispatch id d.tracker
        failures := by
          rw [Ending.isFailure, Bool.and_false]
          exact Dispatch.abort_failures d.dispatch id d.tracker }

section Ending

variable {e : Ending}

namespace Booked

/-- A completion that has not ended is not among the endings. -/
theorem id_ne_of_mem (h : f.Booked) (hopen : f.ended e.id = none) {e' : Ending}
    (he' : e' ∈ f.endings) : e'.id ≠ e.id := by
  intro hid
  have hsome := (h.ended e'.id e'.isAborted).2 ⟨e', he', rfl, rfl⟩
  rw [hid, hopen] at hsome
  exact absurd hsome (by simp)

theorem nodup_endings_concat (h : f.Booked) (hopen : f.ended e.id = none) :
    ((f.endings ++ [e]).map Ending.id).Nodup := by
  rw [List.map_append]
  refine List.nodup_append.2 ⟨h.nodup_endings, List.nodup_singleton _, ?_⟩
  intro id hid id' hid'
  obtain ⟨e', he', rfl⟩ := List.mem_map.1 hid
  rw [List.mem_singleton.1 hid']
  exact h.id_ne_of_mem hopen he'

theorem ended_concat (h : f.Booked) (hopen : f.ended e.id = none) (id : Nat) (aborted : Bool) :
    (if id = e.id then some e.isAborted else f.ended id) = some aborted ↔
      ∃ e' ∈ f.endings ++ [e], e'.id = id ∧ e'.isAborted = aborted := by
  by_cases hid : id = e.id
  · subst hid
    rw [if_pos rfl, Option.some.injEq]
    constructor
    · intro haborted
      exact ⟨e, by simp, rfl, haborted⟩
    · rintro ⟨e', he', hid, rfl⟩
      rcases List.mem_append.1 he' with he' | he'
      · exact absurd hid (h.id_ne_of_mem hopen he')
      · rw [List.mem_singleton.1 he']
  · rw [if_neg hid, h.ended]
    simp [Ne.symm hid]

/-- A completion that ends is one of an open send. -/
theorem exists_open (h : f.Booked) {stage : Stage} (he : Stage.Ends f.books.stage stage e) :
    ∃ event, f.Open e.id event := by
  have hsize := h.size
  have hlt := he.lt_size
  exact ⟨f.sent[e.id], List.getElem?_eq_getElem (by omega), he.open_before⟩

/-- The books know whose completion it is that ends. -/
theorem exists_send (h : f.Booked) {stage : Stage} (he : Stage.Ends f.books.stage stage e) :
    ∃ event, f.Open e.id event ∧ f.books.dispatch.find? e.id = some ⟨e.id, event⟩ := by
  obtain ⟨event, hopen⟩ := h.exists_open he
  exact ⟨event, hopen, h.numbered.find?_eq_some ((h.outstanding e.id event).2 hopen)⟩

end Booked

theorem act_perform_ends (hseen : f.books.stage.state.endings = []) {task : StageTask}
    (he : Stage.Ends f.books.stage (f.books.stage.perform task) e) :
    f.act (.perform task) =
      { f with
        books := Dispatching.absorbOne
          { f.books with stage := (f.books.stage.perform task).seen } e
        endings := f.endings ++ [e] } := by
  have hone : (f.books.stage.perform task).takeEndings.1 = [e] := by
    rw [Stage.takeEndings, he.endings, hseen]
    rfl
  simp only [act, Dispatching.absorb, hone, List.foldl_cons, List.foldl_nil]
  rfl

/-- A completion that ends takes its send out of the books. -/
theorem Booked.perform_ends (h : f.Booked) {task : StageTask}
    (he : Stage.Ends f.books.stage (f.books.stage.perform task) e) :
    (f.act (.perform task)).Booked := by
  -- the stage says which completion ends, the books say whose it is
  obtain ⟨event, ⟨hsent, hopen⟩, hfind⟩ := h.exists_send he
  rw [act_perform_ends h.seen he]
  let d : Dispatching := { f.books with stage := (f.books.stage.perform task).seen }
  have ha := absorbed d e
  have hended : ∀ id, endedOf (d.absorbOne e).stage.state id =
      if id = e.id then some e.isAborted else f.ended id := by
    intro id
    rw [ha.stage]
    exact he.ended id
  exact
    { sorted := by
        show (d.absorbOne e).tracker.Sorted
        rw [ha.tracker]
        exact Dispatch.sorted_untracked h.sorted e.id
      numbered := h.numbered.ended ha.outstanding ha.nextId
      covered := by
        show (d.absorbOne e).dispatch.Covered (d.absorbOne e).tracker [] _
        rw [ha.tracker]
        exact h.covered.ended h.numbered ha.outstanding
      outstanding := by
        intro id e'
        show _ ∈ (d.absorbOne e).dispatch.outstanding ↔
          f.sent[id]? = some e' ∧ endedOf (d.absorbOne e).stage.state id = none
        rw [ha.outstanding, List.mem_filter, h.outstanding, Open, hended, and_assoc]
        refine and_congr_right fun _ ↦ ?_
        by_cases hid : id = e.id <;> simp [hid]
      nextId := ha.nextId.trans h.nextId
      size := by
        show (d.absorbOne e).stage.state.completions.size + _ = _
        rw [ha.stage]
        exact (congrArg (· + f.entering.toList.length) he.size).trans h.size
      counted := by
        show (d.absorbOne e).stage.Counted
        rw [ha.stage]
        exact (h.counted.of_ends he).seen
      entering := h.entering
      seen := by
        show (d.absorbOne e).stage.state.endings = []
        rw [ha.stage]
        rfl
      nodup_endings := h.nodup_endings_concat hopen
      ended := by
        intro id aborted
        show endedOf (d.absorbOne e).stage.state id = _ ↔ _
        rw [hended]
        exact h.ended_concat hopen id aborted
      failures := by
        show (d.absorbOne e).dispatch.failures = _
        rw [ha.failures, show d.dispatch.find? e.id = some ⟨e.id, event⟩ from hfind, List.filter_append,
          List.length_append, ← h.failures]
        cases hf : e.isFailure <;> simp [hf, d] }

end Ending

theorem act_perform_quiet (hseen : f.books.stage.state.endings = []) {task : StageTask}
    (hq : Stage.Quiet f.books.stage (f.books.stage.perform task)) :
    f.act (.perform task) = f.onStage (f.books.stage.perform task).seen := by
  have hnone : (f.books.stage.perform task).takeEndings.1 = [] := by
    rw [Stage.takeEndings, hq.endings, hseen]
    rfl
  simp only [act, Dispatching.absorb, hnone, List.foldl_nil, List.append_nil]
  rfl

/-! ### Every act -/

/-- Books, stage and history agree after every act. -/
theorem Booked.act (h : f.Booked) (a : Act) : (f.act a).Booked := by
  cases a with
  | register e =>
    cases hentering : f.entering with
    | some e' =>
      -- a send is between its two acts, and no other one starts
      have hact : f.act (.register e) = f := by simp only [Flow.act, hentering]
      exact hact.symm ▸ h
    | none => exact h.register hentering e
  | submit =>
    cases hentering : f.entering with
    | some e => exact h.submit hentering
    | none =>
      -- nothing was registered, so there is nothing to submit
      have hact : f.act .submit = f := by simp only [Flow.act, hentering]
      exact hact.symm ▸ h
  | resolve handle outcome => exact h.onStage (Stage.quiet_resolve _ handle outcome)
  | abort id => exact h.onStage (Stage.quiet_abort _ id)
  | perform task =>
    -- a task ends one completion or none, and only the first case changes the tracker
    rcases Stage.perform_cases task f.books.stage with hq | ⟨e, he⟩
    · rw [act_perform_quiet h.seen hq]
      exact h.onStage (hq.trans (Stage.quiet_seen (hq.endings.trans h.seen)))
    · exact h.perform_ends he
  | flush => exact h.of_stage (fun _ ↦ rfl) h.size h.counted h.entering h.seen
  | around s => exact h.onStage (.of_eq rfl rfl rfl rfl)

/-- What has left the tracker makes no difference. -/
theorem Booked.step (h : f.Booked) (a : Act) : (f.step a).Booked :=
  { h.act a with }

/-- Books, stage and history agree all along a run. -/
theorem booked_run (stream : InMemory) (script : Script) (i : Instruments) (acts : List Act) :
    ((start stream script i).run acts).Booked := by
  induction acts using List.reverseRecOn with
  | nil => exact booked_start stream script i
  | append_singleton acts a ih =>
    rw [run_concat]
    exact ih.step a

/-- An act adds at most one event to those that were sent. -/
theorem sent_step (f : Flow) (a : Act) : f.sent <+: (f.step a).sent := by
  cases a with
  | register e =>
    simp only [step, act]
    split
    · exact List.prefix_rfl
    · exact List.prefix_append _ _
  | submit =>
    simp only [step, act]
    split <;> exact List.prefix_rfl
  | _ => exact List.prefix_rfl

end Flow

end Rehearsal

end Tidemark
