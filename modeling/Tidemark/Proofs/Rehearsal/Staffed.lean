import Tidemark.Proofs.InFlight.Endings
import Tidemark.Proofs.Rehearsal.Waiting

/-!
# Completions get to run before the clock moves

A completion that has not ended is about to run, or it waits for a handle that has not resolved:

```
dispatch ─> ready, its task on the agenda ─> waiting, its handle unresolved and set to wake it
                  ^        └──────────────> ended          │
                  └──────────── resolve ───────────────────┘
```

`Staffed` says so. It rests on the wiring of the stage: no two completions share a handle, and a handle wakes
no completion but its own (`Wired`). Every task keeps both when it is taken from the agenda
(`Staffed.perform`), and so does every send (`Staffed.dispatch`). When no task is ready, nothing but waiting
for an unresolved handle keeps a completion from its end. So if all handles are resolved at some moment of a
wait, all completions have ended by the time the clock moves (`Staffed.allEnded`).
-/

namespace Tidemark

theorem Instant.not_lt {t u : Instant} : ¬ t < u ↔ u ≤ t :=
  Nat.not_lt

namespace Rehearsal

/-- The handle that a completion looks at or waits for. -/
def Completion.handle? : Completion → Option Nat
  | .ready (.ok handle) _ => some handle
  | .ready (.error _) _ => none
  | .waiting handle => some handle
  | .ended _ => none

namespace StageState

variable {st st' : StageState}

/-- Nothing has been sent yet. The stream and the script are whatever they are. -/
structure Fresh (st : StageState) : Prop where
  completions : st.completions = #[]
  handles : st.handles = #[]
  endings : st.endings = []

/-- The handle that a completion on a stage looks at or waits for. -/
def handleOf (st : StageState) (id : Nat) : Option Nat :=
  st.completions[id]?.bind Completion.handle?

/-- A completion that has begun looks at its own handle. -/
theorem handleOf_eq {id : Nat} {c : Completion} (hid : st.completions[id]? = some c) :
    st.handleOf id = c.handle? := by
  rw [handleOf, hid]
  rfl

theorem handleOf_congr (hc : st'.completions = st.completions) (id : Nat) :
    st'.handleOf id = st.handleOf id := by
  rw [handleOf, handleOf, hc]

/-- Only a completion that has begun looks at a handle. -/
theorem lt_of_handleOf {id handle : Nat} (h : st.handleOf id = some handle) : id < st.completions.size := by
  rw [handleOf, Option.bind_eq_some_iff] at h
  obtain ⟨c, hc, -⟩ := h
  exact (Array.getElem?_eq_some_iff.1 hc).1

end StageState

/-! ### Handles and their completions -/

/-- Completions do not share their handles, and a handle wakes no completion but its own. -/
structure Wired (st : StageState) : Prop where
  handle_lt : ∀ {id handle : Nat}, st.handleOf id = some handle → handle < st.handles.size
  handle_inj : ∀ {id other handle : Nat}, st.handleOf id = some handle → st.handleOf other = some handle →
    id = other
  waiter_lt : ∀ {handle id : Nat} {h : Handle}, st.handles[handle]? = some h → h.waiter = some id →
    id < st.completions.size
  waiter : ∀ {handle id other : Nat} {h : Handle}, st.handles[handle]? = some h → h.waiter = some id →
    st.handleOf id = some other → other = handle

/-- No completion gets another handle, and a handle is set to wake at most its own. -/
theorem Wired.rewired {st st' : StageState} (hw : Wired st)
    (hc : st'.completions.size = st.completions.size) (hh : st'.handles.size = st.handles.size)
    (howner : ∀ {id handle : Nat}, st'.handleOf id = some handle → st.handleOf id = some handle)
    (hwaiter : ∀ {handle id : Nat} {h' : Handle}, st'.handles[handle]? = some h' → h'.waiter = some id →
      (∃ h, st.handles[handle]? = some h ∧ h.waiter = some id) ∨ st.handleOf id = some handle) :
    Wired st' where
  handle_lt hid := hh ▸ hw.handle_lt (howner hid)
  handle_inj hid hother := hw.handle_inj (howner hid) (howner hother)
  waiter_lt hhandle hset := by
    rw [hc]
    rcases hwaiter hhandle hset with ⟨h, hhandle, hset⟩ | hid
    · exact hw.waiter_lt hhandle hset
    · exact StageState.lt_of_handleOf hid
  waiter hhandle hset hother := by
    rcases hwaiter hhandle hset with ⟨h, hhandle, hset⟩ | hid
    · exact hw.waiter hhandle hset (howner hother)
    · exact Option.some.inj ((howner hother).symm.trans hid)

/-- Every completion that has not ended has a task that is about to run, or is set to be woken by its handle,
which has not resolved. None was aborted. -/
structure Staffed (ready : List StageTask) (st : StageState) : Prop where
  wired : Wired st
  awake : ∀ {id : Nat} {source : Except Fault Nat} {aborted : Bool},
    st.completions[id]? = some (.ready source aborted) → aborted = false ∧ .complete id ∈ ready
  waiting : ∀ {id handle : Nat}, st.completions[id]? = some (.waiting handle) →
    ∃ h, st.handles[handle]? = some h ∧ h.outcome = none ∧ h.waiter = some id
  unaborted : ∀ {id : Nat} {aborted : Bool}, st.completions[id]? = some (.ended aborted) → aborted = false

namespace Staffed

variable {ready ready' : List StageTask} {st st' : StageState}

/-- A stage on which nothing was sent is staffed. -/
theorem of_fresh (h : st.Fresh) (ready : List StageTask) : Staffed ready st where
  wired :=
    { handle_lt := by simp [StageState.handleOf, h.completions]
      handle_inj := by simp [StageState.handleOf, h.completions]
      waiter_lt := by simp [h.handles]
      waiter := by simp [h.handles] }
  awake hid := by simp [h.completions] at hid
  waiting hid := by simp [h.completions] at hid
  unaborted hid := by simp [h.completions] at hid

/-- What leaves completions and handles alone, and takes no completion off the agenda. -/
theorem disturbed (hs : Staffed ready st) (hc : st'.completions = st.completions)
    (hh : st'.handles = st.handles) (hr : ∀ id, .complete id ∈ ready → .complete id ∈ ready') :
    Staffed ready' st' where
  wired := by
    refine hs.wired.rewired (by rw [hc]) (by rw [hh]) (fun hid ↦ ?_) fun hhandle hset ↦ ?_
    · rwa [StageState.handleOf_congr hc] at hid
    · exact Or.inl ⟨_, hh ▸ hhandle, hset⟩
  awake hid := (hs.awake (hc ▸ hid)).imp_right (hr _)
  waiting hid := by
    rw [hh]
    exact hs.waiting (hc ▸ hid)
  unaborted hid := hs.unaborted (hc ▸ hid)

/-! ### One completion and its handle -/

section Changes

variable {id handle : Nat} {c c' : Completion} {h g : Handle}

theorem getElem?_of_set {α : Type} {xs ys : Array α} {x y : α} (hx : xs[id]? = some x)
    (hset : ys = xs.setIfInBounds id y) (j : Nat) : ys[j]? = if id = j then some y else xs[j]? := by
  rw [hset, Array.getElem?_setIfInBounds, if_pos (Array.getElem?_eq_some_iff.1 hx).1]

/-- A completion that looks at a handle begins to wait for it, as long as it is not resolved, or is woken by
it. -/
theorem revised (hs : Staffed ready st) (hid : st.completions[id]? = some c)
    (hhandle : st.handles[handle]? = some h) (hold : c.handle? = some handle) (hset : g.waiter = some id)
    (hstate : (c' = .waiting handle ∧ g.outcome = none) ∨
      (c' = .ready (.ok handle) false ∧ .complete id ∈ ready'))
    (hc : st'.completions = st.completions.setIfInBounds id c')
    (hh : st'.handles = st.handles.setIfInBounds handle g)
    (hr : ∀ j, j ≠ id → .complete j ∈ ready → .complete j ∈ ready') : Staffed ready' st' := by
  have hcompletion := getElem?_of_set hid hc
  have hhandles := getElem?_of_set hhandle hh
  have howner : st.handleOf id = some handle := (StageState.handleOf_eq hid).trans hold
  have hnew : c'.handle? = some handle := by
    rcases hstate with ⟨rfl, -⟩ | ⟨rfl, -⟩ <;> rfl
  constructor
  case wired =>
    refine hs.wired.rewired (by rw [hc, Array.size_setIfInBounds]) (by rw [hh, Array.size_setIfInBounds])
      (fun {j k} hj ↦ ?_) fun {k j g'} hk hg ↦ ?_
    · rw [StageState.handleOf, hcompletion] at hj
      split at hj
      · rename_i he
        rw [← he, howner, ← hnew]
        exact hj
      · exact hj
    · rw [hhandles] at hk
      split at hk
      · rename_i he
        rw [← Option.some.inj hk, hset] at hg
        rw [← he, ← Option.some.inj hg]
        exact Or.inr howner
      · exact Or.inl ⟨g', hk, hg⟩
  case awake =>
    intro j source aborted hj
    rw [hcompletion] at hj
    split at hj
    · rename_i he
      subst he
      rcases hstate with ⟨hwait, -⟩ | ⟨hready, hmem⟩
      · rw [hwait] at hj
        exact absurd hj (by simp)
      · rw [hready, Option.some.injEq, Completion.ready.injEq] at hj
        exact ⟨hj.2.symm, hmem⟩
    · rename_i hne
      exact (hs.awake hj).imp_right (hr j (Ne.symm hne))
  case waiting =>
    intro j k hj
    rw [hcompletion] at hj
    split at hj
    · rename_i he
      subst he
      rcases hstate with ⟨hwait, hnone⟩ | ⟨hready, -⟩
      · rw [hwait, Option.some.injEq, Completion.waiting.injEq] at hj
        subst hj
        exact ⟨g, by rw [hhandles, if_pos rfl], hnone, hset⟩
      · rw [hready] at hj
        exact absurd hj (by simp)
    · rename_i hne
      -- the handle of another completion is another one
      have hk : handle ≠ k := by
        rintro rfl
        exact hne (hs.wired.handle_inj howner (StageState.handleOf_eq hj))
      rw [hhandles, if_neg hk]
      exact hs.waiting hj
  case unaborted =>
    intro j aborted hj
    rw [hcompletion] at hj
    split at hj
    · rcases hstate with ⟨rfl, -⟩ | ⟨rfl, -⟩ <;> simp at hj
    · exact hs.unaborted hj

/-- A completion ends. -/
theorem ended (hs : Staffed ready st) (hid : st.completions[id]? = some c)
    (hc : st'.completions = st.completions.setIfInBounds id (.ended false)) (hh : st'.handles = st.handles)
    (hr : ∀ j, j ≠ id → .complete j ∈ ready → .complete j ∈ ready') : Staffed ready' st' := by
  have hcompletion := getElem?_of_set hid hc
  constructor
  case wired =>
    refine hs.wired.rewired (by rw [hc, Array.size_setIfInBounds]) (by rw [hh]) (fun {j k} hj ↦ ?_)
      fun hk hg ↦ Or.inl ⟨_, hh ▸ hk, hg⟩
    rw [StageState.handleOf, hcompletion] at hj
    split at hj
    · exact absurd hj (by simp [Completion.handle?])
    · exact hj
  case awake =>
    intro j source aborted hj
    rw [hcompletion] at hj
    split at hj
    · exact absurd hj (by simp)
    · rename_i hne
      exact (hs.awake hj).imp_right (hr j (Ne.symm hne))
  case waiting =>
    intro j k hj
    rw [hcompletion] at hj
    split at hj
    · exact absurd hj (by simp)
    · rw [hh]
      exact hs.waiting hj
  case unaborted =>
    intro j aborted hj
    rw [hcompletion] at hj
    split at hj
    · rw [Option.some.injEq, Completion.ended.injEq] at hj
      exact hj.symm
    · exact hs.unaborted hj

/-- A handle resolves that no completion waits for. -/
theorem unheeded (hs : Staffed ready st) (hhandle : st.handles[handle]? = some h)
    (hidle : ∀ j : Nat, st.completions[j]? ≠ some (.waiting handle)) (hset : g.waiter = h.waiter)
    (hc : st'.completions = st.completions) (hh : st'.handles = st.handles.setIfInBounds handle g)
    (hr : ∀ j, .complete j ∈ ready → .complete j ∈ ready') : Staffed ready' st' := by
  have hhandles := getElem?_of_set hhandle hh
  constructor
  case wired =>
    refine hs.wired.rewired (by rw [hc]) (by rw [hh, Array.size_setIfInBounds]) (fun hj ↦ ?_)
      fun {k j g'} hk hg ↦ Or.inl ?_
    · rwa [StageState.handleOf_congr hc] at hj
    · rw [hhandles] at hk
      split at hk
      · rename_i he
        subst he
        rw [← Option.some.inj hk, hset] at hg
        exact ⟨h, hhandle, hg⟩
      · exact ⟨g', hk, hg⟩
  case awake =>
    intro j source aborted hj
    rw [hc] at hj
    exact (hs.awake hj).imp_right (hr j)
  case waiting =>
    intro j k hj
    rw [hc] at hj
    have hk : handle ≠ k := by
      rintro rfl
      exact hidle j hj
    rw [hhandles, if_neg hk]
    exact hs.waiting hj
  case unaborted =>
    intro j aborted hj
    exact hs.unaborted (hc ▸ hj)

end Changes

/-! ### Tasks -/

variable {s : Stage}

/-- A handle that resolves wakes its completion. -/
theorem resolve (hs : Staffed s.agenda.ready s.state) (handle : Nat) (outcome : Outcome) :
    Staffed (s.resolve handle outcome).agenda.ready (s.resolve handle outcome).state := by
  rw [Stage.resolve]
  split
  · exact hs
  · rename_i h hhandle
    dsimp only
    -- a completion that waits for the handle is the one that it is set to wake
    have hwaits {j : Nat} (hj : s.state.completions[j]? = some (.waiting handle)) : h.waiter = some j := by
      obtain ⟨g, hg, -, hset⟩ := hs.waiting hj
      rw [hhandle, Option.some.injEq] at hg
      rw [hg, hset]
    split
    · rename_i hnone
      refine hs.unheeded (g := { h with outcome := some outcome }) hhandle (fun j hj ↦ ?_) rfl rfl rfl
        fun _ hmem ↦ hmem
      exact absurd (hnone.symm.trans (hwaits hj)) (by simp)
    · rename_i id hset
      split
      · rename_i other hid
        have hother : other = handle := hs.wired.waiter hhandle hset (StageState.handleOf_eq hid)
        subst hother
        refine hs.revised (g := { h with outcome := some outcome }) hid hhandle rfl hset
          (Or.inr ⟨rfl, ?_⟩) rfl rfl fun j _ hmem ↦ ?_
        · exact List.mem_append_right _ (by simp)
        · exact List.mem_append_left _ hmem
      · rename_i hidle
        refine hs.unheeded (g := { h with outcome := some outcome }) hhandle (fun j hj ↦ ?_) rfl rfl rfl
          fun _ hmem ↦ hmem
        rw [Option.some.inj (hset.symm.trans (hwaits hj))] at hidle
        exact hidle handle hj

/-- What the stream and its handles do keeps a stage staffed. -/
theorem steadfast : Stage.Steadfast fun s ↦ Staffed s.agenda.ready s.state where
  untouched hs hu := hs.disturbed hu.completions hu.handles fun _ hmem ↦ hu.ready ▸ hmem
  resolve handle outcome hs := hs.resolve handle outcome

/-- A completion that gets to run ends, or begins to wait for its handle. -/
theorem runCompletion {id : Nat} (hs : Staffed (.complete id :: s.agenda.ready) s.state) :
    Staffed (s.runCompletion id).agenda.ready (s.runCompletion id).state := by
  have hothers : ∀ j, j ≠ id → .complete j ∈ .complete id :: s.agenda.ready →
      StageTask.complete j ∈ s.agenda.ready := by
    intro j hj hmem
    rcases List.mem_cons.1 hmem with he | hmem
    · exact absurd (StageTask.complete.inj he) hj
    · exact hmem
  rw [Stage.runCompletion]
  split
  · rename_i hid
    exact absurd (hs.awake hid).1 (by simp)
  · rename_i fault hid
    exact hs.ended hid rfl rfl hothers
  · rename_i handle hid
    have hlt : handle < s.state.handles.size := hs.wired.handle_lt (StageState.handleOf_eq hid)
    split
    · rename_i hnone
      exact absurd (Array.getElem?_eq_none_iff.1 hnone) (Nat.not_le.2 hlt)
    · rename_i h hhandle
      split
      · exact hs.ended hid rfl rfl hothers
      · rename_i hnone
        exact hs.revised (g := { h with waiter := some id }) hid hhandle rfl rfl (Or.inl ⟨rfl, hnone⟩)
          rfl rfl hothers
  · rename_i hready hidle
    -- it is not ready, so nothing was to run
    refine { wired := hs.wired, waiting := hs.waiting, unaborted := hs.unaborted, awake := ?_ }
    intro j source aborted hj
    obtain ⟨rfl, hmem⟩ := hs.awake hj
    refine ⟨rfl, hothers j ?_ hmem⟩
    rintro rfl
    rcases source with fault | handle
    · exact hready fault hj
    · exact hidle handle hj

/-- Every task keeps a stage staffed when it is taken from the agenda. -/
theorem perform {task : StageTask} (hs : Staffed (task :: s.agenda.ready) s.state) :
    Staffed (s.perform task).agenda.ready (s.perform task).state := by
  -- a task that runs no completion is not missed on the agenda
  have hrest (hne : ∀ id, task ≠ .complete id) : Staffed s.agenda.ready s.state := by
    refine hs.disturbed rfl rfl fun id hmem ↦ ?_
    rcases List.mem_cons.1 hmem with he | hmem
    · exact absurd he.symm (hne id)
    · exact hmem
  cases task with
  | complete id => exact hs.runCompletion
  | _ => exact steadfast.perform nofun (hrest nofun)

/-! ### Sends -/

/-- What a submission returns is a fault, or a new handle that wakes nothing yet. -/
structure Handed (s s' : Stage) (source : Except Fault Nat) : Prop where
  completions : s'.state.completions = s.state.completions
  handles : (∃ fault, source = .error fault) ∧ s'.state.handles = s.state.handles ∨
    ∃ outcome, source = .ok s.state.handles.size ∧ s'.state.handles = s.state.handles.push { outcome }
  ready : ∀ id, .complete id ∈ s.agenda.ready → .complete id ∈ s'.agenda.ready

/-- A submission to the stream returns a new handle. -/
theorem handed_submitOwn (s : Stage) (record : Record) :
    Handed s (s.submitOwn record).2 (.ok (s.submitOwn record).1) := by
  rw [Stage.submitOwn]
  split
  · exact ⟨rfl, Or.inr ⟨_, rfl, rfl⟩, fun _ hmem ↦ hmem⟩
  · exact ⟨rfl, Or.inr ⟨_, rfl, rfl⟩, fun _ hmem ↦ hmem⟩
  · exact ⟨rfl, Or.inr ⟨_, rfl, rfl⟩, fun _ hmem ↦ List.mem_append_left _ hmem⟩

/-- A submission returns a new handle, or the fault of the script. -/
theorem handed_submit (s : Stage) (record : Record) : Handed s (s.submit record).2 (s.submit record).1 := by
  rw [Stage.submit]
  dsimp only
  split
  · have hown := handed_submitOwn (s.record (.submit record)) record
    exact ⟨hown.completions, hown.handles, hown.ready⟩
  · rename_i first rest _
    cases first with
    | own =>
      have hown := handed_submitOwn { s.record (.submit record) with state := { (s.record (.submit record)).state with
        script := { (s.record (.submit record)).state.script with submits := rest } } } record
      exact ⟨hown.completions, hown.handles, hown.ready⟩
    | fail fault => exact ⟨rfl, Or.inl ⟨⟨fault, rfl⟩, rfl⟩, fun _ hmem ↦ hmem⟩
    | reject fault => exact ⟨rfl, Or.inr ⟨_, rfl, rfl⟩, fun _ hmem ↦ hmem⟩
    | drop => exact ⟨rfl, Or.inr ⟨_, rfl, rfl⟩, fun _ hmem ↦ hmem⟩

namespace Handed

variable {s s' : Stage} {source : Except Fault Nat} {handle id : Nat} {g : Handle}

/-- A handle that wakes a completion was there before. -/
theorem of_waiter (h : Handed s s' source) (hhandle : s'.state.handles[handle]? = some g)
    (hset : g.waiter = some id) : s.state.handles[handle]? = some g := by
  rcases h.handles with ⟨-, hh⟩ | ⟨outcome, -, hh⟩
  · rw [← hh, hhandle]
  · rw [hh, Array.getElem?_push] at hhandle
    split at hhandle
    · rw [← Option.some.inj hhandle] at hset
      exact absurd hset (by simp)
    · exact hhandle

theorem keeps (h : Handed s s' source) (hhandle : s.state.handles[handle]? = some g) :
    s'.state.handles[handle]? = some g := by
  have hlt : handle < s.state.handles.size := (Array.getElem?_eq_some_iff.1 hhandle).1
  rcases h.handles with ⟨-, hh⟩ | ⟨outcome, -, hh⟩
  · rw [hh, hhandle]
  · rw [hh, Array.getElem?_push, if_neg (Nat.ne_of_lt hlt), hhandle]

theorem size_le (h : Handed s s' source) : s.state.handles.size ≤ s'.state.handles.size := by
  rcases h.handles with ⟨-, hh⟩ | ⟨outcome, -, hh⟩
  · exact Nat.le_of_eq (congrArg Array.size hh.symm)
  · rw [hh, Array.size_push]
    exact Nat.le_succ _

/-- A handle that is returned is new. -/
theorem new (h : Handed s s' source) (hready : (Completion.ready source false).handle? = some handle) :
    handle = s.state.handles.size ∧ handle < s'.state.handles.size := by
  rcases h.handles with ⟨⟨fault, rfl⟩, -⟩ | ⟨outcome, rfl, hh⟩
  · exact absurd hready (by simp [Completion.handle?])
  · rw [hh, Array.size_push]
    have hhandle : s.state.handles.size = handle := Option.some.inj hready
    omega

/-- The completion that begins comes after all others. -/
theorem getElem?_spawn (h : Handed s s' source) (j : Nat) :
    (s'.spawnCompletion source).2.state.completions[j]? =
      if j = s.state.completions.size then some (.ready source false) else s.state.completions[j]? := by
  show (s'.state.completions.push (.ready source false))[j]? = _
  rw [h.completions, Array.getElem?_push]

/-- The completion that begins looks at the new handle, which no other one looks at. -/
theorem wired (h : Handed s s' source) (hw : Wired s.state) : Wired (s'.spawnCompletion source).2.state := by
  have howner (j : Nat) : (s'.spawnCompletion source).2.state.handleOf j =
      if j = s.state.completions.size then (Completion.ready source false).handle?
      else s.state.handleOf j := by
    rw [StageState.handleOf, h.getElem?_spawn]
    split <;> rfl
  -- an old completion does not look at the new handle
  have hold {j k : Nat} (hj : s.state.handleOf j = some k)
      (hnew : (Completion.ready source false).handle? = some k) : False := by
    have hlt := hw.handle_lt hj
    have hk := (h.new hnew).1
    omega
  constructor
  case handle_lt =>
    intro j k hj
    rw [howner] at hj
    split at hj
    · exact (h.new hj).2
    · exact Nat.lt_of_lt_of_le (hw.handle_lt hj) h.size_le
  case handle_inj =>
    intro j j' k hj hj'
    rw [howner] at hj hj'
    split at hj
    · rename_i he
      split at hj'
      · rename_i he'
        rw [he, he']
      · exact (hold hj' hj).elim
    · split at hj'
      · exact (hold hj hj').elim
      · exact hw.handle_inj hj hj'
  case waiter_lt =>
    intro k j g hk hg
    have hlt := hw.waiter_lt (h.of_waiter hk hg) hg
    show j < (s'.state.completions.push _).size
    rw [Array.size_push, h.completions]
    omega
  case waiter =>
    intro k j other g hk hg hj
    have hk := h.of_waiter hk hg
    have hlt := hw.waiter_lt hk hg
    rw [howner, if_neg (Nat.ne_of_lt hlt)] at hj
    exact hw.waiter hk hg hj

end Handed

/-- A send begins a completion that is about to run. -/
theorem dispatch (hs : Staffed s.agenda.ready s.state) (record : Record) :
    Staffed (s.dispatch record).agenda.ready (s.dispatch record).state := by
  have hsubmit := handed_submit s record
  rw [Stage.dispatch]
  generalize s.submit record = x at hsubmit ⊢
  obtain ⟨source, s'⟩ := x
  have hcompletion := hsubmit.getElem?_spawn
  dsimp only at hsubmit hcompletion ⊢
  constructor
  case wired => exact hsubmit.wired hs.wired
  case awake =>
    intro j source' aborted hj
    have hready : (s'.spawnCompletion source).2.agenda.ready =
        s'.agenda.ready ++ [.complete s.state.completions.size] := by
      rw [← hsubmit.completions]
      rfl
    rw [hready]
    rw [hcompletion] at hj
    split at hj
    · rename_i he
      rw [Option.some.injEq, Completion.ready.injEq] at hj
      rw [he]
      exact ⟨hj.2.symm, List.mem_append_right _ (by simp)⟩
    · obtain ⟨haborted, hmem⟩ := hs.awake hj
      exact ⟨haborted, List.mem_append_left _ (hsubmit.ready j hmem)⟩
  case waiting =>
    intro j k hj
    rw [hcompletion] at hj
    split at hj
    · exact absurd hj (by simp)
    · obtain ⟨g, hg, hrest⟩ := hs.waiting hj
      exact ⟨g, hsubmit.keeps hg, hrest⟩
  case unaborted =>
    intro j aborted hj
    rw [hcompletion] at hj
    split at hj
    · exact absurd hj (by simp)
    · exact hs.unaborted hj

end Staffed

/-! ### The end of a wait -/

namespace Stage

variable {s s' : Stage}

/-- Every handle has an outcome, be it an acknowledgement or a fault. -/
def Resolved (s : Stage) : Prop :=
  ∀ (handle : Nat) (h : Handle), s.state.handles[handle]? = some h → h.outcome.isSome

instance (s : Stage) : Decidable s.Resolved :=
  decidable_of_iff (∀ handle < s.state.handles.size, ∀ h ∈ s.state.handles[handle]?, h.outcome.isSome) <| by
    constructor
    · intro hall handle h hh
      exact hall handle (Array.getElem?_eq_some_iff.1 hh).1 h hh
    · intro hr handle _ h hh
      exact hr handle h hh

/-- Every completion has ended. -/
def AllEnded (s : Stage) : Prop :=
  ∀ id < s.state.completions.size, (endedOf s.state id).isSome

/-- What leaves the completions alone leaves them all ended. -/
theorem AllEnded.of_quiet (h : s.AllEnded) (hq : Quiet s s') : s'.AllEnded := by
  intro id hid
  rw [hq.ended]
  exact h id (hq.size ▸ hid)

/-- Tasks end completions and begin none. -/
theorem AllEnded.perform (h : s.AllEnded) (task : StageTask) : (s.perform task).AllEnded := by
  rcases perform_cases task s with hq | ⟨e, he⟩
  · exact h.of_quiet hq
  · intro id hid
    rw [he.ended]
    split
    · rfl
    · exact h id (he.size ▸ hid)

/-- When no task is ready and all handles are resolved, nothing is left to end. -/
theorem allEnded (hs : Staffed s.agenda.ready s.state) (hready : s.agenda.ready = []) (hr : s.Resolved) :
    s.AllEnded := by
  intro id hid
  rw [hready] at hs
  obtain ⟨c, hc⟩ : ∃ c, s.state.completions[id]? = some c := ⟨_, Array.getElem?_eq_getElem hid⟩
  cases c with
  | ready source aborted => exact absurd (hs.awake hc).2 List.not_mem_nil
  | waiting handle =>
    obtain ⟨h, hh, hnone, -⟩ := hs.waiting hc
    exact absurd (hr handle h hh) (by simp [hnone])
  | ended aborted =>
    rw [endedOf, hc]
    rfl

/-! What tasks do to the handles and to the clock. -/

/-- A handle that resolves leaves none unresolved. -/
theorem Resolved.resolve (h : s.Resolved) (handle : Nat) (outcome : Outcome) :
    (s.resolve handle outcome).Resolved := by
  have hset {g : Handle} (hg : g.outcome.isSome) {k : Nat} {g' : Handle}
      (hk : (s.state.handles.setIfInBounds handle g)[k]? = some g') : g'.outcome.isSome := by
    rw [Array.getElem?_setIfInBounds] at hk
    split at hk
    · split at hk
      · rw [← Option.some.inj hk]
        exact hg
      · exact absurd hk (by simp)
    · exact h k g' hk
  rw [Stage.resolve]
  split
  · exact h
  · dsimp only
    split
    · exact fun _ _ ↦ hset rfl
    · split <;> exact fun _ _ ↦ hset rfl

/-- A completion that runs leaves no handle unresolved. -/
theorem Resolved.runCompletion (h : s.Resolved) (id : Nat) : (s.runCompletion id).Resolved := by
  rw [Stage.runCompletion]
  split
  · exact h
  · exact h
  · split
    · exact h
    · rename_i g hhandle
      split
      · exact h
      · rename_i hnone
        exact absurd (h _ g hhandle) (by simp [hnone])
  · exact h

/-- What the stream and its handles do leaves no handle unresolved. -/
theorem steadfast_resolved : Steadfast Resolved where
  untouched h hu := fun handle g hg ↦ h handle g (hu.handles ▸ hg)
  resolve handle outcome h := h.resolve handle outcome

/-- Tasks leave no handle unresolved that was resolved. -/
theorem Resolved.perform (h : s.Resolved) (task : StageTask) : (s.perform task).Resolved := by
  cases task with
  | complete id => exact h.runCompletion id
  | _ => exact steadfast_resolved.perform nofun h

theorem steadfast_now (now : Instant) : Steadfast fun s ↦ s.now = now where
  untouched h hu := hu.now.trans h
  resolve handle outcome h := (apart_resolve _ handle outcome).now.trans h

/-- The clock stands still while tasks run. -/
theorem now_perform (s : Stage) (task : StageTask) : (s.perform task).now = s.now := by
  cases task with
  | complete id => exact (s.apart_runCompletion id).now
  | _ => exact (steadfast_now s.now).perform nofun rfl

/-- A stage stays staffed while somebody waits. -/
theorem staffed_lasting : World.Lasting perform fun s ↦ Staffed s.agenda.ready s.state where
  task {s task agenda} hpop h := by
    refine Staffed.perform (s := { s with agenda }) ?_
    rw [Agenda.eq_of_pop? hpop] at h
    exact h
  clock {s} now hready h := by
    refine h.disturbed rfl rfl fun id hmem ↦ ?_
    rw [hready] at hmem
    exact absurd hmem List.not_mem_nil

/-- All handles are resolved, and from a moment on all completions have ended. -/
structure CatchesUp (due : Instant) (s : Stage) : Prop where
  staffed : Staffed s.agenda.ready s.state
  resolved : s.Resolved
  ended : s.now < due ∨ s.AllEnded

/-- A stage that catches up does so while somebody waits. -/
theorem CatchesUp.lasting (due : Instant) : World.Lasting perform (CatchesUp due) where
  task {s task agenda} hpop h := by
    refine ⟨staffed_lasting.task hpop h.staffed, h.resolved.perform (s := { s with agenda }) task, ?_⟩
    rw [now_perform]
    refine h.ended.imp (fun hlt ↦ ?_) fun hended ↦ AllEnded.perform (s := { s with agenda }) hended task
    rw [World.now, Agenda.eq_of_pop? hpop] at hlt
    exact hlt
  clock {s} now hready h := by
    -- whatever waited for a handle has run by now
    have hended : AllEnded s := allEnded h.staffed hready h.resolved
    exact ⟨staffed_lasting.clock now hready h.staffed, h.resolved, Or.inr hended⟩

/-- When a wait has reached a moment and all handles were resolved at an earlier moment of the wait, all
completions have ended. -/
theorem allEnded_of_trail (hs : Staffed s.agenda.ready s.state) {holds : Stage → Bool} {limit due : Instant}
    {u : Stage} (hu : u ∈ World.trail perform holds limit s) (hr : u.Resolved) (hlt : u.now < due)
    (hdue : due ≤ (World.waitFor perform holds limit s).2.now) :
    AllEnded (World.waitFor perform holds limit s).2 := by
  have hstaffed := staffed_lasting.forall_trail hs hu
  exact ((CatchesUp.lasting due).of_mem_trail hu ⟨hstaffed, hr, Or.inl hlt⟩).ended.resolve_left
    (Instant.not_lt.2 hdue)

end Stage

end Rehearsal

end Tidemark
