import Tidemark.Proofs.InFlight.Completions

/-!
# What is tracked under every schedule

If no two events sent share a key, the tracker follows the books at every moment of a run (`Dispatch.Tracks`), and
the key of a send leaves it once, when its completion ends:

```
register           one key more
a completion ends  its key leaves          (Dispatch.Tracks.left_untracked)
anything else      no key comes or leaves  (Sound.kept)
```

`Sound` adds this to the invariant of the books. So the tracker holds exactly what is in flight (`exact_run`).
-/

namespace Tidemark

/-- An ending takes exactly the key of its send out of the tracker. -/
theorem Dispatch.Tracks.left_untracked {d : Dispatch} {t : Tracker} (h : d.Tracks t) {s : Send}
    (hs : s ∈ d.outstanding) : t.left (d.untracked s.id t) = [s.event.key] := by
  have hmem : s.event.key ∈ t.keys := (h.mem_keys _).2 ⟨s, hs, rfl⟩
  have heq : t.left (d.untracked s.id t) = t.keys.filter (· = s.event.key) := by
    rw [Tracker.left, untracked, h.find?_eq_some hs]
    refine List.filter_congr fun k hk ↦ ?_
    simp [Tracker.mem_remove, hk]
  rw [heq, List.filter_eq, List.count_eq_one_of_mem h.sorted.nodup hmem]
  rfl

namespace Rehearsal

namespace Flow

variable {f : Flow}

/-- Two events that were sent with the same key are one. -/
theorem eq_of_key_eq {events : List Event} (hkeys : (events.map Event.key).Nodup) {i j : Nat}
    {a b : Event} (ha : events[i]? = some a) (hb : events[j]? = some b) (hk : a.key = b.key) : i = j := by
  have hi : i < (events.map Event.key).length := by
    rw [List.length_map]
    exact (List.getElem?_eq_some_iff.1 ha).1
  refine (List.getElem?_inj hi hkeys).1 ?_
  rw [List.getElem?_map, List.getElem?_map, ha, hb]
  exact congrArg some hk

/-! ### The invariant -/

/-- Besides, the tracker follows the books, and the keys of the sends that have ended are the ones that left it. -/
structure Sound (f : Flow) : Prop extends Booked f where
  tracks : f.books.dispatch.Tracks f.books.tracker
  removed : ∀ id e, f.sent[id]? = some e →
    f.removed.count e.key = if (f.ended id).isSome then 1 else 0
  mem_removed : ∀ k ∈ f.removed, k ∈ f.sent.map Event.key

theorem sound_start (stream : InMemory) (script : Script) (i : Instruments) :
    (start stream script i).Sound :=
  { booked_start stream script i with
    tracks := .empty
    removed := by simp [start]
    mem_removed := by simp [start] }

/-- Nothing is counted as removed while the tracker keeps its keys. -/
theorem removed_step {a : Act} (h : ∀ k ∈ f.books.tracker.keys, k ∈ (f.act a).books.tracker.keys) :
    (f.step a).removed = f.removed := by
  rw [step, Tracker.left_eq_nil h]
  exact List.append_nil _

namespace Sound

/-- An act after which books, tracker and endings are what they were. -/
theorem kept (h : f.Sound) {a : Act} (hdispatch : (f.act a).books.dispatch = f.books.dispatch)
    (htracker : (f.act a).books.tracker = f.books.tracker) (hsent : (f.act a).sent = f.sent)
    (hended : ∀ id, (f.act a).ended id = f.ended id) : (f.step a).Sound := by
  have hremoved : (f.step a).removed = f.removed := removed_step fun k hk ↦ htracker ▸ hk
  exact
    { h.toBooked.step a with
      tracks := by
        show (f.act a).books.dispatch.Tracks (f.act a).books.tracker
        rw [hdispatch, htracker]
        exact h.tracks
      removed := by
        show ∀ id e, (f.act a).sent[id]? = some e →
          (f.step a).removed.count e.key = if ((f.act a).ended id).isSome then 1 else 0
        simp only [hremoved, hsent, hended]
        exact h.removed
      mem_removed := by
        show ∀ k ∈ (f.step a).removed, k ∈ (f.act a).sent.map Event.key
        rw [hremoved, hsent]
        exact h.mem_removed }

theorem register (h : f.Sound) (hnone : f.entering = none) {e : Event}
    (hkeys : ((f.sent ++ [e]).map Event.key).Nodup) : (f.step (.register e)).Sound := by
  have hact := act_register hnone e
  have hremoved : (f.step (.register e)).removed = f.removed := by
    refine removed_step fun k hk ↦ ?_
    rw [hact]
    exact Tracker.mem_add.2 (Or.inr hk)
  have hnew : e.key ∉ f.sent.map Event.key := by
    rw [List.map_append] at hkeys
    intro hmem
    exact (List.nodup_append.1 hkeys).2.2 _ hmem _ (List.mem_singleton.2 rfl) rfl
  exact
    { h.toBooked.step (.register e) with
      tracks := by
        show (f.act (.register e)).books.dispatch.Tracks (f.act (.register e)).books.tracker
        rw [hact]
        refine h.tracks.send ?_ f.books.instruments
        intro s hs hkey
        have hsent := ((h.outstanding s.id s.event).1 hs).1
        exact hnew (hkey ▸ List.mem_map_of_mem (List.mem_of_getElem? hsent))
      removed := by
        intro id e' he
        change (f.act (.register e)).sent[id]? = some e' at he
        show (f.step (.register e)).removed.count e'.key =
          if ((f.act (.register e)).ended id).isSome then 1 else 0
        rw [hremoved]
        rw [hact] at he ⊢
        show f.removed.count e'.key = if (f.ended id).isSome then 1 else 0
        by_cases hlt : id < f.sent.length
        · rw [List.getElem?_append_left hlt] at he
          exact h.removed id e' he
        · rw [List.getElem?_append_right (Nat.le_of_not_lt hlt), List.getElem?_singleton] at he
          split at he
          · -- a new key cannot have been removed yet
            rw [← Option.some.inj he, h.ended_of_le (Nat.le_of_not_lt hlt)]
            exact List.count_eq_zero.2 fun hmem ↦ hnew (h.mem_removed _ hmem)
          · exact absurd he (by simp)
      mem_removed := by
        show ∀ k ∈ (f.step (.register e)).removed, k ∈ (f.act (.register e)).sent.map Event.key
        rw [hremoved, hact]
        intro k hk
        rw [List.map_append]
        exact List.mem_append_left _ (h.mem_removed k hk) }

section Ending

variable {e : Ending}

/-- The key of the send that ends is counted once more, and no other one. -/
theorem removed_concat (h : f.Sound) (hkeys : (f.sent.map Event.key).Nodup)
    (hopen : f.ended e.id = none) {event : Event} (hsent : f.sent[e.id]? = some event) {id : Nat}
    {e' : Event} (he' : f.sent[id]? = some e') :
    (f.removed ++ [event.key]).count e'.key =
      if (if id = e.id then some e.isAborted else f.ended id).isSome then 1 else 0 := by
  rw [List.count_append, h.removed id e' he']
  by_cases hid : id = e.id
  · subst hid
    rw [Option.some.inj (he'.symm.trans hsent), hopen]
    simp
  · have hcount : [event.key].count e'.key = 0 := by
      rw [List.count_eq_zero, List.mem_singleton]
      exact fun hkey ↦ hid (eq_of_key_eq hkeys he' hsent hkey)
    rw [if_neg hid, hcount]
    exact Nat.add_zero _

/-- A completion that ends takes the key of its send out of the tracker, and no other one. -/
theorem perform_ends (h : f.Sound) (hkeys : (f.sent.map Event.key).Nodup) {task : StageTask}
    (he : Stage.Ends f.books.stage (f.books.stage.perform task) e) :
    (f.step (.perform task)).Sound := by
  obtain ⟨event, ⟨hsent, hopen⟩, -⟩ := h.exists_send he
  have hact := act_perform_ends h.seen he
  let d : Dispatching := { f.books with stage := (f.books.stage.perform task).seen }
  have ha := absorbed d e
  have hended : ∀ id, endedOf (d.absorbOne e).stage.state id =
      if id = e.id then some e.isAborted else f.ended id := by
    intro id
    rw [ha.stage]
    exact he.ended id
  have hremoved : (f.step (.perform task)).removed = f.removed ++ [event.key] := by
    show (f.act (.perform task)).removed ++ f.books.tracker.left (f.act (.perform task)).books.tracker = _
    rw [hact]
    show f.removed ++ f.books.tracker.left (d.absorbOne e).tracker = _
    rw [ha.tracker]
    exact congrArg (f.removed ++ ·) (h.tracks.left_untracked ((h.outstanding e.id event).2 ⟨hsent, hopen⟩))
  exact
    { h.toBooked.step (.perform task) with
      tracks := by
        show (f.act (.perform task)).books.dispatch.Tracks (f.act (.perform task)).books.tracker
        rw [hact]
        show (d.absorbOne e).dispatch.Tracks (d.absorbOne e).tracker
        rw [ha.tracker]
        exact h.tracks.ended ha.outstanding ha.nextId
      removed := by
        intro id e' he'
        show (f.step (.perform task)).removed.count e'.key =
          if ((f.act (.perform task)).ended id).isSome then 1 else 0
        rw [hremoved, hact]
        show _ = if (endedOf (d.absorbOne e).stage.state id).isSome then 1 else 0
        rw [hended]
        exact h.removed_concat hkeys hopen hsent he'
      mem_removed := by
        show ∀ k ∈ (f.step (.perform task)).removed, k ∈ f.sent.map Event.key
        rw [hremoved]
        intro k hk
        rcases List.mem_append.1 hk with hk | hk
        · exact h.mem_removed k hk
        · rw [List.mem_singleton.1 hk]
          exact List.mem_map_of_mem (List.mem_of_getElem? hsent) }

end Ending

/-- Every act keeps all sound, as long as no key is sent twice. -/
theorem step (h : f.Sound) {a : Act} (hkeys : ((f.step a).sent.map Event.key).Nodup) :
    (f.step a).Sound := by
  cases a with
  | register e =>
    cases hentering : f.entering with
    | some e' =>
      -- a send is between its two acts, and no other one starts
      have hact : f.act (.register e) = f := by simp only [Flow.act, hentering]
      exact h.kept (by rw [hact]) (by rw [hact]) (by rw [hact]) fun _ ↦ by rw [hact]
    | none =>
      have hsent : (f.step (.register e)).sent = f.sent ++ [e] :=
        congrArg Flow.sent (act_register hentering e)
      rw [hsent] at hkeys
      exact h.register hentering hkeys
  | submit =>
    cases hentering : f.entering with
    | some e =>
      have hact := act_submit hentering
      refine h.kept (by rw [hact]; rfl) (by rw [hact]; rfl) (by rw [hact]) fun id ↦ ?_
      rw [hact]
      exact (f.books.stage.dispatch_begins (Record.ofEvent e)).ended id
    | none =>
      -- nothing was registered, so there is nothing to submit
      have hact : f.act .submit = f := by simp only [Flow.act, hentering]
      exact h.kept (by rw [hact]) (by rw [hact]) (by rw [hact]) fun _ ↦ by rw [hact]
  | resolve handle outcome => exact h.kept rfl rfl rfl (Stage.quiet_resolve _ handle outcome).ended
  | abort id => exact h.kept rfl rfl rfl (Stage.quiet_abort _ id).ended
  | perform task =>
    -- a task ends one completion or none, and only the first case changes the tracker
    rcases Stage.perform_cases task f.books.stage with hq | ⟨e, he⟩
    · have hact := act_perform_quiet h.seen hq
      refine h.kept (by rw [hact]; rfl) (by rw [hact]; rfl) (by rw [hact]; rfl) fun id ↦ ?_
      rw [hact]
      exact hq.ended id
    · exact h.perform_ends hkeys he
  | flush => exact h.kept rfl rfl rfl fun _ ↦ rfl
  | around s => exact h.kept rfl rfl rfl fun _ ↦ rfl

/-- Books, stage and history agree all along a run that sends no key twice. -/
theorem run (h : f.Sound) {acts : List Act} (hkeys : ((f.run acts).sent.map Event.key).Nodup) :
    (f.run acts).Sound := by
  induction acts using List.reverseRecOn with
  | nil => exact h
  | append_singleton acts a ih =>
    rw [run_concat] at hkeys ⊢
    have hprefix := ((f.run acts).sent_step a).sublist.map Event.key
    exact (ih (hkeys.sublist hprefix)).step hkeys

end Sound

/-! ### What is in flight -/

def calls (f : Flow) : List (Instant × Call) :=
  f.books.stage.state.calls

/-- But for flushes, only the second act of a send calls the destination. -/
theorem calls_step (f : Flow) (a : Act) :
    (f.step a).calls = f.calls ∨ (f.step a).calls = (f.books.stage.now, .flush) :: f.calls ∨
      ∃ e, f.entering = some e ∧
        (f.step a).calls = (f.books.stage.now, .submit (Record.ofEvent e)) :: f.calls := by
  cases a with
  | register e =>
    refine Or.inl ?_
    simp only [step, act, calls]
    split <;> rfl
  | submit =>
    cases hentering : f.entering with
    | some e =>
      refine Or.inr (Or.inr ⟨e, rfl, ?_⟩)
      simp only [step, act, calls, hentering]
      exact (f.books.stage.dispatch_begins (Record.ofEvent e)).calls
    | none =>
      refine Or.inl ?_
      simp only [step, act, calls, hentering]
  | resolve handle outcome => exact Or.inl (Stage.quiet_resolve _ handle outcome).calls
  | abort id => exact Or.inl (Stage.quiet_abort _ id).calls
  | perform task =>
    have hcalls : (f.step (.perform task)).calls = (f.books.stage.perform task).state.calls := by
      -- taking note of endings changes the tracker and the counters, not the stage
      have hstage : ∀ (endings : List Ending) (d : Dispatching),
          (endings.foldl Dispatching.absorbOne d).stage = d.stage := by
        intro endings
        induction endings with
        | nil => exact fun _ ↦ rfl
        | cons e rest ih => exact fun d ↦ (ih _).trans (absorbed d e).stage
      show ((f.books.absorb (f.books.stage.perform task)).stage).state.calls = _
      rw [Dispatching.absorb, hstage]
      rfl
    rw [hcalls]
    rcases Stage.perform_cases task f.books.stage with hq | ⟨e, he⟩
    · exact Or.inl hq.calls
    · exact Or.inl he.calls
  | flush => exact Or.inr (Or.inl rfl)
  | around s => exact Or.inl rfl

/-- What is in flight, and what has become of the rest. -/
structure Exact (f : Flow) : Prop where
  /-- The tracker holds the keys of the open sends and no other key. -/
  tracked : ∀ k, k ∈ f.books.tracker.keys ↔ ∃ id e, f.Open id e ∧ e.key = k
  oldest_none : f.books.tracker.oldest? = none ↔ ∀ id e, ¬ f.Open id e
  /-- The oldest key is the least one of the open sends. -/
  oldest_some : ∀ k, f.books.tracker.oldest? = some k ↔
    (∃ id e, f.Open id e ∧ e.key = k) ∧ ∀ id e, f.Open id e → e.key = k ∨ k.less e.key = true
  /-- The key of a send leaves the tracker once, when its completion ends. -/
  removed_once : ∀ id e, f.sent[id]? = some e →
    f.removed.count e.key = if (f.ended id).isSome then 1 else 0
  removed_sent : ∀ k ∈ f.removed, ∃ e ∈ f.sent, e.key = k
  /-- What is submitted next is an event whose key is in the tracker. -/
  submitted : ∀ a, (f.step a).calls = f.calls ∨
    (f.step a).calls = (f.books.stage.now, .flush) :: f.calls ∨
    ∃ e, e.key ∈ f.books.tracker.keys ∧
      (f.step a).calls = (f.books.stage.now, .submit (Record.ofEvent e)) :: f.calls
  /-- Completions end once, and those that ended with a fault are counted. -/
  ended_once : (f.endings.map Ending.id).Nodup
  ended : ∀ id aborted, f.ended id = some aborted ↔
    ∃ e ∈ f.endings, e.id = id ∧ e.isAborted = aborted
  failures : f.books.dispatch.failures = (f.endings.filter Ending.isFailure).length

theorem Sound.mem_keys (h : f.Sound) (k : EventKey) :
    k ∈ f.books.tracker.keys ↔ ∃ id e, f.Open id e ∧ e.key = k := by
  rw [h.tracks.mem_keys]
  constructor
  · rintro ⟨s, hs, rfl⟩
    exact ⟨s.id, s.event, (h.outstanding s.id s.event).1 hs, rfl⟩
  · rintro ⟨id, e, ho, rfl⟩
    exact ⟨⟨id, e⟩, (h.outstanding id e).2 ho, rfl⟩

theorem Sound.exact (h : f.Sound) : f.Exact where
  tracked := h.mem_keys
  oldest_none := by
    rw [Tracker.oldest?_eq_none_iff]
    simp only [h.mem_keys]
    constructor
    · intro hnone id e ho
      exact hnone e.key ⟨id, e, ho, rfl⟩
    · rintro hnone k ⟨id, e, ho, -⟩
      exact hnone id e ho
  oldest_some k := by
    rw [Tracker.oldest?_eq_some_iff h.tracks.sorted, h.mem_keys]
    refine and_congr_right fun _ ↦ ?_
    constructor
    · intro hleast id e ho
      exact hleast e.key ((h.mem_keys _).2 ⟨id, e, ho, rfl⟩)
    · intro hleast j hj
      obtain ⟨id, e, ho, rfl⟩ := (h.mem_keys j).1 hj
      exact hleast id e ho
  removed_once := h.removed
  removed_sent k hk := List.mem_map.1 (h.mem_removed k hk)
  submitted a := by
    refine (f.calls_step a).imp_right (Or.imp_right ?_)
    rintro ⟨e, he, hcalls⟩
    exact ⟨e, (h.mem_keys _).2 ⟨_, e, h.open_entering he, rfl⟩, hcalls⟩
  ended_once := h.nodup_endings
  ended := h.ended
  failures := h.failures

/-- Whatever the order of sends, acknowledgements, failures, dropped handles, rejected submissions, aborts
and the tasks that get to run, the tracker holds exactly what is in flight, if no two events sent share a
key. -/
theorem exact_run (stream : InMemory) (script : Script) (i : Instruments) (acts : List Act)
    (hkeys : (((start stream script i).run acts).sent.map Event.key).Nodup) :
    ((start stream script i).run acts).Exact :=
  ((sound_start stream script i).run hkeys).exact

/-- Three sends: the first one is aborted while it waits for its acknowledgement, the second one is
rejected, and the third one is about to be submitted. -/
def threeSends : List Act :=
  let event (millis : Nat) (h : (millis : Int) ≤ 9223372036854775807) : Event :=
    ⟨⟨millis, by omega, h⟩, .empty, "1", 0⟩
  [.register (event 1000 (by decide)), .submit, .perform (.complete 0),
    .register (event 2000 (by decide)), .submit, .perform (.complete 1),
    .abort 0, .perform (.complete 0), .register (event 3000 (by decide))]

def manualStream : InMemory :=
  (InMemory.create 1).withAckPolicy .manual

def rejectSecond : Script :=
  { submits := [.own, .reject (.destination .injectedSubmit)] }

/-- Only the third event is in flight, and only the second one counts as a failure. -/
theorem exact_run_threeSends :
    let f := (start manualStream rejectSecond {}).run threeSends
    (f.sent.map Event.key).Nodup ∧ f.Exact ∧
      f.books.tracker.keys.map (·.timestamp.millis) = [3000] ∧ f.books.dispatch.failures = 1 := by
  intro f
  have hkeys : (f.sent.map Event.key).Nodup := by decide +kernel
  have hexact : f.Exact := exact_run manualStream rejectSecond {} threeSends hkeys
  exact ⟨hkeys, hexact, by decide +kernel, by decide +kernel⟩

end Flow

end Rehearsal

end Tidemark
