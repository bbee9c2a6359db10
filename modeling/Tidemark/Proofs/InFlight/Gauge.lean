import Tidemark.Proofs.InFlight.Tracked

/-!
# What the gauge of the events in flight shows

The gauge is set when an event is sent and when a completion ends by itself. A completion that is aborted takes
its event out of the tracker and leaves the gauge as it is:

```
                       tracker          gauge
a send                 one key more     set to the size of the tracker
a completion ends      one key less     set to the size of the tracker
one that is aborted    one key less     stays
anything else          stays            stays
```

So the gauge is ahead of the tracker by the keys of the completions that were aborted since it was set
(`gauge_ahead_of_tracker`), and by nothing else. One is enough (`gauge_keeps_aborted`).
Sends may share keys here: whose completion ends is told by its number (`Booked.exists_send`).
-/

namespace Tidemark

namespace Tracker

/-- A key has left if it was tracked and is not. -/
theorem mem_left {t t' : Tracker} {k : EventKey} : k ∈ t.left t' ↔ k ∈ t.keys ∧ k ∉ t'.keys := by
  rw [left, List.mem_filter, decide_eq_true_eq]

/-- What is left of a tracker and what has left it make up the whole. -/
theorem size_add_left {t t' : Tracker} (h : t.Sorted) (h' : t'.Sorted)
    (hkept : ∀ k ∈ t'.keys, k ∈ t.keys) : t'.size + (t.left t').length = t.size := by
  have hperm : (t.keys.filter (· ∈ t'.keys)).Perm t'.keys := by
    refine (List.perm_ext_iff_of_nodup (h.nodup.filter _) h'.nodup).2 fun k ↦ ?_
    rw [List.mem_filter, decide_eq_true_eq]
    exact and_iff_right_of_imp (hkept k)
  rw [size, size, left, ← hperm.length_eq, List.length_eq_length_filter_add (l := t.keys) (· ∈ t'.keys)]
  simp

end Tracker

namespace Dispatch

/-- A completion that ends by itself sets the gauge. -/
theorem inFlight_complete {d : Dispatch} {id : Nat} {s : Send} (h : d.find? id = some s) (o : Outcome)
    (t : Tracker) (i : Instruments) :
    (d.complete id o t i).2.2.metrics.inFlight = (d.complete id o t i).2.1.size := by
  rw [complete, h]
  cases o <;> rfl

end Dispatch

namespace Rehearsal

namespace Flow

variable {f g : Flow}

/-- The number of events in flight that the metrics show. -/
def gauge (f : Flow) : Int :=
  f.books.instruments.metrics.inFlight

/-! ### What an act does to the gauge -/

/-- What an act does to the tracker and to the gauge. -/
inductive Gauged (f f' : Flow) : Prop
  | stays (htracker : f'.books.tracker = f.books.tracker) (hgauge : f'.gauge = f.gauge)
      (hsent : f'.sent = f.sent) (hendings : f'.endings = f.endings)
  | set (hgauge : f'.gauge = f'.books.tracker.size)
  | aborted (id : Nat) (event : Event) (hevent : f.sent[id]? = some event)
      (htracker : f'.books.tracker = f.books.tracker.remove event.key) (hgauge : f'.gauge = f.gauge)
      (hsent : f'.sent = f.sent) (hendings : f'.endings = f.endings ++ [.aborted id])

/-- Every act leaves the gauge alone, sets it, or ends a completion that was aborted. -/
theorem gauged_act (h : f.Booked) (a : Act) : Gauged f (f.act a) := by
  cases a with
  | register e =>
    cases hentering : f.entering with
    | some e' =>
      have hact : f.act (.register e) = f := by simp only [Flow.act, hentering]
      rw [hact]
      exact .stays rfl rfl rfl rfl
    | none =>
      rw [act_register hentering]
      exact .set rfl
  | submit =>
    cases hentering : f.entering with
    | none =>
      have hact : f.act .submit = f := by simp only [Flow.act, hentering]
      rw [hact]
      exact .stays rfl rfl rfl rfl
    | some e =>
      rw [act_submit hentering]
      exact .stays rfl rfl rfl rfl
  | perform task =>
    rcases Stage.perform_cases task f.books.stage with hq | ⟨e, he⟩
    · rw [act_perform_quiet h.seen hq]
      exact .stays rfl rfl rfl rfl
    · obtain ⟨event, hopen, hfind⟩ := h.exists_send he
      rw [act_perform_ends h.seen he]
      cases e with
      | completed id outcome => exact .set (Dispatch.inFlight_complete hfind outcome _ _)
      | aborted id =>
        refine .aborted id event hopen.1 ?_ rfl rfl rfl
        refine (Dispatch.abort_tracker f.books.dispatch id f.books.tracker).trans ?_
        rw [Dispatch.untracked, show f.books.dispatch.find? id = some ⟨id, event⟩ from hfind]
  | _ => exact .stays rfl rfl rfl rfl

/-- What has left the tracker makes no difference. -/
theorem gauged_step (h : f.Booked) (a : Act) : Gauged f (f.step a) := by
  cases gauged_act h a with
  | stays htracker hgauge hsent hendings => exact .stays htracker hgauge hsent hendings
  | set hgauge => exact .set hgauge
  | aborted id event hevent htracker hgauge hsent hendings =>
    exact .aborted id event hevent htracker hgauge hsent hendings

/-! ### Since the gauge was set -/

/-- Since the run came by `g` nothing was sent and completions have ended only by being aborted; the gauge is
ahead of the tracker by their keys. -/
structure Ahead (g f : Flow) : Prop where
  sent : f.sent = g.sent
  /-- The tracker has lost keys of aborted sends only. -/
  aborted : ∃ ids : List Nat, f.endings = g.endings ++ ids.map .aborted ∧
    ∀ k ∈ g.books.tracker.left f.books.tracker, ∃ id ∈ ids, ∃ e, f.sent[id]? = some e ∧ e.key = k
  kept : ∀ k ∈ f.books.tracker.keys, k ∈ g.books.tracker.keys
  gauge : f.gauge = f.books.tracker.size + (g.books.tracker.left f.books.tracker).length

namespace Ahead

/-- The moment at which the gauge is set. -/
theorem of_set (h : f.gauge = f.books.tracker.size) : Ahead f f := by
  have hleft : f.books.tracker.left f.books.tracker = [] := Tracker.left_eq_nil fun _ hk ↦ hk
  refine ⟨rfl, ⟨[], (List.append_nil _).symm, fun k hk ↦ ?_⟩, fun _ hk ↦ hk, ?_⟩
  · rw [hleft] at hk
    exact absurd hk List.not_mem_nil
  · rw [hleft, h]
    rfl

variable {f' : Flow}

/-- The gauge stays as far ahead while the tracker and the gauge stay. -/
theorem stays (h : Ahead g f) (htracker : f'.books.tracker = f.books.tracker) (hgauge : f'.gauge = f.gauge)
    (hsent : f'.sent = f.sent) (hendings : f'.endings = f.endings) : Ahead g f' where
  sent := hsent.trans h.sent
  aborted := by
    rw [htracker, hsent, hendings]
    exact h.aborted
  kept := by
    rw [htracker]
    exact h.kept
  gauge := by
    rw [htracker, hgauge]
    exact h.gauge

/-- One more completion is aborted. -/
theorem abort (h : Ahead g f) (hg : g.Booked) (hf : f.Booked) {id : Nat} {event : Event}
    (hevent : f.sent[id]? = some event)
    (htracker : f'.books.tracker = f.books.tracker.remove event.key) (hgauge : f'.gauge = f.gauge)
    (hsent : f'.sent = f.sent) (hendings : f'.endings = f.endings ++ [.aborted id]) : Ahead g f' := by
  have hkept : ∀ k ∈ f'.books.tracker.keys, k ∈ g.books.tracker.keys := by
    rw [htracker]
    exact fun k hk ↦ h.kept k (Tracker.mem_remove.1 hk).1
  refine ⟨hsent.trans h.sent, ?_, hkept, ?_⟩
  · obtain ⟨ids, hids, hleft⟩ := h.aborted
    refine ⟨ids ++ [id], ?_, fun k hk ↦ ?_⟩
    · rw [hendings, hids, List.map_append, List.append_assoc]
      rfl
    · rw [hsent]
      obtain ⟨hkg, hkf'⟩ := Tracker.mem_left.1 hk
      by_cases hkey : event.key = k
      · exact ⟨id, by simp, event, hevent, hkey⟩
      · have hkf : k ∉ f.books.tracker.keys := fun hkf ↦
          hkf' (htracker ▸ Tracker.mem_remove.2 ⟨hkf, Ne.symm hkey⟩)
        obtain ⟨id', hid', hsent'⟩ := hleft k (Tracker.mem_left.2 ⟨hkg, hkf⟩)
        exact ⟨id', List.mem_append_left _ hid', hsent'⟩
  · have hsorted : f'.books.tracker.Sorted := htracker ▸ hf.sorted.remove event.key
    have hbefore := Tracker.size_add_left hg.sorted hf.sorted h.kept
    have hafter := Tracker.size_add_left hg.sorted hsorted hkept
    rw [hgauge, h.gauge]
    omega

/-- The gauge is right if and only if the tracker has lost no key. -/
theorem gauge_eq_iff (h : Ahead g f) :
    f.gauge = f.books.tracker.size ↔ ∀ k ∈ g.books.tracker.keys, k ∈ f.books.tracker.keys := by
  have hleft : g.books.tracker.left f.books.tracker = [] ↔
      ∀ k ∈ g.books.tracker.keys, k ∈ f.books.tracker.keys := by
    rw [Tracker.left, List.filter_eq_nil_iff]
    simp
  rw [h.gauge, ← hleft, ← List.length_eq_zero_iff]
  omega

end Ahead

/-- Once something was sent there is a last moment at which the gauge was set. -/
theorem exists_ahead (stream : InMemory) (script : Script) (i : Instruments) {acts : List Act}
    (hsent : ((start stream script i).run acts).sent ≠ []) :
    ∃ before after, acts = before ++ after ∧
      Ahead ((start stream script i).run before) ((start stream script i).run acts) := by
  induction acts using List.reverseRecOn with
  | nil => exact absurd rfl hsent
  | append_singleton acts a ih =>
    have hbooked := booked_run stream script i acts
    rw [run_concat] at hsent ⊢
    cases gauged_step hbooked a with
    | set hgauge =>
      refine ⟨acts ++ [a], [], (List.append_nil _).symm, ?_⟩
      rw [run_concat]
      exact .of_set hgauge
    | stays htracker hgauge hsame hendings =>
      obtain ⟨before, after, hacts, h⟩ := ih (hsame ▸ hsent)
      exact ⟨before, after ++ [a], by rw [hacts, List.append_assoc], h.stays htracker hgauge hsame hendings⟩
    | aborted id event hevent htracker hgauge hsame hendings =>
      obtain ⟨before, after, hacts, h⟩ := ih (hsame ▸ hsent)
      refine ⟨before, after ++ [a], by rw [hacts, List.append_assoc], ?_⟩
      exact h.abort (booked_run stream script i before) hbooked hevent htracker hgauge hsame hendings

/-- Once an event was sent, the gauge is ahead of the tracker by the keys that aborted completions have taken
out of it since the last send and the last completion that ended by itself. It is right if and only if there
are none. -/
theorem gauge_ahead_of_tracker (stream : InMemory) (script : Script) (i : Instruments) {acts : List Act}
    (hsent : ((start stream script i).run acts).sent ≠ []) :
    let f := (start stream script i).run acts
    ∃ before after, acts = before ++ after ∧
      let g := (start stream script i).run before
      Ahead g f ∧
        (f.gauge = f.books.tracker.size ↔ ∀ k ∈ g.books.tracker.keys, k ∈ f.books.tracker.keys) := by
  obtain ⟨before, after, hacts, h⟩ := exists_ahead stream script i hsent
  exact ⟨before, after, hacts, h, h.gauge_eq_iff⟩

/-- Two sends, the first of which is aborted before its acknowledgement has come. -/
def abortedSend : List Act :=
  [.register ⟨⟨1200, by decide, by decide⟩, .empty, "1", 0⟩, .submit,
    .register ⟨⟨1700, by decide, by decide⟩, .empty, "1", 0⟩, .submit, .abort 0, .perform (.complete 0)]

/-- The gauge shows two events, and one is in flight. -/
theorem gauge_ahead_of_tracker_abortedSend :
    let f := (start manualStream {} {}).run abortedSend
    f.sent ≠ [] ∧ f.gauge = 2 ∧ f.books.tracker.size = 1 ∧
      ∃ before after, abortedSend = before ++ after ∧
        let g := (start manualStream {} {}).run before
        Ahead g f ∧
          (f.gauge = f.books.tracker.size ↔ ∀ k ∈ g.books.tracker.keys, k ∈ f.books.tracker.keys) := by
  have hrun : ((start manualStream {} {}).run abortedSend).sent ≠ [] ∧
      ((start manualStream {} {}).run abortedSend).gauge = 2 ∧
      ((start manualStream {} {}).run abortedSend).books.tracker.size = 1 := by decide +kernel
  exact ⟨hrun.1, hrun.2.1, hrun.2.2, gauge_ahead_of_tracker manualStream {} {} hrun.1⟩

end Flow

/-- An event is sent, its completion is aborted, and everything that is ready runs. Nothing is tracked then,
and the gauge shows one event. -/
theorem Dispatching.gauge_keeps_aborted :
    let event : Event := ⟨⟨100, by decide, by decide⟩, "a".toUTF8, "3398926610", 1⟩
    let d := (rehearseDispatch { stage := .ofStream Flow.manualStream {} }
      [.send event, .abort 0, .settle 1]).2
    d.stage.agenda.ready.isEmpty = true ∧ d.dispatch.outstanding = [] ∧ d.tracker.size = 0 ∧
      d.instruments.metrics.inFlight = 1 := by
  decide +kernel

end Rehearsal

end Tidemark
