import Tidemark.Proofs.Replay.Runs

/-!
# The sends of a run in flight

A step does one of three things to the books of the sends, `Move.flight`: a completion lands, an event is
launched, or nothing changes. From it follow along every run

* `tracks_after`: the tracker holds the keys of the outstanding sends, given that no key was sent twice;
* `mem_outstanding_of_unseen`: a send is outstanding as long as its completion has not ended.

`Unseen` is told from the happenings alone. It does not look into the dispatch, so that statements about
what has not come back yet do not rest on the books that they are about.
-/

namespace Tidemark

namespace Replay

/-! ### One step -/

/-- A completion lands, nothing changes, or an event is launched under the next number. -/
theorem Move.flight {r : Replay} {h : Happening} {x : Replay × Option Send} (hm : r.Move h x) :
    (∃ id o, h = .completed id o ∧ x.2 = none ∧
      x.1.dispatch = (r.dispatch.complete id o r.tracker r.instruments).1 ∧
      x.1.tracker = r.dispatch.untracked id r.tracker) ∨
    (x.2 = none ∧ x.1.dispatch = r.dispatch ∧ x.1.tracker = r.tracker) ∨
    (∃ e i, x.2 = some ⟨r.dispatch.nextId, e⟩ ∧
      x.1.dispatch = (r.dispatch.send e r.tracker i).1 ∧ x.1.tracker = r.tracker.add e.key) := by
  cases hm with
  | landed id outcome i => exact Or.inl ⟨id, outcome, rfl, rfl, rfl, rfl⟩
  | concluded _ hs => exact Or.inl ⟨_, _, rfl, rfl, hs.dispatch, hs.tracker⟩
  | halted ha => exact Or.inr (Or.inl ⟨rfl, ha.kept.dispatch, ha.kept.tracker⟩)
  | launched ha _ hl =>
    obtain ⟨i, hd⟩ := hl.dispatch
    rw [← ha.kept.dispatch, ← ha.kept.tracker]
    exact Or.inr (Or.inr ⟨_, i, rfl, hd, hl.tracker⟩)
  | slept ha => exact Or.inr (Or.inl ⟨rfl, ha.kept.dispatch, ha.kept.tracker⟩)
  | ended _ hs => exact Or.inr (Or.inl ⟨rfl, hs.dispatch, hs.tracker⟩)
  | _ => exact Or.inr (Or.inl ⟨rfl, rfl, rfl⟩)

/-- After a send the loop pulls, and the event is tracked. -/
theorem Move.pulling_of_sent {r : Replay} {h : Happening} {x : Replay × Option Send} (hm : r.Move h x)
    {s : Send} (hs : x.2 = some s) : x.1.stage = .pulling ∧ x.1.tracker = r.tracker.add s.event.key := by
  cases hm with
  | launched ha _ hl =>
    rw [← Option.some.inj hs, ← ha.kept.tracker]
    exact ⟨hl.stage, hl.tracker⟩
  | _ => exact absurd hs (by simp)

/-! ### Outstanding sends -/

/-- Where nothing is sent nothing becomes outstanding. -/
theorem mem_outstanding_of_step {r : Replay} {h : Happening} (hnone : (r.step h).2 = none) {s : Send}
    (hs : s ∈ (r.step h).1.dispatch.outstanding) : s ∈ r.dispatch.outstanding := by
  rcases (r.move_step h).flight with ⟨id, o, -, -, hd, -⟩ | ⟨-, hd, -⟩ | ⟨e, i, hsent, -, -⟩
  · rw [hd, Dispatch.complete_outstanding] at hs
    exact (List.mem_filter.1 hs).1
  · rw [hd] at hs
    exact hs
  · exact absurd (hsent.symm.trans hnone) (by simp)

/-- What is outstanding was sent in the run. -/
theorem mem_sent_of_mem_outstanding {r : Replay} (hr : r.dispatch.outstanding = [])
    {hs : List Happening} {s : Send} (hmem : s ∈ (r.after hs).dispatch.outstanding) :
    s ∈ (r.run hs).2 := by
  induction hs using List.reverseRecOn with
  | nil => exact absurd hmem (by simp [hr])
  | append_singleton hs h ih =>
    rw [after_concat] at hmem
    rw [sent_concat]
    rcases ((r.after hs).move_step h).flight with
      ⟨id, o, -, -, hd, -⟩ | ⟨-, hd, -⟩ | ⟨e, i, hsent, hd, -⟩
    · rw [hd, Dispatch.complete_outstanding] at hmem
      exact List.mem_append_left _ (ih (List.mem_filter.1 hmem).1)
    · rw [hd] at hmem
      exact List.mem_append_left _ (ih hmem)
    · rw [hd] at hmem
      rcases List.mem_append.1 hmem with hmem | hmem
      · exact List.mem_append_left _ (ih hmem)
      · rw [hsent, List.mem_singleton.1 hmem]
        exact List.mem_append_right _ (by simp)

/-- The tracker holds the keys of the outstanding sends all along a run that sends no key twice. -/
theorem tracks_after {r : Replay} (hd : r.dispatch = {}) (ht : r.tracker = {})
    {hs : List Happening} (hkeys : ((r.run hs).2.map fun s ↦ s.event.key).Nodup) :
    (r.after hs).dispatch.Tracks (r.after hs).tracker := by
  induction hs using List.reverseRecOn with
  | nil =>
    rw [after_nil, hd, ht]
    exact .empty
  | append_singleton hs h ih =>
    rw [sent_concat, List.map_append] at hkeys
    have ih := ih (List.nodup_append.1 hkeys).1
    rw [after_concat]
    rcases ((r.after hs).move_step h).flight with
      ⟨id, o, -, -, hd', ht'⟩ | ⟨-, hd', ht'⟩ | ⟨e, i, hsent, hd', ht'⟩
    · rw [hd', ht', ← Dispatch.complete_tracker]
      exact ih.complete id o _
    · rw [hd', ht']
      exact ih
    · rw [hd', ht']
      refine ih.send ?_ i
      -- an outstanding send was sent before, so its key is not the one sent now
      intro s hs' hkey
      have hsent' := mem_sent_of_mem_outstanding (by rw [hd]) hs'
      refine (List.nodup_append.1 hkeys).2.2 _ (List.mem_map_of_mem hsent') e.key ?_ hkey
      rw [hsent]
      simp

/-! ### Sends whose outcome has not been seen -/

/-- The event was submitted in the run, and its completion has not ended since. -/
def Unseen (r : Replay) (hs : List Happening) (s : Send) : Prop :=
  ∃ before h later, hs = before ++ h :: later ∧ ((r.after before).step h).2 = some s ∧
    ∀ o, Happening.completed s.id o ∉ later

/-- A send stays outstanding unless it is completed. -/
theorem mem_outstanding_step {r : Replay} {h : Happening} {s : Send}
    (hs : s ∈ r.dispatch.outstanding) (hh : ∀ o, h ≠ .completed s.id o) :
    s ∈ (r.step h).1.dispatch.outstanding := by
  rcases (r.move_step h).flight with ⟨id, o, rfl, -, hd, -⟩ | ⟨-, hd, -⟩ | ⟨e, i, -, hd, -⟩
  · rw [hd, Dispatch.complete_outstanding]
    refine List.mem_filter.2 ⟨hs, decide_eq_true ?_⟩
    rintro rfl
    exact hh o rfl
  · rw [hd]
    exact hs
  · rw [hd]
    exact List.mem_append_left _ hs

/-- A send is outstanding when it was just sent. -/
theorem mem_outstanding_of_sent {r : Replay} {h : Happening} {s : Send}
    (hs : (r.step h).2 = some s) : s ∈ (r.step h).1.dispatch.outstanding := by
  rcases (r.move_step h).flight with ⟨id, o, -, hnone, -, -⟩ | ⟨hnone, -, -⟩ | ⟨e, i, hsent, hd, -⟩
  · exact absurd (hnone.symm.trans hs) (by simp)
  · exact absurd (hnone.symm.trans hs) (by simp)
  · rw [hd, ← Option.some.inj (hsent.symm.trans hs)]
    exact List.mem_append_right _ (by simp)

/-- A send whose outcome has not been seen is outstanding. -/
theorem mem_outstanding_of_unseen {r : Replay} {hs : List Happening} {s : Send}
    (hu : r.Unseen hs s) : s ∈ (r.after hs).dispatch.outstanding := by
  obtain ⟨before, h, later, rfl, hsent, hlater⟩ := hu
  rw [after_append, after_cons]
  have hmem := mem_outstanding_of_sent hsent
  -- outstanding once it is sent; the induction is on what happens since
  generalize ((r.after before).step h).1 = r₁ at hmem
  clear hsent
  induction later generalizing r₁ with
  | nil => exact hmem
  | cons g later ih =>
    rw [after_cons]
    refine ih (fun o ho ↦ hlater o (List.mem_cons_of_mem _ ho)) _ ?_
    exact mem_outstanding_step hmem fun o he ↦ hlater o (he ▸ List.mem_cons_self)

end Replay

end Tidemark
