import Tidemark.Proofs.InFlight.Outstanding

/-!
# Sends that share a key

`Dispatch.Tracks` supposes that no two sends share a key. What holds of any sends is `Covered`: a key is
tracked on account of an outstanding send, unless it was tracked beforehand and was never sent. So nothing
that was sent is tracked once nothing is outstanding (`Covered.not_mem`).

The converse fails where two sends share a key: the first ending takes it out of the tracker.
-/

namespace Tidemark.Dispatch

variable {d d' : Dispatch} {t : Tracker}

/-- A tracked key is the key of an outstanding send, or it was tracked before and is not among those sent. -/
def Covered (d : Dispatch) (t : Tracker) (before sent : List EventKey) : Prop :=
  ∀ k ∈ t.keys, (∃ s ∈ d.outstanding, s.event.key = k) ∨ (k ∈ before ∧ k ∉ sent)

namespace Covered

variable {before sent : List EventKey}

/-- At the start the keys that are tracked were tracked before. -/
theorem start (d : Dispatch) (t : Tracker) : d.Covered t t.keys [] :=
  fun _ hk ↦ Or.inr ⟨hk, List.not_mem_nil⟩

theorem send (h : d.Covered t before sent) (e : Event) (i : Instruments) :
    (d.send e t i).1.Covered (t.add e.key) before (sent ++ [e.key]) := by
  intro k hk
  by_cases hnew : k = e.key
  · exact Or.inl ⟨⟨d.nextId, e⟩, List.mem_append_right _ (by simp), hnew.symm⟩
  · rcases Tracker.mem_add.1 hk with rfl | hk
    · exact absurd rfl hnew
    · rcases h k hk with ⟨s, hs, hkey⟩ | ⟨hbefore, hsent⟩
      · exact Or.inl ⟨s, List.mem_append_left _ hs, hkey⟩
      · refine Or.inr ⟨hbefore, fun hmem ↦ ?_⟩
        rcases List.mem_append.1 hmem with hmem | hmem
        · exact hsent hmem
        · exact hnew (List.mem_singleton.1 hmem)

theorem ended (h : d.Covered t before sent) (hn : d.Numbered) {id : Nat}
    (hout : d'.outstanding = d.outstanding.filter (·.id ≠ id)) :
    d'.Covered (d.untracked id t) before sent := by
  intro k hk
  refine (h k (mem_of_mem_untracked hk)).imp_left ?_
  rintro ⟨s, hs, rfl⟩
  refine ⟨s, ?_, rfl⟩
  rw [hout, List.mem_filter]
  refine ⟨hs, decide_eq_true ?_⟩
  -- the send that ends takes its key along
  rintro rfl
  rw [untracked, hn.find?_eq_some hs] at hk
  exact (Tracker.mem_remove.1 hk).2 rfl

/-- With nothing outstanding no key is tracked that was sent. -/
theorem not_mem (h : d.Covered t before sent) (hnone : d.outstanding = []) {k : EventKey}
    (hk : k ∈ sent) : k ∉ t.keys := by
  intro ht
  rcases h k ht with ⟨s, hs, -⟩ | ⟨-, hsent⟩
  · rw [hnone] at hs
    exact absurd hs List.not_mem_nil
  · exact hsent hk

/-- Nothing is tracked once nothing is outstanding, unless something was tracked beforehand. -/
theorem eq_empty (h : d.Covered t [] sent) (hnone : d.outstanding = []) : t = {} := by
  have hkeys : t.keys = [] := by
    rw [List.eq_nil_iff_forall_not_mem]
    intro k hk
    rcases h k hk with ⟨s, hs, -⟩ | ⟨hbefore, -⟩
    · rw [hnone] at hs
      exact List.not_mem_nil hs
    · exact List.not_mem_nil hbefore
  exact congrArg Tracker.mk hkeys

end Covered

end Tidemark.Dispatch
