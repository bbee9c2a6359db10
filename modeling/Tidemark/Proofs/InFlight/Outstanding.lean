import Mathlib.Data.List.Nodup
import Tidemark.Dispatch
import Tidemark.Proofs.InFlight.Tracker

/-!
# Outstanding sends and tracked keys

A send is outstanding until its completion ends, whether with an outcome or by an abort. `Dispatch.Tracks`
says that a tracker holds exactly the keys of the sends that are outstanding:

```
send      outstanding + one,  its key is added
complete  outstanding - one,  its key is removed
abort     outstanding - one,  its key is removed
```

The two endings do the same to the sends and to the tracker (`Dispatch.untracked`), so one lemma,
`Tracks.ended`, carries the invariant over both. That no two outstanding sends share a key is part of the
invariant: with a shared key the first ending would take the other send out of the tracker as well.
-/

namespace Tidemark

namespace Dispatch

variable {d : Dispatch} {t : Tracker}

/-! ### What an ending does -/

/-- The tracker after the completion of a number has ended, in whichever way. -/
def untracked (d : Dispatch) (id : Nat) (t : Tracker) : Tracker :=
  match d.find? id with
  | none => t
  | some s => t.remove s.event.key

/-- A number that nothing outstanding has leaves all as it is. -/
theorem filter_of_find?_eq_none {id : Nat} (h : d.find? id = none) :
    d.outstanding.filter (·.id ≠ id) = d.outstanding := by
  rw [List.filter_eq_self]
  intro s hs
  simpa using List.find?_eq_none.1 h s hs

/-- What is found by a number is outstanding and has that number. -/
theorem mem_of_find?_eq_some {id : Nat} {s : Send} (h : d.find? id = some s) :
    s ∈ d.outstanding ∧ s.id = id :=
  ⟨List.mem_of_find?_eq_some h, by simpa using List.find?_some h⟩

@[simp] theorem complete_outstanding (d : Dispatch) (id : Nat) (o : Outcome) (t : Tracker)
    (i : Instruments) :
    (d.complete id o t i).1.outstanding = d.outstanding.filter (·.id ≠ id) := by
  rw [complete]
  split
  · rename_i h
    exact (filter_of_find?_eq_none h).symm
  · cases o <;> rfl

@[simp] theorem complete_nextId (d : Dispatch) (id : Nat) (o : Outcome) (t : Tracker)
    (i : Instruments) : (d.complete id o t i).1.nextId = d.nextId := by
  rw [complete]
  split
  · rfl
  · cases o <;> rfl

@[simp] theorem complete_tracker (d : Dispatch) (id : Nat) (o : Outcome) (t : Tracker)
    (i : Instruments) : (d.complete id o t i).2.1 = d.untracked id t := by
  rw [complete, untracked]
  cases d.find? id with
  | none => rfl
  | some s => cases o <;> rfl

/-- A completion that ends with a fault is counted, one that ends well is not. -/
theorem complete_failures (d : Dispatch) (id : Nat) (o : Outcome) (t : Tracker) (i : Instruments) :
    (d.complete id o t i).1.failures =
      d.failures + if (d.find? id).isSome && !o.isOk then 1 else 0 := by
  rw [complete]
  cases hf : d.find? id with
  | none => rfl
  | some s => cases o <;> rfl

@[simp] theorem abort_outstanding (d : Dispatch) (id : Nat) (t : Tracker) :
    (d.abort id t).1.outstanding = d.outstanding.filter (·.id ≠ id) := by
  rw [abort]
  split
  · rename_i h
    exact (filter_of_find?_eq_none h).symm
  · rfl

@[simp] theorem abort_nextId (d : Dispatch) (id : Nat) (t : Tracker) :
    (d.abort id t).1.nextId = d.nextId := by
  rw [abort]
  split <;> rfl

@[simp] theorem abort_failures (d : Dispatch) (id : Nat) (t : Tracker) :
    (d.abort id t).1.failures = d.failures := by
  rw [abort]
  split <;> rfl

@[simp] theorem abort_tracker (d : Dispatch) (id : Nat) (t : Tracker) :
    (d.abort id t).2 = d.untracked id t := by
  rw [abort, untracked]
  cases d.find? id <;> rfl

/-- Endings only take keys out of the tracker. -/
theorem mem_of_mem_untracked {id : Nat} {k : EventKey} (h : k ∈ (d.untracked id t).keys) :
    k ∈ t.keys := by
  rw [untracked] at h
  split at h
  · exact h
  · exact (Tracker.mem_remove.1 h).1

theorem sorted_untracked (h : t.Sorted) (id : Nat) : (d.untracked id t).Sorted := by
  rw [untracked]
  split
  · exact h
  · exact h.remove _

/-! ### Numbers -/

/-- Numbers tell the outstanding sends apart, and the next one is new. -/
structure Numbered (d : Dispatch) : Prop where
  id_lt : ∀ s ∈ d.outstanding, s.id < d.nextId
  nodup_ids : (d.outstanding.map Send.id).Nodup

namespace Numbered

theorem empty : Numbered {} :=
  ⟨by simp, List.nodup_nil⟩

/-- No two outstanding sends have the same number. -/
theorem eq_of_id_eq (h : d.Numbered) {s u : Send} (hs : s ∈ d.outstanding) (hu : u ∈ d.outstanding)
    (he : s.id = u.id) : s = u :=
  List.inj_on_of_nodup_map h.nodup_ids hs hu he

/-- An outstanding send is found by its number. -/
theorem find?_eq_some (h : d.Numbered) {s : Send} (hs : s ∈ d.outstanding) :
    d.find? s.id = some s := by
  cases hf : d.find? s.id with
  | none => simpa using List.find?_eq_none.1 hf s hs
  | some u =>
    obtain ⟨hu, hid⟩ := mem_of_find?_eq_some hf
    rw [h.eq_of_id_eq hu hs hid]

theorem send (h : d.Numbered) (e : Event) (t : Tracker) (i : Instruments) :
    (d.send e t i).1.Numbered where
  id_lt := by
    intro s hs
    rcases List.mem_append.1 hs with hs | hs
    · exact Nat.lt_succ_of_lt (h.id_lt s hs)
    · rw [List.mem_singleton.1 hs]
      exact Nat.lt_succ_self _
  nodup_ids := by
    show ((d.outstanding ++ [(⟨d.nextId, e⟩ : Send)]).map Send.id).Nodup
    rw [List.map_append]
    -- the next number is above all that were given out
    refine List.Nodup.append h.nodup_ids (List.nodup_singleton _) ?_
    intro id hid hnext
    obtain ⟨s, hs, rfl⟩ := List.mem_map.1 hid
    exact absurd (List.mem_singleton.1 hnext) (Nat.ne_of_lt (h.id_lt s hs))

theorem ended (h : d.Numbered) {id : Nat} {d' : Dispatch}
    (hout : d'.outstanding = d.outstanding.filter (·.id ≠ id)) (hnext : d'.nextId = d.nextId) :
    d'.Numbered where
  id_lt := by
    intro s hs
    rw [hnext]
    rw [hout] at hs
    exact h.id_lt s (List.mem_filter.1 hs).1
  nodup_ids := by
    rw [hout]
    exact h.nodup_ids.sublist (List.filter_sublist.map _)

end Numbered

/-! ### The invariant -/

/-- The tracker holds the keys of the outstanding sends and nothing else; numbers and keys tell the sends
apart. -/
structure Tracks (d : Dispatch) (t : Tracker) : Prop where
  sorted : t.Sorted
  id_lt : ∀ s ∈ d.outstanding, s.id < d.nextId
  nodup_ids : (d.outstanding.map Send.id).Nodup
  nodup_keys : (d.outstanding.map fun s ↦ s.event.key).Nodup
  mem_keys : ∀ k, k ∈ t.keys ↔ ∃ s ∈ d.outstanding, s.event.key = k

namespace Tracks

theorem empty : Tracks {} {} where
  sorted := Tracker.sorted_empty
  id_lt := by simp
  nodup_ids := List.nodup_nil
  nodup_keys := List.nodup_nil
  mem_keys := by simp

/-- Sends that are tracked are told apart by their numbers. -/
theorem numbered (h : d.Tracks t) : d.Numbered :=
  ⟨h.id_lt, h.nodup_ids⟩

theorem eq_of_id_eq (h : d.Tracks t) {s u : Send} (hs : s ∈ d.outstanding) (hu : u ∈ d.outstanding)
    (he : s.id = u.id) : s = u :=
  h.numbered.eq_of_id_eq hs hu he

/-- No two outstanding sends have the same key. -/
theorem eq_of_key_eq (h : d.Tracks t) {s u : Send} (hs : s ∈ d.outstanding)
    (hu : u ∈ d.outstanding) (he : s.event.key = u.event.key) : s = u :=
  List.inj_on_of_nodup_map h.nodup_keys hs hu he

/-- An outstanding send is found by its number. -/
theorem find?_eq_some (h : d.Tracks t) {s : Send} (hs : s ∈ d.outstanding) :
    d.find? s.id = some s :=
  h.numbered.find?_eq_some hs

/-- Sending an event whose key is not outstanding. -/
theorem send (h : d.Tracks t) {e : Event} (hnew : ∀ s ∈ d.outstanding, s.event.key ≠ e.key)
    (i : Instruments) : (d.send e t i).1.Tracks (d.send e t i).2.1 where
  sorted := h.sorted.add e.key
  id_lt := (h.numbered.send e t i).id_lt
  nodup_ids := (h.numbered.send e t i).nodup_ids
  nodup_keys := by
    show ((d.outstanding ++ [(⟨d.nextId, e⟩ : Send)]).map fun s ↦ s.event.key).Nodup
    rw [List.map_append]
    refine List.Nodup.append h.nodup_keys (List.nodup_singleton _) ?_
    intro k hk hnew'
    obtain ⟨s, hs, rfl⟩ := List.mem_map.1 hk
    exact hnew s hs (List.mem_singleton.1 hnew')
  mem_keys := by
    intro k
    show k ∈ (t.add e.key).keys ↔ ∃ s ∈ d.outstanding ++ [(⟨d.nextId, e⟩ : Send)], s.event.key = k
    simp only [Tracker.mem_add, h.mem_keys, List.mem_append, List.mem_singleton]
    constructor
    · rintro (rfl | ⟨s, hs, rfl⟩)
      · exact ⟨⟨d.nextId, e⟩, Or.inr rfl, rfl⟩
      · exact ⟨s, Or.inl hs, rfl⟩
    · rintro ⟨s, hs | rfl, rfl⟩
      · exact Or.inr ⟨s, hs, rfl⟩
      · exact Or.inl rfl

/-- When a send has ended, the keys of the others are tracked. -/
theorem mem_untracked_iff (h : d.Tracks t) {id : Nat} {k : EventKey} :
    k ∈ (d.untracked id t).keys ↔ ∃ s ∈ d.outstanding, s.id ≠ id ∧ s.event.key = k := by
  rw [untracked]
  cases hf : d.find? id with
  | none =>
    simp only [h.mem_keys]
    refine exists_congr fun s ↦ and_congr_right fun hs ↦ ?_
    have hne : s.id ≠ id := by simpa using List.find?_eq_none.1 hf s hs
    exact (and_iff_right hne).symm
  | some u =>
    obtain ⟨hu, rfl⟩ := mem_of_find?_eq_some hf
    simp only [Tracker.mem_remove, h.mem_keys]
    -- the sends other than `u` by number are those other than `u` by key
    constructor
    · rintro ⟨⟨s, hs, rfl⟩, hne⟩
      exact ⟨s, hs, fun hid ↦ hne (by rw [h.eq_of_id_eq hs hu hid]), rfl⟩
    · rintro ⟨s, hs, hne, rfl⟩
      exact ⟨⟨s, hs, rfl⟩, fun hkey ↦ hne (by rw [h.eq_of_key_eq hs hu hkey])⟩

/-- Both ways of ending keep the invariant. -/
theorem ended (h : d.Tracks t) {id : Nat} {d' : Dispatch}
    (hout : d'.outstanding = d.outstanding.filter (·.id ≠ id)) (hnext : d'.nextId = d.nextId) :
    d'.Tracks (d.untracked id t) where
  sorted := sorted_untracked h.sorted id
  id_lt := (h.numbered.ended hout hnext).id_lt
  nodup_ids := (h.numbered.ended hout hnext).nodup_ids
  nodup_keys := by
    rw [hout]
    exact h.nodup_keys.sublist (List.filter_sublist.map _)
  mem_keys := by
    intro k
    rw [h.mem_untracked_iff, hout]
    simp only [List.mem_filter, decide_eq_true_eq, and_assoc]

/-- A completion that ends by itself keeps the invariant. -/
theorem complete (h : d.Tracks t) (id : Nat) (o : Outcome) (i : Instruments) :
    (d.complete id o t i).1.Tracks (d.complete id o t i).2.1 := by
  rw [complete_tracker]
  exact h.ended (complete_outstanding d id o t i) (complete_nextId d id o t i)

end Tracks

end Dispatch

end Tidemark
