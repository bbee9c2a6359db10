import Tidemark.Tracker

/-!
# The tracker as an ordered set of keys

A tracker keeps its keys in strictly ascending order, so its list is a set and its head is the least of
them. `Tracker.Sorted` is that order; adding and removing keep it, and against it the two operations are
the insertion into a set and the removal from it:

```
k ∈ (t.add j).keys    ↔ k = j ∨ k ∈ t.keys
k ∈ (t.remove j).keys ↔ k ∈ t.keys ∧ k ≠ j
```

The oldest key is characterized from both sides, by `oldest?_eq_some_iff` and `oldest?_eq_none_iff`.
-/

namespace Tidemark

namespace EventKey

/-! ### The order of the keys -/

/-- Keys are ordered by time, and by number if their times are the same. -/
theorem less_iff {a b : EventKey} :
    a.less b = true ↔ a.timestamp < b.timestamp ∨
      (a.timestamp.millis = b.timestamp.millis ∧ a.sequence < b.sequence) := by
  simp [less, Timestamp.lt_iff]

theorem less_irrefl (a : EventKey) : a.less a = false := by
  simp [less]

/-- What comes before a key that comes before a third comes before the third. -/
theorem less_trans {a b c : EventKey} (hab : a.less b = true) (hbc : b.less c = true) :
    a.less c = true := by
  rw [less_iff, Timestamp.lt_iff] at hab hbc ⊢
  omega

/-- Two keys that neither precede the other are one key. -/
theorem eq_of_not_less {a b : EventKey} (hab : ¬ a.less b = true) (hba : ¬ b.less a = true) :
    a = b := by
  rw [less_iff, Timestamp.lt_iff] at hab hba
  have ht : a.timestamp = b.timestamp := Timestamp.eq_of_millis (by omega)
  have hs : a.sequence = b.sequence := by
    have := congrArg Timestamp.millis ht
    omega
  cases a
  cases b
  simp only [mk.injEq]
  exact ⟨ht, hs⟩

/-- An earlier key has no later time. -/
theorem timestamp_le_of_less {a b : EventKey} (h : a.less b = true) : a.timestamp ≤ b.timestamp := by
  rw [less_iff, Timestamp.lt_iff] at h
  rw [Timestamp.le_iff]
  omega

end EventKey

namespace Tracker

/-! ### Membership -/

/-- An insertion adds one key and loses none. -/
theorem mem_insertKey {k j : EventKey} {keys : List EventKey} :
    k ∈ insertKey j keys ↔ k = j ∨ k ∈ keys := by
  induction keys with
  | nil => simp [insertKey]
  | cons i rest ih =>
    rw [insertKey]
    split
    · exact List.mem_cons
    · rename_i hji
      split
      · rw [List.mem_cons, ih, List.mem_cons]
        exact or_left_comm
      · -- neither key precedes the other, so the key is there already
        rename_i hij
        rw [EventKey.eq_of_not_less hji hij, List.mem_cons]
        exact or_self_left.symm

@[simp] theorem mem_add {t : Tracker} {k j : EventKey} :
    k ∈ (t.add j).keys ↔ k = j ∨ k ∈ t.keys :=
  mem_insertKey

@[simp] theorem mem_remove {t : Tracker} {k j : EventKey} :
    k ∈ (t.remove j).keys ↔ k ∈ t.keys ∧ k ≠ j := by
  simp [remove]

/-! ### Order -/

/-- The keys of a tracker ascend. -/
def Sorted (t : Tracker) : Prop :=
  t.keys.Pairwise fun a b ↦ a.less b = true

theorem sorted_empty : Sorted {} :=
  List.Pairwise.nil

theorem pairwise_insertKey {j : EventKey} {keys : List EventKey}
    (h : keys.Pairwise fun a b ↦ a.less b = true) :
    (insertKey j keys).Pairwise fun a b ↦ a.less b = true := by
  induction keys with
  | nil => exact List.pairwise_singleton _ _
  | cons i rest ih =>
    obtain ⟨hi, hrest⟩ := List.pairwise_cons.1 h
    rw [insertKey]
    split
    · rename_i hji
      refine List.pairwise_cons.2 ⟨?_, h⟩
      intro k hk
      rcases List.mem_cons.1 hk with rfl | hk
      · exact hji
      · exact EventKey.less_trans hji (hi k hk)
    · split
      · rename_i hij
        refine List.pairwise_cons.2 ⟨?_, ih hrest⟩
        intro k hk
        rcases mem_insertKey.1 hk with rfl | hk
        · exact hij
        · exact hi k hk
      · -- neither key is less: the keys are one, and it is not added twice
        exact h

theorem Sorted.add {t : Tracker} (h : t.Sorted) (k : EventKey) : (t.add k).Sorted :=
  pairwise_insertKey h

theorem Sorted.remove {t : Tracker} (h : t.Sorted) (k : EventKey) : (t.remove k).Sorted :=
  List.Pairwise.filter _ h

/-- A tracker in order holds no key twice. -/
theorem Sorted.nodup {t : Tracker} (h : t.Sorted) : t.keys.Nodup := by
  refine List.Pairwise.imp ?_ h
  rintro a b hab rfl
  rw [EventKey.less_irrefl] at hab
  exact absurd hab (by decide)

/-! ### The oldest key -/

/-- There is no oldest key if and only if there is none. -/
theorem oldest?_eq_none_iff {t : Tracker} : t.oldest? = none ↔ ∀ k, k ∉ t.keys := by
  rw [oldest?, List.head?_eq_none_iff, List.eq_nil_iff_forall_not_mem]

theorem mem_of_oldest? {t : Tracker} {k : EventKey} (h : t.oldest? = some k) : k ∈ t.keys :=
  List.mem_of_mem_head? h

/-- The oldest key is the one that all others come after. -/
theorem oldest?_eq_some_iff {t : Tracker} (h : t.Sorted) {k : EventKey} :
    t.oldest? = some k ↔ k ∈ t.keys ∧ ∀ j ∈ t.keys, j = k ∨ k.less j = true := by
  obtain ⟨keys⟩ := t
  cases keys with
  | nil => simp [oldest?]
  | cons i rest =>
    have hi := (List.pairwise_cons.1 h).1
    simp only [oldest?, List.head?_cons, Option.some.injEq]
    constructor
    · rintro rfl
      refine ⟨List.mem_cons_self, fun j hj ↦ ?_⟩
      exact (List.mem_cons.1 hj).imp_right (hi j)
    · rintro ⟨hk, hle⟩
      rcases List.mem_cons.1 hk with rfl | hk
      · rfl
      · -- the head would come both before and after a later key
        rcases hle i List.mem_cons_self with hik | hki
        · exact hik
        · have hloop := EventKey.less_trans (hi k hk) hki
          rw [EventKey.less_irrefl] at hloop
          exact absurd hloop (by decide)

/-- No key is older than the oldest. -/
theorem Sorted.timestamp_le {t : Tracker} (h : t.Sorted) {k j : EventKey}
    (hk : t.oldest? = some k) (hj : j ∈ t.keys) : k.timestamp ≤ j.timestamp := by
  rcases ((oldest?_eq_some_iff h).1 hk).2 j hj with rfl | hkj
  · exact Int.le_refl _
  · exact EventKey.timestamp_le_of_less hkj

end Tracker

end Tidemark
