import Mathlib.Data.Prod.Lex
import Mathlib.Data.Set.Card
import Tidemark.Proofs.InFlight.Tracker

/-!
# The keys that are live in a tracker

Trackers are spoken to through handles. Which tracker a handle leads to is fixed, and a handle that is cloned
leads where its original does, so the calls of any number of handles come to a tracker one after the other. A key
is `Live` in it if it was added and has not been removed since:

```
add 5   add 3   add 5   remove 5   add 7        live: 3, 7
```

A tracker holds its live keys and nothing else (`mem_after`), and there is one tracker for each set of keys
(`Sorted.ext`). So two histories that leave the same keys live leave the same trackers (`after_congr`). Whatever
is said of repeated, superfluous or exchanged calls is a fact about live keys, and follows from how one call
changes them (`live_concat`).
-/

namespace Tidemark

namespace EventKey

/-- The place of a key in the order: by time, then by number. -/
def rank (k : EventKey) : ℤ ×ₗ ℕ :=
  toLex (k.timestamp.millis, k.sequence)

/-- Keys are ordered by their places. -/
theorem less_iff_rank_lt {a b : EventKey} : a.less b = true ↔ a.rank < b.rank := by
  rw [less_iff, Timestamp.lt_iff, rank, rank, Prod.Lex.toLex_lt_toLex]

/-- One key is not after another if they are the same or it comes before. -/
theorem rank_le_iff {a b : EventKey} : a.rank ≤ b.rank ↔ b = a ∨ a.less b = true := by
  rw [less_iff_rank_lt]
  constructor
  · intro hle
    rcases hle.lt_or_eq with hlt | heq
    · exact Or.inr hlt
    · refine Or.inl (eq_of_not_less ?_ ?_) <;> rw [less_iff_rank_lt, heq] <;> exact lt_irrefl _
  · rintro (rfl | hlt)
    · exact le_rfl
    · exact hlt.le

end EventKey

namespace Tracker

/-- There is one tracker for each set of keys. -/
theorem Sorted.ext {t t' : Tracker} (h : t.Sorted) (h' : t'.Sorted) (hmem : ∀ k, k ∈ t.keys ↔ k ∈ t'.keys) :
    t = t' := by
  have hperm : t.keys.Perm t'.keys := (List.perm_ext_iff_of_nodup h.nodup h'.nodup).2 hmem
  have hkeys : t.keys = t'.keys := by
    refine hperm.eq_of_pairwise (fun a b _ _ hab hba ↦ ?_) h h'
    have hloop := EventKey.less_trans hab hba
    rw [EventKey.less_irrefl] at hloop
    exact absurd hloop Bool.false_ne_true
  exact congrArg mk hkeys

/-- A call of a tracker through one of its handles. -/
inductive Call (ι : Type) where
  | add (handle : ι) (event : Event)
  | remove (handle : ι) (key : EventKey)

/-- The key that a call is about. -/
def Call.key {ι : Type} : Call ι → EventKey
  | add _ e => e.key
  | remove _ k => k

section Handles

variable {ι κ : Type} (leads : ι → κ)

/-- The key was added to the tracker, and has not been removed from it since. -/
def Live (calls : List (Call ι)) (i : κ) (k : EventKey) : Prop :=
  ∃ before h e later, calls = before ++ .add h e :: later ∧ leads h = i ∧ e.key = k ∧
    ∀ h', leads h' = i → .remove h' k ∉ later

variable {leads} {calls calls' : List (Call ι)} {i : κ} {k : EventKey}

/-! ### Live keys -/

theorem not_live_nil : ¬ Live leads [] i k := by
  rintro ⟨before, h, e, later, hcalls, -⟩
  simp at hcalls

/-- A call makes the key live that it adds, and leaves the others live that it does not remove. -/
theorem live_concat {c : Call ι} : Live leads (calls ++ [c]) i k ↔
    (∃ h e, c = .add h e ∧ leads h = i ∧ e.key = k) ∨
      Live leads calls i k ∧ ∀ h, leads h = i → c ≠ .remove h k := by
  constructor
  · rintro ⟨before, h, e, later, hcalls, hleads, hkey, hlater⟩
    rcases List.eq_nil_or_concat' later with rfl | ⟨rest, last, rfl⟩
    · obtain ⟨-, hlast⟩ := List.append_inj' hcalls rfl
      exact Or.inl ⟨h, e, List.singleton_inj.1 hlast, hleads, hkey⟩
    · rw [← List.cons_append, ← List.append_assoc] at hcalls
      obtain ⟨hbefore, hlast⟩ := List.append_inj' hcalls rfl
      obtain rfl := List.singleton_inj.1 hlast
      refine Or.inr ⟨⟨before, h, e, rest, hbefore, hleads, hkey, fun h' hh' hmem ↦ ?_⟩, fun h' hh' hlast ↦ ?_⟩
      · exact hlater h' hh' (List.mem_append_left _ hmem)
      · exact hlater h' hh' (List.mem_append_right _ (List.mem_singleton.2 hlast.symm))
  · rintro (⟨h, e, rfl, hleads, hkey⟩ | ⟨⟨before, h, e, later, rfl, hleads, hkey, hlater⟩, hlast⟩)
    · exact ⟨calls, h, e, [], rfl, hleads, hkey, fun _ _ ↦ List.not_mem_nil⟩
    · refine ⟨before, h, e, later ++ [c], by simp, hleads, hkey, fun h' hh' hmem ↦ ?_⟩
      rcases List.mem_append.1 hmem with hmem | hmem
      · exact hlater h' hh' hmem
      · exact hlast h' hh' (List.mem_singleton.1 hmem).symm

theorem live_add {h : ι} {e : Event} :
    Live leads (calls ++ [.add h e]) i k ↔ (leads h = i ∧ e.key = k) ∨ Live leads calls i k := by
  rw [live_concat]
  simp

theorem live_remove {h : ι} {j : EventKey} :
    Live leads (calls ++ [.remove h j]) i k ↔ Live leads calls i k ∧ ¬ (leads h = i ∧ j = k) := by
  rw [live_concat]
  simp only [reduceCtorEq, false_and, exists_false, false_or, ne_eq, Call.remove.injEq]
  exact and_congr_right fun _ ↦ ⟨fun hne hboth ↦ hne h hboth.1 ⟨rfl, hboth.2⟩,
    fun hnot h' hh' hboth ↦ hnot ⟨hboth.1 ▸ hh', hboth.2⟩⟩

/-- It does not matter whether a key is added before or after another is removed. -/
theorem live_add_remove {h h' : ι} {e : Event} {j : EventKey} (hne : e.key ≠ j) :
    Live leads (calls ++ [.add h e] ++ [.remove h' j]) i k ↔
      Live leads (calls ++ [.remove h' j] ++ [.add h e]) i k := by
  rw [live_remove, live_add, live_add, live_remove, or_and_right]
  refine or_congr_left (and_iff_left_iff_imp.2 ?_)
  rintro ⟨-, rfl⟩ ⟨-, rfl⟩
  exact hne rfl

/-- To remove several keys leaves the others live. -/
theorem live_removes {completed : List (ι × EventKey)} :
    Live leads (calls ++ completed.map fun x ↦ .remove x.1 x.2) i k ↔
      Live leads calls i k ∧ ∀ x ∈ completed, ¬ (leads x.1 = i ∧ x.2 = k) := by
  induction completed using List.reverseRecOn with
  | nil => simp
  | append_singleton completed x ih =>
    rw [List.map_append, ← List.append_assoc, List.map_singleton, live_remove, ih, and_assoc]
    simp [or_imp, forall_and]

/-! ### The trackers are told by their live keys -/

variable [DecidableEq κ]

/-- The trackers after one more call. -/
def call (leads : ι → κ) (trackers : κ → Tracker) : Call ι → κ → Tracker
  | .add h e => Function.update trackers (leads h) ((trackers (leads h)).add e.key)
  | .remove h k => Function.update trackers (leads h) ((trackers (leads h)).remove k)

/-- The trackers after some calls. They are empty at first. -/
def after (leads : ι → κ) (calls : List (Call ι)) : κ → Tracker :=
  calls.foldl (call leads) fun _ ↦ empty

theorem after_concat (calls : List (Call ι)) (c : Call ι) :
    after leads (calls ++ [c]) = call leads (after leads calls) c :=
  List.foldl_concat ..

theorem after_append (h : after leads calls = after leads calls') (later : List (Call ι)) :
    after leads (calls ++ later) = after leads (calls' ++ later) := by
  simp only [after, List.foldl_append] at h ⊢
  rw [h]

/-- Whatever was called, every tracker is in order. -/
theorem sorted_after (leads : ι → κ) (calls : List (Call ι)) (i : κ) : (after leads calls i).Sorted := by
  induction calls using List.reverseRecOn with
  | nil => exact sorted_empty
  | append_singleton calls c ih =>
    rw [after_concat]
    cases c with
    | add h e =>
      rw [call, Function.update_apply]
      split
      · rename_i hi
        exact (hi ▸ ih).add e.key
      · exact ih
    | remove h k =>
      rw [call, Function.update_apply]
      split
      · rename_i hi
        exact (hi ▸ ih).remove k
      · exact ih

/-- A tracker holds its live keys. -/
theorem mem_after : k ∈ (after leads calls i).keys ↔ Live leads calls i k := by
  induction calls using List.reverseRecOn with
  | nil => exact iff_of_false List.not_mem_nil not_live_nil
  | append_singleton calls c ih =>
    rw [after_concat]
    cases c with
    | add h e =>
      rw [live_add, ← ih, call, Function.update_apply]
      by_cases hi : i = leads h
      · simp [hi, eq_comm]
      · simp [hi, Ne.symm hi]
    | remove h j =>
      rw [live_remove, ← ih, call, Function.update_apply]
      by_cases hi : i = leads h
      · simp [hi, eq_comm]
      · simp [hi, Ne.symm hi]

/-- Calls that leave the same keys live leave the same trackers. -/
theorem after_congr (h : ∀ i k, Live leads calls i k ↔ Live leads calls' i k) :
    after leads calls = after leads calls' := by
  funext i
  refine (sorted_after leads calls i).ext (sorted_after leads calls' i) fun k ↦ ?_
  rw [mem_after, mem_after, h]

/-! ### Repeated, superfluous and exchanged calls -/

theorem after_repeat (calls : List (Call ι)) (c : Call ι) :
    after leads (calls ++ [c, c]) = after leads (calls ++ [c]) := by
  rw [List.append_cons]
  refine after_congr fun i k ↦ ?_
  cases c with
  | add h e => rw [live_add, live_add, or_self_left]
  | remove h j => rw [live_remove, live_remove, and_assoc, and_self]

/-- To remove a key that is not live changes nothing. -/
theorem after_remove_absent {h : ι} (habsent : ¬ Live leads calls (leads h) k) :
    after leads (calls ++ [.remove h k]) = after leads calls := by
  refine after_congr fun i j ↦ ?_
  rw [live_remove, and_iff_left_iff_imp]
  rintro hlive ⟨rfl, rfl⟩
  exact habsent hlive

/-- Calls about different keys may change places. -/
theorem after_swap {c c' : Call ι} (hne : c.key ≠ c'.key) (calls : List (Call ι)) :
    after leads (calls ++ [c, c']) = after leads (calls ++ [c', c]) := by
  rw [List.append_cons calls c, List.append_cons calls c']
  refine after_congr fun i k ↦ ?_
  cases c with
  | add h e =>
    cases c' with
    | add h' e' => simp only [live_add, or_left_comm]
    | remove h' j => exact live_add_remove hne
  | remove h j =>
    cases c' with
    | add h' e => exact (live_add_remove hne.symm).symm
    | remove h' j' => simp only [live_remove, and_right_comm]

/-! ### A set of keys in their order -/

/-- The size of a tracker is the number of its live keys. -/
theorem size_after (leads : ι → κ) (calls : List (Call ι)) (i : κ) :
    (after leads calls i).size = {k | Live leads calls i k}.ncard := by
  have hset : {k | Live leads calls i k} = ((after leads calls i).keys.toFinset : Set EventKey) := by
    ext k
    simp [mem_after]
  rw [hset, Set.ncard_coe_finset, List.toFinset_card_of_nodup (sorted_after leads calls i).nodup]
  rfl

/-- A tracker is empty if its size is zero. -/
theorem isEmpty_iff_size {t : Tracker} : t.isEmpty = true ↔ t.size = 0 := by
  rw [isEmpty, List.isEmpty_iff, size, List.length_eq_zero_iff]

/-- What is told of a tracker is told of a set of keys, which is ordered by time and number. -/
structure Holds (t : Tracker) (keys : Set EventKey) : Prop where
  size : t.size = keys.ncard
  isEmpty : t.isEmpty = true ↔ t.size = 0
  oldest : ∀ k, t.oldest? = some k ↔ k ∈ keys ∧ ∀ j ∈ keys, k.rank ≤ j.rank
  none : t.oldest? = none ↔ keys = ∅

/-- After any calls a tracker holds its live keys. -/
theorem holds_after (leads : ι → κ) (calls : List (Call ι)) (i : κ) :
    (after leads calls i).Holds {k | Live leads calls i k} where
  size := size_after leads calls i
  isEmpty := isEmpty_iff_size
  oldest k := by
    simp only [oldest?_eq_some_iff (sorted_after leads calls i), mem_after, EventKey.rank_le_iff,
      Set.mem_ofPred_eq]
  none := by
    simp only [oldest?_eq_none_iff, mem_after, Set.eq_empty_iff_forall_notMem, Set.mem_ofPred_eq]

/-- Through whichever handle one looks at a tracker, it is the set of the keys that were added through any of its
handles and not removed since. A call that is repeated at once changes nothing more, and a key that is not there is
removed in vain. Calls about different keys may change places, so it does not matter in which order the same events
complete. -/
theorem handles_share_live_keys (leads : ι → κ) (calls : List (Call ι)) :
    (∀ h, (after leads calls (leads h)).Holds {k | Live leads calls (leads h) k}) ∧
      (∀ c, after leads (calls ++ [c, c]) = after leads (calls ++ [c])) ∧
      (∀ h k, ¬ Live leads calls (leads h) k → after leads (calls ++ [.remove h k]) = after leads calls) ∧
      (∀ c c' later, c.key ≠ c'.key →
        after leads (calls ++ c :: c' :: later) = after leads (calls ++ c' :: c :: later)) ∧
      ∀ completed completed' : List (ι × EventKey), (∀ x, x ∈ completed ↔ x ∈ completed') →
        after leads (calls ++ completed.map fun x ↦ .remove x.1 x.2) =
          after leads (calls ++ completed'.map fun x ↦ .remove x.1 x.2) := by
  refine ⟨fun h ↦ holds_after leads calls (leads h), after_repeat calls, fun h k ↦ after_remove_absent,
    fun c c' later hne ↦ ?_, fun completed completed' hsame ↦ ?_⟩
  · have hswapped : after leads (calls ++ [c, c'] ++ later) = _ := after_append (after_swap hne calls) later
    simpa only [List.append_assoc, List.cons_append, List.nil_append] using hswapped
  · refine after_congr fun i k ↦ ?_
    rw [live_removes, live_removes]
    exact and_congr_right fun _ ↦ forall_congr' fun x ↦ by rw [hsame x]

end Handles

end Tracker

end Tidemark
