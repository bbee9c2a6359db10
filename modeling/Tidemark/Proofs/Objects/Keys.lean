import Tidemark.Proofs.Text.ByteOrder
import Tidemark.Rehearsal.Collecting

/-!
# The keys of a listing

A store lists objects in pages, each but the last with the token of the next. Read to its end, the listing
gives the keys of all pages (`listKeys_eq`), which are those of the objects in some order (`Lists.keys`).
Sorted they are in the ascending order of their bytes (`ascending_sortKeys`), and only one order of the keys
is (`eq_sortKeys`). So the sorted keys do not depend on what the pages are (`sortKeys_congr`).
-/

namespace Tidemark.Objects

open Text (bytes)

/-! ### Pages -/

/-- An object has a key to be read if it is not empty and the key names no folder. -/
theorem Listed.key?_eq_some_iff {o : Listed} {key : String} :
    o.key? = some key ↔ 0 < o.size.getD 0 ∧ o.key = some key ∧ (key.endsWith "/") = false := by
  rw [Listed.key?]
  split
  · rename_i hsize
    simp only [Option.filter_eq_some_iff, Bool.not_eq_true', hsize, true_and]
  · rename_i hsize
    simp only [hsize, false_and, reduceCtorEq]

/-- Every page but the last gives the token of the next. -/
def Linked : List ObjectPage → Prop
  | [] => False
  | [page] => page.next = none
  | page :: next :: rest => page.next.isSome ∧ Linked (next :: rest)

/-- The pages list the objects, in any order. -/
structure Lists (pages : List ObjectPage) (objects : List Listed) : Prop where
  perm : (pages.flatMap (·.objects)).Perm objects
  linked : Linked pages

/-- The pages give the keys of the objects that they list. -/
theorem Lists.keys {pages : List ObjectPage} {objects : List Listed} (h : Lists pages objects) :
    (pages.flatMap ObjectPage.keys).Perm (objects.filterMap Listed.key?) := by
  have hkeys : pages.flatMap ObjectPage.keys = (pages.flatMap (·.objects)).filterMap Listed.key? :=
    (List.filterMap_flatMap ..).symm
  rw [hkeys]
  exact h.perm.filterMap _

/-! ### The order of the keys -/

/-- The keys are in the ascending order of their bytes. -/
def Ascending (keys : List String) : Prop :=
  keys.Pairwise fun a b => bytes a ≤ bytes b

/-- Texts compare as their bytes do. -/
theorem bytes_le_iff {s t : String} : bytes s ≤ bytes t ↔ s ≤ t := by
  rw [← List.not_lt, ← Text.lt_iff_bytes_lt, String.not_lt]

/-- Keys are neither lost nor found when they are sorted. -/
theorem sortKeys_perm (keys : List String) : (sortKeys keys).Perm keys :=
  List.mergeSort_perm _ _

theorem ascending_sortKeys (keys : List String) : Ascending (sortKeys keys) := by
  have htrans : ∀ a b c : String, (!decide (b < a)) = true → (!decide (c < b)) = true →
      (!decide (c < a)) = true := by
    simp only [Bool.not_eq_true', decide_eq_false_iff_not, String.not_lt]
    exact fun _ _ _ hab hbc ↦ String.le_trans hab hbc
  have htotal : ∀ a b : String, ((!decide (b < a)) || !decide (a < b)) = true := by
    simp only [Bool.or_eq_true, Bool.not_eq_true', decide_eq_false_iff_not, String.not_lt]
    exact fun a b ↦ String.le_total a b
  refine (List.pairwise_mergeSort htrans htotal keys).imp fun {a b} hab ↦ ?_
  rw [Bool.not_eq_true', decide_eq_false_iff_not, String.not_lt] at hab
  exact bytes_le_iff.2 hab

/-- Only one order of the keys is ascending. -/
theorem eq_sortKeys {keys sorted : List String} (hperm : sorted.Perm keys) (h : Ascending sorted) :
    sorted = sortKeys keys :=
  (hperm.trans (sortKeys_perm keys).symm).eq_of_pairwise
    (fun _ _ _ _ hab hba ↦ String.le_antisymm (bytes_le_iff.1 hab) (bytes_le_iff.1 hba))
    h (ascending_sortKeys keys)

theorem sortKeys_congr {keys keys' : List String} (h : keys.Perm keys') : sortKeys keys = sortKeys keys' :=
  eq_sortKeys ((sortKeys_perm keys).trans h) (ascending_sortKeys keys)

end Tidemark.Objects

namespace Tidemark.Rehearsal

open Objects

/-! ### Reading a listing to its end -/

/-- A listing that is read to its end gives the keys of all its pages, and asks for each page but the first
with the token of the one before. -/
theorem listKeys_eq (token : Option String) {pages : List ObjectPage} (hlinked : Linked pages) {n : Nat}
    (hn : pages.length ≤ n) :
    listKeys token (pages.map .ok) n =
      (.ok (pages.flatMap ObjectPage.keys), (token :: pages.dropLast.map (·.next)).map .list) := by
  induction pages generalizing token n with
  | nil => exact hlinked.elim
  | cons page rest ih =>
    obtain ⟨n, rfl⟩ : ∃ k, n = k + 1 := ⟨n - 1, by rw [List.length_cons] at hn; omega⟩
    cases rest with
    | nil =>
      have hnext : page.next = none := hlinked
      simp [listKeys, nextReply, hnext]
    | cons second rest =>
      obtain ⟨next, hnext⟩ := Option.isSome_iff_exists.1 hlinked.1
      have hrest := ih (some next) hlinked.2 (n := n) (Nat.le_of_succ_le_succ hn)
      rw [List.map_cons] at hrest
      simp only [listKeys, nextReply, List.map_cons, hnext, hrest]
      simp [hnext, Except.map]

end Tidemark.Rehearsal
