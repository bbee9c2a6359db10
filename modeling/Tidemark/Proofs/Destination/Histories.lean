import Tidemark.Proofs.Destination.Calls
import Tidemark.Proofs.Destination.Topology

/-!
# Histories of a stream in memory

A stream is reached when it was created and then configured, resharded, written to, listed and released
from in any order (`Reached`). Only configuring and resharding touch the topology and the page size, and
both put a sound one in its place:

```
create, reshard ─> a topology of so many partitions        withPageSize ─> a page size, one at least
```

Entries are numbered by a count of their own, which only a write moves on, together with the log. So a stream that
was reached is laid out in one of the topologies, lists in pages that are not empty, and has numbered its entries
from one on (`Reached.sound`).
-/

namespace Tidemark.InMemory

/-- No list in memory is this long. -/
def listBound : Nat := 2 ^ 63

/-- What can have been done to a stream. -/
inductive Reached : InMemory → Prop
  | create {count : Nat} (hcount : count < listBound) : Reached (create count)
  | withPageSize {m : InMemory} (hm : Reached m) {size : Nat} (hsize : size < positionBound) :
      Reached (m.withPageSize size)
  | withAckPolicy {m : InMemory} (hm : Reached m) (policy : AckPolicy) :
      Reached (m.withAckPolicy policy)
  | inject {m : InMemory} (hm : Reached m) (kind : Injection) (count : Nat) :
      Reached (m.inject kind count)
  | reshard {m : InMemory} (hm : Reached m) {count : Nat} (hcount : count < listBound) :
      Reached (m.reshard count)
  | submit {m : InMemory} (hm : Reached m) (handle : Nat) (record : Record) :
      Reached (m.submit handle record).2
  | put {m : InMemory} (hm : Reached m) (record : Record) : Reached (m.put record).2
  | list {m : InMemory} (hm : Reached m) (token : Option String) : Reached (m.list token).2
  | release {m : InMemory} (hm : Reached m) (index : Nat) (success : Bool) :
      Reached (m.release index success).2
  | releaseAll {m : InMemory} (hm : Reached m) : Reached m.releaseAll.2

/-! ### What a call leaves alone -/

/-- Partitions and page size are the same, and the number of the last entry goes with the length of the log. -/
structure Keeps (m m' : InMemory) : Prop where
  partitions : m'.partitions = m.partitions
  pageSize : m'.pageSize = m.pageSize
  numbered : m.sequence = m.log.size → m'.sequence = m'.log.size

section Keeps

variable {m m' : InMemory}

/-- A call that leaves the log alone keeps the layout and the count. -/
theorem Still.keeps (h : m.Still m') : m.Keeps m' :=
  ⟨h.partitions, h.pageSize, fun hnumbered ↦ by rw [h.sequence, h.log, hnumbered]⟩

theorem Writes.keeps {record : Record} {e : LogEntry} (h : m.Writes m' record e) : m.Keeps m' where
  partitions := h.partitions
  pageSize := h.pageSize
  numbered := fun hnumbered ↦ by rw [h.sequence, h.becomes.numbered, h.log, Array.size_push, hnumbered]

theorem keeps_put (m : InMemory) (record : Record) : m.Keeps (m.put record).2 := by
  rcases m.still_or_writes_put record with hstill | ⟨e, hwrites⟩
  · exact hstill.keeps
  · exact hwrites.keeps

/-- A submission keeps the layout and the count. -/
theorem keeps_submit (m : InMemory) (handle : Nat) (record : Record) : m.Keeps (m.submit handle record).2 := by
  rcases m.still_or_writes_submit handle record with hstill | ⟨e, hwrites⟩
  · exact hstill.keeps
  · exact hwrites.keeps

theorem keeps_release (m : InMemory) (index : Nat) (success : Bool) :
    m.Keeps (m.release index success).2 := by
  rcases m.release_cases index success with ⟨-, h⟩ | ⟨x, -, h⟩ <;> rw [h] <;> exact ⟨rfl, rfl, id⟩

end Keeps

/-! ### What every stream keeps -/

/-- The partitions are a topology, the page size is a word that is not zero, and the last entry has the number that
it has in the log. -/
structure Sound (m : InMemory) : Prop where
  laidOut : ∃ count first, count < listBound ∧ m.partitions = Partition.topology count first
  pageSize_pos : 0 < m.pageSize
  pageSize_lt : m.pageSize < positionBound
  numbered : m.sequence = m.log.size

/-- What keeps the layout and the count keeps a stream sound. -/
theorem Keeps.sound {m m' : InMemory} (h : m.Keeps m') (hm : m.Sound) : m'.Sound :=
  ⟨h.partitions ▸ hm.laidOut, h.pageSize ▸ hm.pageSize_pos, h.pageSize ▸ hm.pageSize_lt, h.numbered hm.numbered⟩

/-- Whatever was done to a stream, it is sound. -/
theorem Reached.sound {m : InMemory} (h : m.Reached) : m.Sound := by
  induction h with
  | create hcount =>
    have hlt : 100 < positionBound := by decide
    exact ⟨⟨_, _, hcount, rfl⟩, Nat.zero_lt_succ 99, hlt, rfl⟩
  | withPageSize _ hsize ih =>
    refine ⟨ih.laidOut, ?_, ?_, ih.numbered⟩
    · exact Nat.lt_of_lt_of_le Nat.one_pos (Nat.le_max_right _ _)
    · exact Nat.max_lt.mpr ⟨hsize, by decide⟩
  | reshard _ hcount ih => exact ⟨⟨_, _, hcount, rfl⟩, ih.pageSize_pos, ih.pageSize_lt, ih.numbered⟩
  | withAckPolicy _ _ ih | inject _ _ _ ih | releaseAll _ ih =>
    exact ⟨ih.laidOut, ih.pageSize_pos, ih.pageSize_lt, ih.numbered⟩
  | submit _ handle record ih => exact (keeps_submit _ handle record).sound ih
  | put _ record ih => exact (keeps_put _ record).sound ih
  | list _ token ih => exact (still_list _ token).keeps.sound ih
  | release _ index success ih => exact (keeps_release _ index success).sound ih

namespace Sound

variable {m : InMemory} (hm : m.Sound)
include hm

theorem length_pos : 0 < m.partitions.length := by
  obtain ⟨count, first, -, hpartitions⟩ := hm.laidOut
  rw [hpartitions]
  exact Partition.length_topology_pos

/-- A stream has no more partitions than a list may have. -/
theorem length_le : m.partitions.length ≤ listBound := by
  obtain ⟨count, first, hcount, hpartitions⟩ := hm.laidOut
  rw [hpartitions, Partition.length_topology]
  unfold listBound at *
  omega

/-- A record for the lower bound of a partition is for that partition. -/
theorem find?_lower {i : Nat} (hi : i < m.partitions.length) :
    m.partitions.find? (·.holds m.partitions[i].lower) = some m.partitions[i] := by
  obtain ⟨count, first, hcount, hpartitions⟩ := hm.laidOut
  have hlt : count < hashCount := by
    unfold listBound at hcount
    unfold hashCount
    omega
  simp only [hpartitions] at hi ⊢
  exact Partition.find?_lower hlt hi

/-- The lower bound of a partition is a hash. -/
theorem lower_lt_hashCount {p : Partition} (hp : p ∈ m.partitions) : p.lower < hashCount := by
  obtain ⟨count, first, -, hpartitions⟩ := hm.laidOut
  rw [hpartitions] at hp
  obtain ⟨i, hi, rfl⟩ := List.getElem_of_mem hp
  exact Partition.lower_lt_hashCount hi

end Sound

end Tidemark.InMemory
