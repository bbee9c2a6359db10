import Mathlib.Data.List.Induction
import Tidemark.Proofs.Destination.Refusals

/-!
# Partitions tile the hashes

The partitions of a topology begin at zero and end with the last hash, and each begins where the one before it
ends (`tiles_topology`):

```
0 ..................... width ................. 2 * width ............. 2 ^ 128 - 1
|_______ first ________|_______ second ________|_______ last _____________________|
```

Whatever is tiled in this way holds every hash exactly once, `Tiles.countP_holds`. The bounds are products close
to `2 ^ 128`; computed with every operation on hashes checked for what does not fit, they are the same
(`checkedTopology?_eq`). A stream keeps to a topology through any resharding, so it writes every record that has
a hash, into the one partition that holds it (`every_hash_has_its_partition`).
-/

namespace Tidemark

namespace Partition

/-! ### Tilings -/

/-- The partitions lie one after the other, from a hash up to another one that is not among them. -/
def Tiles : Nat → List Partition → Nat → Prop
  | lo, [], hi => lo = hi
  | lo, p :: rest, hi => p.lower = lo ∧ p.lower ≤ p.upper ∧ Tiles (p.upper + 1) rest hi

namespace Tiles

variable {lo hi : Nat} {p : Partition} {ps : List Partition}

theorem le (h : Tiles lo ps hi) : lo ≤ hi := by
  induction ps generalizing lo with
  | nil => exact Nat.le_of_eq h
  | cons p rest ih =>
    obtain ⟨rfl, hle, hrest⟩ := h
    exact Nat.le_trans (Nat.le_succ_of_le hle) (ih hrest)

theorem concat (h : Tiles lo ps p.lower) (hle : p.lower ≤ p.upper) : Tiles lo (ps ++ [p]) (p.upper + 1) := by
  induction ps generalizing lo with
  | nil => exact ⟨h.symm, hle, rfl⟩
  | cons q rest ih =>
    obtain ⟨hlower, hq, hrest⟩ := h
    exact ⟨hlower, hq, ih hrest⟩

/-- Every hash is held once. -/
theorem countP_holds (h : Tiles lo ps hi) (hash : Nat) :
    ps.countP (·.holds hash) = if lo ≤ hash ∧ hash < hi then 1 else 0 := by
  induction ps generalizing lo with
  | nil =>
    obtain rfl : lo = hi := h
    rw [List.countP_nil, if_neg (by omega)]
  | cons p rest ih =>
    obtain ⟨rfl, hle, hrest⟩ := h
    have hend := hrest.le
    rw [List.countP_cons, ih hrest]
    simp only [holds, Bool.and_eq_true, decide_eq_true_eq]
    split <;> split <;> split <;> omega

end Tiles

variable {count first : Nat}

/-- All partitions of a topology but the last. -/
theorem tiles_init {n k : Nat} (hk : k < n) (hwidth : 0 < width n) :
    Tiles 0 ((List.range k).map fun i ↦
      { number := first + i
        lower := width n * i
        upper := if i + 1 = n then hashCount - 1 else width n * (i + 1) - 1 }) (width n * k) := by
  induction k with
  | zero => rfl
  | succ k ih =>
    have hupper : width n * (k + 1) - 1 + 1 = width n * (k + 1) := Nat.sub_add_cancel (Nat.mul_pos hwidth k.succ_pos)
    rw [List.range_succ, List.map_append, List.map_singleton, if_neg (Nat.ne_of_lt hk), ← hupper]
    refine Tiles.concat (ih (Nat.lt_of_succ_lt hk)) ?_
    show width n * k ≤ width n * (k + 1) - 1
    rw [Nat.mul_succ]
    omega

/-- A topology tiles the hashes. -/
theorem tiles_topology (hcount : count < hashCount) : Tiles 0 (topology count first) hashCount := by
  have hwidth := width_topology_pos hcount
  rw [topology]
  generalize hn : max count 1 = n at hwidth
  obtain ⟨k, rfl⟩ : ∃ k, n = k + 1 := ⟨n - 1, by omega⟩
  have htotal : hashCount - 1 + 1 = hashCount := Nat.sub_add_cancel (by decide)
  rw [List.range_succ, List.map_append, List.map_singleton, if_pos rfl, ← htotal]
  refine Tiles.concat (tiles_init (Nat.lt_succ_self k) hwidth) ?_
  exact Nat.le_trans (Nat.mul_le_mul_left _ k.le_succ) (width_mul_le _)

/-! ### Checked arithmetic -/

/-- A number that is a hash. -/
def hash? (n : Nat) : Option Nat :=
  if n < hashCount then some n else none

/-- A difference that is not negative. -/
def difference? (m n : Nat) : Option Nat :=
  if n ≤ m then some (m - n) else none

/-- A topology whose bounds are computed within the hashes: none where a product or a sum would be no hash any
more, or a difference negative. -/
def checkedTopology? (count first : Nat) : Option (List Partition) :=
  let count := max count 1
  (List.range count).mapM fun i => do
    let lower ← hash? (width count * i)
    if i + 1 = count then some ⟨first + i, lower, hashCount - 1⟩
    else
      let next ← hash? (i + 1)
      let stop ← hash? (width count * next)
      let upper ← difference? stop 1
      some ⟨first + i, lower, upper⟩

/-- What succeeds on each of some values succeeds on all of them. -/
theorem mapM_eq_some {α β : Type} {f : α → Option β} {g : α → β} {l : List α}
    (h : ∀ a ∈ l, f a = some (g a)) : l.mapM f = some (l.map g) := by
  induction l with
  | nil => rfl
  | cons a rest ih =>
    obtain ⟨ha, hrest⟩ := List.forall_mem_cons.1 h
    rw [List.mapM_cons, ha, ih hrest]
    rfl

/-- No bound leaves the hashes on the way. -/
theorem checkedTopology?_eq (hcount : count < hashCount) (first : Nat) :
    checkedTopology? count first = some (topology count first) := by
  have hwidth := width_topology_pos hcount
  have htotal := width_mul_le (max count 1)
  have hmax : max count 1 < hashCount := Nat.max_lt.2 ⟨hcount, by decide⟩
  rw [checkedTopology?, topology]
  generalize max count 1 = n at hwidth htotal hmax
  have hfits {i : Nat} (hi : i ≤ n) : hash? (width n * i) = some (width n * i) := by
    have hle : width n * i ≤ width n * n := Nat.mul_le_mul_left _ hi
    exact if_pos (by omega)
  refine mapM_eq_some fun i hi ↦ ?_
  have hi : i < n := List.mem_range.1 hi
  rw [hfits (Nat.le_of_lt hi), Option.bind_eq_bind, Option.bind_some]
  by_cases hlast : i + 1 = n
  · rw [if_pos hlast, if_pos hlast]
  · have hnext : hash? (i + 1) = some (i + 1) := if_pos (by omega)
    have hstop : difference? (width n * (i + 1)) 1 = some (width n * (i + 1) - 1) :=
      if_pos (Nat.mul_pos hwidth i.succ_pos)
    simp only [if_neg hlast, hnext, hfits (i := i + 1) hi, hstop, Option.bind_some]

/-! ### Names -/

theorem ofDigitChars_replicate_zero (k : Nat) (cs : List Char) :
    Nat.ofDigitChars 10 (List.replicate k '0' ++ cs) 0 = Nat.ofDigitChars 10 cs 0 := by
  induction k with
  | zero => rfl
  | succ k ih =>
    rw [List.replicate_succ, List.cons_append, Nat.ofDigitChars_cons]
    exact ih

/-- Leading zeros do not make numbers alike. -/
theorem eq_of_padded_eq {width m n : Nat} (h : Written.padded width m = Written.padded width n) : m = n := by
  have hvalue (n : Nat) : Nat.ofDigitChars 10 (Written.padded width n).toList 0 = n := by
    have hchars : (toString n).toList = Nat.toDigits 10 n := Nat.toList_repr
    rw [Written.padded, String.toList_ofList, ofDigitChars_replicate_zero, hchars, Nat.ofDigitChars_ten_toDigits]
  rw [← hvalue m, h, hvalue]

/-- Partitions of one name have one number. -/
theorem number_eq_of_name_eq {p q : Partition} (h : p.name = q.name) : p.number = q.number := by
  rw [name, name, ← String.toList_inj, String.toList_append, String.toList_append] at h
  exact eq_of_padded_eq (String.toList_inj.1 (List.append_cancel_left h))

/-- A partition of a topology is known by its name. -/
theorem eq_of_name_eq {p q : Partition} (hp : p ∈ topology count first) (hq : q ∈ topology count first)
    (h : p.name = q.name) : p = q := by
  have hnumber := number_eq_of_name_eq h
  simp only [topology, List.mem_map, List.mem_range] at hp hq
  obtain ⟨i, -, rfl⟩ := hp
  obtain ⟨j, -, rfl⟩ := hq
  obtain rfl : i = j := Nat.add_left_cancel hnumber
  rfl

end Partition

namespace InMemory

/-! ### Streams -/

variable {m : InMemory}

/-- A stream is laid out in a topology when it is created, and whenever it is resharded. -/
theorem isTopology_reshards {count : Nat} {counts : List Nat} (h : ∀ n ∈ count :: counts, n < positionBound) :
    IsTopology (counts.foldl reshard (create count)).partitions := by
  induction counts using List.reverseRecOn with
  | nil => exact ⟨count, 0, h count List.mem_cons_self, rfl⟩
  | append_singleton earlier n _ =>
    rw [List.foldl_append]
    exact ⟨n, _, h n (by simp), rfl⟩

/-- A record that has a hash is written. -/
theorem IsTopology.write_of_hash (hlaid : IsTopology m.partitions) {record : Record} {hash : Nat}
    (hhash : InMemory.hash record.routing = .ok hash) :
    ∃ p ∈ m.partitions, p.holds hash = true ∧
      m.write record = (.ok ⟨p.name, some (toString (m.sequence + 1))⟩,
        { m with log := m.log.push ⟨p.name, m.sequence + 1, record⟩, sequence := m.sequence + 1 }) := by
  obtain ⟨p, hfind⟩ := hlaid.find?_of_lt (hash_lt hhash)
  have hholds : p.holds hash = true := by simpa using List.find?_some hfind
  refine ⟨p, List.mem_of_find?_eq_some hfind, hholds, ?_⟩
  simp only [write, hhash, hfind]

/-- The record is routed by its key, or by a text that is a hash. -/
def IsRouted (record : Record) : Prop :=
  (∃ key, record.routing = .byKey key) ∨
    ∃ key text hash, record.routing = .byHash key text ∧ Text.readNumeral hashCount text = .ok hash

theorem IsRouted.hash {record : Record} (h : IsRouted record) :
    ∃ hash, InMemory.hash record.routing = .ok hash := by
  rcases h with ⟨key, hrouting⟩ | ⟨key, text, hash, hrouting, hread⟩
  · exact ⟨_, by rw [hrouting, InMemory.hash]⟩
  · exact ⟨hash, by rw [hrouting, InMemory.hash, hread]⟩

/-- The bounds of a topology of any number of partitions are computed within the hashes. However often a stream
was resharded, its partitions tile the hashes; each hash is held by one of them, each record with a hash is
written, and a record with the lower bound of a partition is written into that one. -/
theorem every_hash_has_its_partition {count : Nat} {counts : List Nat}
    (hcounts : ∀ n ∈ count :: counts, n < positionBound) :
    (∀ n ∈ count :: counts, ∀ first,
      Partition.checkedTopology? n first = some (Partition.topology n first) ∧
        (Partition.topology n first).length = max n 1 ∧
        Partition.Tiles 0 (Partition.topology n first) hashCount) ∧
    ∀ m : InMemory, m.partitions = (counts.foldl reshard (create count)).partitions →
      Partition.Tiles 0 m.partitions hashCount ∧
      (∀ hash < hashCount, m.partitions.countP (·.holds hash) = 1) ∧
      (∀ record, IsRouted record → ∃ p ∈ m.partitions,
        m.write record = (.ok ⟨p.name, some (toString (m.sequence + 1))⟩,
          { m with log := m.log.push ⟨p.name, m.sequence + 1, record⟩, sequence := m.sequence + 1 })) ∧
      ∀ p ∈ m.partitions, (∀ q ∈ m.partitions, q.name = p.name → q = p) ∧ ∀ key payload,
        let record : Record := ⟨payload, .byHash key p.descriptor.lower⟩
        m.write record = (.ok ⟨p.name, some (toString (m.sequence + 1))⟩,
          { m with log := m.log.push ⟨p.name, m.sequence + 1, record⟩, sequence := m.sequence + 1 }) := by
  have hbound {n : Nat} (hn : n < positionBound) : n < hashCount := Nat.lt_trans hn (by decide)
  refine ⟨fun n hn first ↦ ?_, fun m hm ↦ ?_⟩
  · have hn := hbound (hcounts n hn)
    exact ⟨Partition.checkedTopology?_eq hn first, Partition.length_topology, Partition.tiles_topology hn⟩
  · have hlaid : IsTopology m.partitions := hm ▸ isTopology_reshards hcounts
    obtain ⟨n, first, hn, hpartitions⟩ := id hlaid
    have htiles : Partition.Tiles 0 m.partitions hashCount := hpartitions ▸ Partition.tiles_topology (hbound hn)
    refine ⟨htiles, fun hash hhash ↦ ?_, fun record hrecord ↦ ?_, fun p hp ↦ ⟨fun q hq hname ↦ ?_, ?_⟩⟩
    · rw [htiles.countP_holds, if_pos ⟨Nat.zero_le _, hhash⟩]
    · obtain ⟨hash, hhash⟩ := hrecord.hash
      obtain ⟨p, hp, -, hwrite⟩ := hlaid.write_of_hash hhash
      exact ⟨p, hp, hwrite⟩
    · rw [hpartitions] at hp hq
      exact Partition.eq_of_name_eq hq hp hname
    · intro key payload record
      obtain ⟨i, hi, rfl⟩ := List.getElem_of_mem hp
      have hlower : m.partitions[i].lower < hashCount := by
        simp only [hpartitions] at hi ⊢
        exact Partition.lower_lt_hashCount hi
      have hhash : InMemory.hash record.routing = .ok m.partitions[i].lower := by
        show InMemory.hash (.byHash key (toString m.partitions[i].lower)) = _
        rw [InMemory.hash, Text.readNumeral_toString hlower]
      obtain ⟨q, hq, hholds, hwrite⟩ := hlaid.write_of_hash hhash
      have hself : m.partitions[i].holds m.partitions[i].lower = true := by
        have hle : m.partitions[i].lower ≤ m.partitions[i].upper := by
          simp only [hpartitions] at hi ⊢
          exact Partition.lower_le_upper (hbound hn) hi
        simpa [Partition.holds] using hle
      rw [hlaid.eq_of_holds hq hp hholds hself] at hwrite
      exact hwrite

/-- Two partitions, and then three in their place. -/
theorem every_hash_has_its_partition_resharded :
    (∀ n ∈ [2, 3], n < positionBound) ∧
      Partition.checkedTopology? 3 2 = some (Partition.topology 3 2) ∧
      let m := (create 2).reshard 3
      Partition.Tiles 0 m.partitions hashCount ∧
        m.partitions.map Partition.upper =
          [113427455640312821154458202477256070484, 226854911280625642308916404954512140969,
            340282366920938463463374607431768211455] ∧
        m.partitions.countP (·.holds 226854911280625642308916404954512140970) = 1 := by
  have hcounts : ∀ n ∈ [2, 3], n < positionBound := by decide
  obtain ⟨hbounds, hstream⟩ := every_hash_has_its_partition hcounts
  obtain ⟨htiles, hheld, -⟩ := hstream ((create 2).reshard 3) rfl
  exact ⟨hcounts, (hbounds 3 (by decide) 2).1, htiles, by decide +kernel, hheld _ (by decide)⟩

end InMemory

end Tidemark
