import Tidemark.Destination.Partition

/-!
# Topologies

The partitions of a topology lie one after the other (`upper_lt_lower`), none of them empty
(`lower_le_upper`), as long as there are not more partitions than hashes. So the first partition found to
hold a hash is the only one, `find?_holds`, and a partition is found by its own lower bound,
`find?_lower`. Together they hold all hashes (`exists_holds`).
-/

namespace Tidemark.Partition

variable {count first : Nat}

/-- A topology has as many partitions as it is asked for, and at least one. -/
theorem length_topology : (topology count first).length = max count 1 := by
  rw [topology, List.length_map, List.length_range]

theorem length_topology_pos : 0 < (topology count first).length := by
  rw [length_topology]
  omega

/-- The partition at a position of a topology. -/
theorem getElem_topology {i : Nat} (hi : i < (topology count first).length) :
    (topology count first)[i] =
      { number := first + i
        lower := width (max count 1) * i
        upper := if i + 1 = max count 1 then hashCount - 1
          else width (max count 1) * (i + 1) - 1 } := by
  simp only [topology, List.getElem_map, List.getElem_range]

/-- All the widths together stay below the number of hashes. -/
theorem width_mul_le (n : Nat) : width n * n ≤ hashCount - 1 :=
  Nat.div_mul_le_self _ _

/-- Partitions are not empty while there are fewer of them than hashes. -/
theorem width_pos {n : Nat} (hn : 0 < n) (hcount : n < hashCount) : 0 < width n :=
  Nat.div_pos (by omega) hn

/-- With fewer partitions than hashes none is left without any. -/
theorem width_topology_pos (hcount : count < hashCount) : 0 < width (max count 1) := by
  apply width_pos
  · omega
  · unfold hashCount at *
    omega

variable {i j : Nat}

theorem lower_le_upper (hcount : count < hashCount) (hi : i < (topology count first).length) :
    (topology count first)[i].lower ≤ (topology count first)[i].upper := by
  have hn : i < max count 1 := by rwa [length_topology] at hi
  have hwidth := width_topology_pos hcount
  rw [getElem_topology hi]
  show width (max count 1) * i ≤ if i + 1 = max count 1 then _ else _
  split
  · exact Nat.le_trans (Nat.mul_le_mul_left _ (Nat.le_of_lt hn)) (width_mul_le _)
  · rw [Nat.mul_succ]
    omega

/-- A partition ends before every later one begins. -/
theorem upper_lt_lower (hcount : count < hashCount) (hj : j < (topology count first).length)
    (hij : i < j) :
    (topology count first)[i].upper < (topology count first)[j].lower := by
  have hn : j < max count 1 := by rwa [length_topology] at hj
  have hwidth := width_topology_pos hcount
  rw [getElem_topology (Nat.lt_trans hij hj), getElem_topology hj]
  show (if i + 1 = max count 1 then _ else _) < width (max count 1) * j
  rw [if_neg (by omega)]
  have hnext : width (max count 1) * (i + 1) ≤ width (max count 1) * j := Nat.mul_le_mul_left _ hij
  rw [Nat.mul_succ] at *
  omega

/-- A lower bound is a hash. -/
theorem lower_lt_hashCount (hi : i < (topology count first).length) :
    (topology count first)[i].lower < hashCount := by
  have hn : i < max count 1 := by rwa [length_topology] at hi
  rw [getElem_topology hi]
  show width (max count 1) * i < hashCount
  have hle : width (max count 1) * i ≤ width (max count 1) * max count 1 :=
    Nat.mul_le_mul_left _ (Nat.le_of_lt hn)
  have htotal := width_mul_le (max count 1)
  unfold hashCount at *
  omega

/-- The partition that holds a hash is the one that is found for it. -/
theorem find?_holds (hcount : count < hashCount) (hi : i < (topology count first).length) {hash : Nat}
    (hhash : (topology count first)[i].holds hash = true) :
    (topology count first).find? (·.holds hash) = some (topology count first)[i] := by
  rw [List.find?_eq_some_iff_getElem]
  refine ⟨hhash, i, hi, rfl, fun j hji ↦ ?_⟩
  -- an earlier partition ends before this one begins
  have hlt := upper_lt_lower hcount hi hji
  simp only [holds, Bool.and_eq_true, decide_eq_true_eq] at hhash
  simp only [holds, Bool.not_eq_true', Bool.and_eq_false_iff, decide_eq_false_iff_not]
  omega

/-- A partition is found by its lower bound. -/
theorem find?_lower (hcount : count < hashCount) (hi : i < (topology count first).length) :
    (topology count first).find? (·.holds (topology count first)[i].lower) =
      some (topology count first)[i] := by
  apply find?_holds hcount hi
  have hle := lower_le_upper hcount hi
  simpa [holds] using hle

/-- No hash is left out. -/
theorem exists_holds (hcount : count < hashCount) {hash : Nat} (hhash : hash < hashCount) :
    ∃ p ∈ topology count first, p.holds hash = true := by
  have hwidth := width_topology_pos hcount
  have hlen : (topology count first).length = max count 1 := length_topology
  have hcontains {i : Nat} (hi : i < (topology count first).length)
      (hlower : width (max count 1) * i ≤ hash)
      (hupper : i + 1 = max count 1 ∨ hash < width (max count 1) * (i + 1)) :
      ∃ p ∈ topology count first, p.holds hash = true := by
    refine ⟨(topology count first)[i], List.getElem_mem hi, ?_⟩
    rw [getElem_topology hi, holds, Bool.and_eq_true, decide_eq_true_eq, decide_eq_true_eq]
    refine ⟨hlower, ?_⟩
    dsimp only
    split <;> omega
  have hquotient : width (max count 1) * (hash / width (max count 1)) ≤ hash := Nat.mul_div_le ..
  rcases Nat.lt_or_ge (hash / width (max count 1)) (max count 1) with hlt | hge
  · exact hcontains (by rwa [hlen]) hquotient (Or.inr (Nat.lt_mul_div_succ hash hwidth))
  · -- the last partition takes what the division leaves over
    refine hcontains (i := max count 1 - 1) (by omega) (Nat.le_trans ?_ hquotient) (Or.inl (by omega))
    exact Nat.mul_le_mul_left _ (by omega)

/-- No hash is held twice. -/
theorem eq_of_holds (hcount : count < hashCount) {p q : Partition} (hp : p ∈ topology count first)
    (hq : q ∈ topology count first) {hash : Nat} (hph : p.holds hash = true) (hqh : q.holds hash = true) :
    p = q := by
  obtain ⟨i, hi, rfl⟩ := List.getElem_of_mem hp
  obtain ⟨j, hj, rfl⟩ := List.getElem_of_mem hq
  exact Option.some.inj ((find?_holds hcount hi hph).symm.trans (find?_holds hcount hj hqh))

end Tidemark.Partition
