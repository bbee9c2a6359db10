import Tidemark.Proofs.Destination.Tiling
import Tidemark.Proofs.Destination.Traffic

/-!
# Numbers of partitions

A topology takes its numbers from where the one before it has ended, and a stream counts on through its life:

```
create 2          0 1
reshard 3             2 3 4
reshard 0                   5              one partition at least
reshard 3                     6 7 8
```

So the numbers of all topologies together are those below the total, each once and in order
(`map_number_flatten_topologiesFrom`). Calls other than a reshard change neither the partitions nor what is
counted, so that this holds whatever else is done to the stream (`topologies_eq`). A number is read back from the
name of its partition, also where it has more digits than a name has at least (`numberOf?_name`), and different
names come of it.
-/

namespace Tidemark

namespace Partition

/-! ### Names -/

/-- What comes before the number in the name of a partition. -/
def nameStem : String := "shardId-"

/-- The number in the name of a partition. -/
def numberOf? (name : String) : Option Nat :=
  if nameStem.toList <+: name.toList then
    (Text.readNumeral InMemory.positionBound
      (String.ofList (name.toList.drop nameStem.toList.length))).toOption
  else none

/-- The number of a partition is read off its name. -/
theorem numberOf?_name {p : Partition} (hp : p.number < InMemory.positionBound) :
    numberOf? p.name = some p.number := by
  have hchars : (toString p.number).toList = Nat.toDigits 10 p.number := Nat.toList_repr
  have hpadded : (Written.padded 12 p.number).toList =
      List.replicate (12 - (Nat.toDigits 10 p.number).length) '0' ++ Nat.toDigits 10 p.number := by
    rw [Written.padded, String.toList_ofList, hchars]
  have hvalue : Nat.ofDigitChars 10 (Written.padded 12 p.number).toList 0 = p.number := by
    rw [hpadded, ofDigitChars_replicate_zero, Nat.ofDigitChars_ten_toDigits]
  have hread : Text.readNumeral InMemory.positionBound (Written.padded 12 p.number) = .ok p.number := by
    rw [Text.readNumeral_of_digits, hvalue]
    · intro c hc
      rw [hpadded, List.mem_append] at hc
      rcases hc with hzero | hdigit
      · rw [List.eq_of_mem_replicate hzero]
        decide
      · exact Nat.isDigit_of_mem_toDigits (by decide) (by decide) hdigit
    · rw [hpadded]
      simp [Nat.toDigits_ne_nil]
    · rwa [hvalue]
  have hname : p.name.toList = nameStem.toList ++ (Written.padded 12 p.number).toList := String.toList_append
  rw [numberOf?, hname, if_pos (List.prefix_append _ _), List.drop_left, String.ofList_toList, hread]
  rfl

/-! ### Topologies one after another -/

/-- How many partitions there are in topologies of so many, one at least in each. -/
def total : List Nat → Nat
  | [] => 0
  | n :: rest => max n 1 + total rest

/-- Topologies of so many partitions, numbered on from one to the next. -/
def topologiesFrom (first : Nat) : List Nat → List (List Partition)
  | [] => []
  | n :: rest => topology n first :: topologiesFrom (first + max n 1) rest

variable {first : Nat} {counts : List Nat}

/-- The partitions of a topology are numbered on from the first one. -/
theorem map_number_topology (count first : Nat) :
    (topology count first).map number = List.range' first (max count 1) := by
  simp only [topology, List.map_map, List.range'_eq_map_range]
  rfl

theorem length_topologiesFrom (first : Nat) (counts : List Nat) :
    (topologiesFrom first counts).length = counts.length := by
  induction counts generalizing first with
  | nil => rfl
  | cons n rest ih => rw [topologiesFrom, List.length_cons, List.length_cons, ih]

/-- Each of the topologies is numbered on from the total of those before it. -/
theorem getElem?_topologiesFrom (first i : Nat) (counts : List Nat) :
    (topologiesFrom first counts)[i]? =
      counts[i]?.map fun n ↦ topology n (first + total (counts.take i)) := by
  induction counts generalizing first i with
  | nil => rfl
  | cons n rest ih =>
    cases i with
    | zero => rfl
    | succ i =>
      rw [topologiesFrom, List.getElem?_cons_succ, List.getElem?_cons_succ, ih, List.take_succ_cons, total]
      simp only [Nat.add_assoc]

/-- The numbers of all the topologies together. -/
theorem map_number_flatten_topologiesFrom (first : Nat) (counts : List Nat) :
    (topologiesFrom first counts).flatten.map number = List.range' first (total counts) := by
  induction counts generalizing first with
  | nil => rfl
  | cons n rest ih =>
    rw [topologiesFrom, List.flatten_cons, List.map_append, map_number_topology, ih, List.range'_append_1]
    rfl

/-- No number reaches the total. -/
theorem number_lt_of_mem {p : Partition} (hp : p ∈ (topologiesFrom 0 counts).flatten) :
    p.number < total counts := by
  have hmem := List.mem_map_of_mem (f := number) hp
  rw [map_number_flatten_topologiesFrom, List.mem_range'_1] at hmem
  omega

/-- The partitions of a topology stand in the order of their ranges. -/
theorem pairwise_topology {count : Nat} (hcount : count < hashCount) (first : Nat) :
    (topology count first).Pairwise fun p q ↦ p.upper < q.lower :=
  List.pairwise_iff_getElem.2 fun _ _ _ hj hij ↦ upper_lt_lower hcount hj hij

end Partition

namespace InMemory.Traffic

/-- The numbers of partitions that the stream is resharded to. -/
def reshards (acts : List Act) : List Nat :=
  acts.filterMap fun
    | .reshard n => some n
    | _ => none

/-- The topologies that the stream goes through, the one that it has at first included. -/
def topologies (t : Traffic) : List Act → List (List Partition)
  | [] => [t.stream.partitions]
  | .reshard n :: rest => t.stream.partitions :: topologies (t.act (.reshard n)) rest
  | a :: rest => topologies (t.act a) rest

/-- Only a reshard changes the partitions and the number that comes next. -/
theorem Move.layout {t t' : Traffic} {a : Act} (h : t.Move a t') :
    (∃ n, a = .reshard n ∧ t'.stream = t.stream.reshard n) ∨
      t'.stream.partitions = t.stream.partitions ∧ t'.stream.nextNumber = t.stream.nextNumber := by
  cases h with
  | reshard n hact => exact Or.inl ⟨n, hact, rfl⟩
  | still _ hstill => exact Or.inr ⟨hstill.partitions, hstill.nextNumber⟩
  | refused caller _ _ _ hstill =>
    cases caller <;> exact Or.inr ⟨hstill.partitions, hstill.nextNumber⟩
  | written caller _ _ _ _ hwrites _ _ =>
    cases caller <;> exact Or.inr ⟨hwrites.partitions, hwrites.nextNumber⟩
  | delayed _ _ _ hwrites _ _ _ _ => exact Or.inr ⟨hwrites.partitions, hwrites.nextNumber⟩
  | held _ _ _ hwrites _ _ _ => exact Or.inr ⟨hwrites.partitions, hwrites.nextNumber⟩
  | _ => exact Or.inr ⟨rfl, rfl⟩

/-- Any other act than a reshard adds no topology to those that follow. -/
theorem topologies_cons (t : Traffic) (a : Act) (rest : List Act) :
    (∃ n, a = .reshard n) ∨
      ((t.act a).stream.partitions = t.stream.partitions ∧ (t.act a).stream.nextNumber = t.stream.nextNumber) ∧
        t.topologies (a :: rest) = (t.act a).topologies rest ∧ reshards (a :: rest) = reshards rest := by
  have hlayout := (t.move_act a).layout
  cases a with
  | reshard n => exact Or.inl ⟨n, rfl⟩
  | _ => exact Or.inr ⟨hlayout.resolve_left (by simp), rfl, rfl⟩

/-- The stream goes through topologies that are numbered on, whatever else is done to it. -/
theorem topologies_eq (t : Traffic) (first n : Nat) (acts : List Act)
    (hpartitions : t.stream.partitions = Partition.topology n first)
    (hnext : t.stream.nextNumber = first + max n 1) :
    t.topologies acts = Partition.topologiesFrom first (n :: reshards acts) ∧
      (t.run acts).stream.nextNumber = first + Partition.total (n :: reshards acts) := by
  induction acts generalizing t first n with
  | nil => exact ⟨by rw [topologies, hpartitions]; rfl, hnext⟩
  | cons a rest ih =>
    rw [run, List.foldl_cons, ← run]
    rcases t.topologies_cons a rest with ⟨count, rfl⟩ | ⟨⟨hsame, hcounts⟩, hlife, hreshards⟩
    · obtain ⟨hlater, hlast⟩ := ih (t.act (.reshard count)) (first + max n 1) count
        (by rw [← hnext]; rfl) (by rw [← hnext]; rfl)
      refine ⟨by rw [topologies, hpartitions, hlater]; rfl, ?_⟩
      rw [hlast, Nat.add_assoc]
      rfl
    · rw [hlife, hreshards]
      exact ih (t.act a) first n (hsame.trans hpartitions) (hcounts.trans hnext)

/-- Where the stream is at the end is the last of its topologies. -/
theorem getLast?_topologies (t : Traffic) (acts : List Act) :
    (t.topologies acts).getLast? = some (t.run acts).stream.partitions := by
  induction acts generalizing t with
  | nil => rfl
  | cons a rest ih =>
    rcases t.topologies_cons a rest with ⟨count, rfl⟩ | ⟨-, hlife, -⟩
    · rw [topologies, List.getLast?_cons, ih]
      rfl
    · rw [hlife, ih]
      rfl

/-- However often a stream is resharded, and whatever else is done to it: its partitions are named differently
through its whole life. Each topology has the next numbers that there are, in the order of its ranges, and what
is read from the name of a partition is greater than what is read from the name of any partition before. -/
theorem numbers_never_return (partitions pageSize : Nat) (policy : AckPolicy) (acts : List Act)
    (htotal : Partition.total (partitions :: reshards acts) < positionBound) :
    let t := start partitions pageSize policy
    let life := t.topologies acts
    life.getLast? = some (t.run acts).stream.partitions ∧
      (life.flatten.map Partition.name).Nodup ∧
      life.length = (reshards acts).length + 1 ∧
      (∀ i topology count, life[i]? = some topology → (partitions :: reshards acts)[i]? = some count →
        topology.map (Partition.numberOf? ·.name) =
            (List.range' (Partition.total ((partitions :: reshards acts).take i)) (max count 1)).map some ∧
          topology.Pairwise fun p q ↦ p.upper < q.lower) ∧
      (life.Pairwise fun earlier later ↦ ∀ p ∈ earlier, ∀ q ∈ later,
        ∃ m n, Partition.numberOf? p.name = some m ∧ Partition.numberOf? q.name = some n ∧ m < n) ∧
      (t.run acts).stream.nextNumber < positionBound := by
  intro t life
  obtain ⟨hlife, hnext⟩ := topologies_eq t 0 partitions acts rfl (Nat.zero_add _).symm
  have hlife : life = Partition.topologiesFrom 0 (partitions :: reshards acts) := hlife
  have hbound : ∀ p ∈ life.flatten, p.number < positionBound := fun p hp ↦
    Nat.lt_trans (Partition.number_lt_of_mem (hlife ▸ hp)) htotal
  have hnumbers : life.flatten.map Partition.number =
      List.range' 0 (Partition.total (partitions :: reshards acts)) := by
    rw [hlife, Partition.map_number_flatten_topologiesFrom]
  have hread : ∀ p ∈ life.flatten, Partition.numberOf? p.name = some p.number := fun p hp ↦
    Partition.numberOf?_name (hbound p hp)
  have hascends : life.flatten.Pairwise fun p q ↦ p.number < q.number := by
    rw [← List.pairwise_map, hnumbers]
    exact List.pairwise_lt_range'
  refine ⟨getLast?_topologies t acts, ?_, ?_, ?_, ?_, ?_⟩
  · refine List.pairwise_map.2 (hascends.imp fun hlt hname ↦ ?_)
    exact Nat.ne_of_lt hlt (Partition.number_eq_of_name_eq hname)
  · rw [hlife, Partition.length_topologiesFrom, List.length_cons]
  · intro i topology count htopology hcount
    have hmem : topology ∈ life := List.mem_of_getElem? htopology
    rw [hlife, Partition.getElem?_topologiesFrom, hcount, Option.map_some, Option.some.injEq, Nat.zero_add] at htopology
    constructor
    · rw [← Partition.map_number_topology, htopology, List.map_map]
      exact List.map_congr_left fun p hp ↦ hread p (List.mem_flatten_of_mem hmem hp)
    · have hle := (List.sublist_flatten_of_mem hmem).length_le
      have hlength := congrArg List.length hnumbers
      rw [List.length_map, List.length_range'] at hlength
      rw [← htopology, Partition.length_topology] at hle
      have hlarge : positionBound < hashCount := by decide
      rw [← htopology]
      exact Partition.pairwise_topology (by omega) _
  · refine (List.pairwise_flatten.1 (hascends.imp_of_mem fun {p q} hp hq hlt ↦ ?_)).2
    exact ⟨p.number, q.number, hread p hp, hread q hq, hlt⟩
  · rw [hnext, Nat.zero_add]
    exact htotal

/-- A stream of two partitions is written to, resharded to three, listed, and resharded to none and to three again. -/
def growingLife : List Act :=
  [.put ⟨.empty, .byHash "23" "0"⟩, .reshard 3, .list none, .reshard 0, .reshard 3]

/-- Nine partitions have nine names, and the life goes through four topologies. -/
theorem numbers_never_return_growingLife :
    Partition.total [2, 3, 0, 3] < positionBound ∧
      let life := (start 2 100 .immediate).topologies growingLife
      life.map (·.map Partition.name) =
        [["shardId-000000000000", "shardId-000000000001"],
          ["shardId-000000000002", "shardId-000000000003", "shardId-000000000004"], ["shardId-000000000005"],
          ["shardId-000000000006", "shardId-000000000007", "shardId-000000000008"]] ∧
        (life.flatten.map Partition.name).Nodup ∧
        life.Pairwise fun earlier later ↦ ∀ p ∈ earlier, ∀ q ∈ later,
          ∃ m n, Partition.numberOf? p.name = some m ∧ Partition.numberOf? q.name = some n ∧ m < n := by
  have htotal : Partition.total (2 :: reshards growingLife) < positionBound := by decide
  obtain ⟨-, hnodup, -, -, hascends, -⟩ := numbers_never_return 2 100 .immediate growingLife htotal
  exact ⟨htotal, by decide +kernel, hnodup, hascends⟩

end InMemory.Traffic

end Tidemark
