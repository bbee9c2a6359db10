import Mathlib.Data.List.Basic
import Tidemark.Proofs.Destination.Histories
import Tidemark.Proofs.Destination.WatermarkPayload
import Tidemark.Proofs.Text.Numerals

/-!
# Markers

A watermark record is meant for a partition by its lower bound. On a sound stream without failures pending
its put is acknowledged by that partition and becomes one entry of the log, `Sound.put_marker`; the
entries that several markers become are `markings`, and each of them carries the watermark.
-/

namespace Tidemark.InMemory

/-- The record that marks a partition with a watermark. -/
def marker (w : Timestamp) (p : Partition) : Record :=
  Record.ofWatermark w p.descriptor.lower

/-- The entries that the markers of partitions become, the first one with a given number. -/
def markings (w : Timestamp) (number : Nat) (ps : List Partition) : List LogEntry :=
  (ps.zipIdx number).map fun (p, n) ↦ ⟨p.name, n, marker w p⟩

/-- The stream after the markers of partitions were put. -/
def afterMarkers (m : InMemory) (w : Timestamp) (ps : List Partition) : InMemory :=
  { m with
    log := m.log ++ (markings w (m.sequence + 1) ps).toArray
    sequence := m.sequence + ps.length
    putCalls := m.putCalls + ps.length }

theorem afterMarkers_nil (m : InMemory) (w : Timestamp) : m.afterMarkers w [] = m := by
  simp [afterMarkers, markings]

theorem afterMarkers_cons (m : InMemory) (w : Timestamp) (p : Partition) (ps : List Partition) :
    (m.afterMarkers w [p]).afterMarkers w ps = m.afterMarkers w (p :: ps) := by
  have hlog : (m.afterMarkers w [p]).log = m.log.push ⟨p.name, m.sequence + 1, marker w p⟩ := by
    simp [afterMarkers, markings]
  have hsequence : (m.afterMarkers w [p]).sequence + ps.length = m.sequence + (p :: ps).length := by
    simp [afterMarkers, Nat.add_assoc, Nat.add_comm 1]
  have hcalls : (m.afterMarkers w [p]).putCalls + ps.length = m.putCalls + (p :: ps).length := by
    simp [afterMarkers, Nat.add_assoc, Nat.add_comm 1]
  rw [afterMarkers, hcalls, hsequence, hlog]
  simp [afterMarkers, markings, List.zipIdx_cons]

theorem length_markings (w : Timestamp) (number : Nat) (ps : List Partition) :
    (markings w number ps).length = ps.length := by
  rw [markings, List.length_map, List.length_zipIdx]

/-- A stream stays sound when markers are put. -/
theorem sound_afterMarkers {m : InMemory} (hm : m.Sound) (w : Timestamp) (ps : List Partition) :
    (m.afterMarkers w ps).Sound where
  laidOut := hm.laidOut
  pageSize_pos := hm.pageSize_pos
  pageSize_lt := hm.pageSize_lt
  numbered := by
    show m.sequence + ps.length = (m.log ++ (markings w (m.sequence + 1) ps).toArray).size
    simp [length_markings, hm.numbered]

/-- A marker is routed to the lower bound of its partition. -/
theorem hash_marker {w : Timestamp} {p : Partition} (hp : p.lower < hashCount) :
    hash (marker w p).routing = .ok p.lower := by
  have hread : Text.readNumeral hashCount p.descriptor.lower = .ok p.lower :=
    Text.readNumeral_toString hp
  simp only [marker, Record.ofWatermark, hash, hread]

/-- A marker is acknowledged by its partition. -/
theorem Sound.put_marker {m : InMemory} (hm : m.Sound) (hcalm : m.injections = {}) (w : Timestamp)
    {p : Partition} (hp : p ∈ m.partitions) :
    m.put (marker w p) = (.ok ⟨p.name, some (toString (m.sequence + 1))⟩, m.afterMarkers w [p]) := by
  obtain ⟨i, hi, rfl⟩ := List.getElem_of_mem hp
  have hthrottle : m.injections.throttlePuts = 0 := by rw [hcalm]
  have hfail : m.injections.failPuts = 0 := by rw [hcalm]
  have hhash := hash_marker (w := w) (hm.lower_lt_hashCount hp)
  simp only [put, hthrottle, hfail, Nat.lt_irrefl, if_false, write, hhash, hm.find?_lower hi]
  simp [afterMarkers, markings]

/-! ### What is read back -/

theorem watermark?_of_mem_markings {w : Timestamp} {number : Nat} {ps : List Partition} {x : LogEntry}
    (hx : x ∈ markings w number ps) : x.watermark? = some w := by
  rw [markings, List.mem_map] at hx
  obtain ⟨⟨p, n⟩, -, rfl⟩ := hx
  exact watermarkOfPayload?_watermarkPayload w

/-- The entries are in the partitions that were marked. -/
theorem map_partition_markings (w : Timestamp) (number : Nat) (ps : List Partition) :
    (markings w number ps).map (·.partition) = ps.map Partition.name := by
  rw [markings, List.map_map]
  show (ps.zipIdx number).map (Partition.name ∘ Prod.fst) = _
  rw [← List.map_map, List.zipIdx_map_fst]

/-- The watermarks of the stream gain one for each partition. -/
theorem watermarks_afterMarkers (m : InMemory) (w : Timestamp) (ps : List Partition) :
    (m.afterMarkers w ps).watermarks = m.watermarks ++ ps.map fun p ↦ (p.name, w) := by
  have hread : (markings w (m.sequence + 1) ps).filterMap
      (fun e ↦ e.watermark?.map (e.partition, ·)) =
      (markings w (m.sequence + 1) ps).map fun e ↦ (e.partition, w) := by
    rw [← List.filterMap_eq_map]
    apply List.filterMap_congr
    intro e he
    simp [watermark?_of_mem_markings he]
  have hnames := congrArg (List.map (·, w)) (map_partition_markings w (m.sequence + 1) ps)
  rw [List.map_map, List.map_map] at hnames
  rw [watermarks, watermarks, afterMarkers, Array.toList_append, List.filterMap_append, hread]
  exact congrArg _ hnames

end Tidemark.InMemory
