import Tidemark.Proofs.Cycle.Exchanges
import Tidemark.Proofs.Destination.Markers
import Tidemark.Proofs.Destination.Paging
import Tidemark.Rehearsal.Emitting

/-!
# A watermark on every partition

A watermark that is emitted against a stream in memory reaches every partition of it, whatever was done to
the stream before, `Emitting.emit_reaches_every_partition`:

```
listings   tokens none, size, 2 * size, ...                       partitions / page size, rounded up
puts       a marker for each partition, by its lower bound        as many as there are partitions
```

The listings are followed from position to position (`run_list`), and the puts from partition to partition
(`run_write`). Nothing has to be known of what else goes on around the stream: its calls come back at once,
and no time passes in them (`Stage.afterCalls`).
-/

namespace Tidemark

namespace Rehearsal

open InMemory

/-- A stage after calls at its present moment, with the stream that they left. -/
def Stage.afterCalls (s : Stage) (m : InMemory) (calls : List Call) : Stage :=
  { s with state := { s.state with
    stream := m
    calls := (calls.map (s.now, ·)).reverse ++ s.state.calls } }

theorem Stage.afterCalls_append (s : Stage) (m m' : InMemory) (calls more : List Call) :
    (s.afterCalls m calls).afterCalls m' more = s.afterCalls m' (calls ++ more) := by
  simp [Stage.afterCalls, World.now]

namespace Emitting

variable {s : Stage}

/-- Without a script a listing is the stream's own. One that crashes does not come back. -/
theorem destination_list (hscript : s.state.script.listings = []) (token : Option String) :
    destination.list s token =
      (s.state.stream.list token).1.map fun answer ↦
        (answer, s.afterCalls (s.state.stream.list token).2 [.list token]) := by
  have hrest : { s.state.script with listings := [] } = s.state.script := by
    rw [← hscript]
  have hown : (s.record (.list token)).state.stream.list token = s.state.stream.list token := rfl
  simp only [destination, Stage.list, hscript, List.tail_nil, List.headD_nil, Stage.holdBack, hrest, Stage.listOwn]
  rw [hown]
  generalize s.state.stream.list token = x
  obtain ⟨answer, m⟩ := x
  cases answer <;> rfl

/-- Without a script a put is the stream's own. -/
theorem destination_put (hscript : s.state.script.puts = []) (record : Record) :
    destination.put s record =
      some ((s.state.stream.put record).1, s.afterCalls (s.state.stream.put record).2 [.put record]) := by
  have hrest : { s.state.script with puts := [] } = s.state.script := by
    rw [← hscript]
  simp only [destination, Stage.put, hscript, List.tail_nil, hrest]
  rfl

/-! ### Writing -/

/-- What the journal says of markers that their own partitions acknowledged, the newest first. -/
def markerNotices (w : Timestamp) (ps : List Partition) : List Notice :=
  (ps.map fun p ↦ .watermarkWritten w p.name p.name).reverse

/-- What is left to be written is written and acknowledged, one partition after the other. -/
theorem run_write (w : Timestamp) (listed : Nat) (ps : List Partition) {s : Stage}
    (hm : s.state.stream.Sound) (hcalm : s.state.stream.injections = {})
    (hscript : s.state.script.puts = []) (hps : ∀ p ∈ ps, p ∈ s.state.stream.partitions)
    (c : Cycle) (hc : c.watermark = w) (i : Instruments) {n : Nat} (hn : ps.length ≤ n) :
    ∃ i', (c.write (ps.map Partition.descriptor) listed i).1.run destination
        (c.write (ps.map Partition.descriptor) listed i).2 s n =
          some (.ok (.emitted listed), i',
            s.afterCalls (s.state.stream.afterMarkers w ps) (ps.map fun p ↦ .put (marker w p))) ∧
      i'.journal = .watermarkSent w listed :: (markerNotices w ps ++ i.journal) := by
  induction ps generalizing s c i n with
  | nil =>
    refine ⟨i.note (.watermarkSent w listed), ?_, rfl⟩
    show Cycle.run destination ⟨c.watermark, .ended (.ok (.emitted listed))⟩
      (i.note (.watermarkSent c.watermark listed)) s n = _
    rw [Cycle.run_ended, hc, afterMarkers_nil]
    rfl
  | cons p ps ih =>
    obtain ⟨n, rfl⟩ : ∃ k, n = k + 1 := ⟨n - 1, by simp only [List.length_cons] at hn; omega⟩
    have hput := hm.put_marker hcalm w (hps p List.mem_cons_self)
    obtain ⟨i', hrun, hjournal⟩ := ih
      (s := s.afterCalls (s.state.stream.afterMarkers w [p]) [.put (marker w p)])
      (sound_afterMarkers hm w [p]) hcalm hscript (fun q hq ↦ hps q (List.mem_cons_of_mem p hq))
      ⟨w, .writing ((p :: ps).map Partition.descriptor) listed⟩ rfl
      ({ i with metrics := { i.metrics with
        watermarksEmitted := Metrics.advance i.metrics.watermarksEmitted 1 } }.note
          (.watermarkWritten w p.name p.name))
      (Nat.le_of_succ_le_succ hn)
    refine ⟨i', ?_, ?_⟩
    · rw [Stage.afterCalls_append] at hrun
      show Cycle.run destination ⟨c.watermark, .writing ((p :: ps).map Partition.descriptor) listed⟩
        i s (n + 1) = _
      rw [hc, List.map_cons, Cycle.run_writing]
      show (destination.put s (marker w p)).bind _ = _
      rw [destination_put hscript, hput, ← afterMarkers_cons s.state.stream w p ps]
      exact hrun
    · rw [hjournal]
      simp [markerNotices, Instruments.note]

/-! ### Listing -/

/-- The calls of a listing from a position on. -/
def listCallsFrom (m : InMemory) (start : Nat) : List Call :=
  (List.range (m.pagesFrom start)).map fun k ↦ .list (tokenAt (start + k * m.pageSize))

/-- From a position inside the stream a page is listed, and then those after it. -/
theorem listCallsFrom_eq_cons {m : InMemory} (hm : m.Sound) {start : Nat}
    (hstart : start < m.partitions.length) :
    listCallsFrom m start = .list (tokenAt start) :: listCallsFrom m (start + m.pageSize) := by
  rw [listCallsFrom, hm.pagesFrom_eq_succ hstart, List.range_succ_eq_map, List.map_cons, List.map_map,
    Nat.zero_mul, Nat.add_zero]
  refine congrArg _ (List.map_congr_left fun k _ ↦ ?_)
  show Call.list (tokenAt (start + (k + 1) * m.pageSize)) = .list (tokenAt (_ + k * m.pageSize))
  rw [Nat.succ_mul, Nat.add_assoc, Nat.add_comm (k * _)]

/-- A listing that has come to a position. -/
def listedTo (m : InMemory) (start : Nat) : Listing :=
  ⟨(m.partitions.take start).map Partition.descriptor, tokenAt start⟩

section Page

variable {m : InMemory} (hm : m.Sound) (hcalm : m.injections = {}) {start : Nat}
  (hdvd : m.pageSize ∣ start) (w : Timestamp) (i : Instruments)
include hm hcalm hdvd

/-- A page that is not the last one brings the listing to the next position. -/
theorem listed_inside (hnext : start + m.pageSize < m.partitions.length) :
    ∃ answer, (m.list (tokenAt start)).1 = some answer ∧
      (⟨w, .listing (listedTo m start)⟩ : Cycle).listed answer i =
        (⟨w, .listing (listedTo m (start + m.pageSize))⟩, i) := by
  have hfound : (m.partitions.take start).map Partition.descriptor ++
      ((m.partitions.take (start + m.pageSize)).drop start).map Partition.descriptor =
        (m.partitions.take (start + m.pageSize)).map Partition.descriptor := by
    have hsplit := List.take_append_drop start (m.partitions.take (start + m.pageSize))
    rw [List.take_take, Nat.min_eq_left (Nat.le_add_right _ _)] at hsplit
    rw [← List.map_append, hsplit]
  have htoken : tokenAt (start + m.pageSize) = some (toString (start + m.pageSize)) := by
    have hpos := hm.pageSize_pos
    exact if_neg (by omega)
  refine ⟨_, congrArg Prod.fst (hm.list_inside hcalm hdvd hnext), ?_⟩
  rw [listedTo, listedTo, ← hfound, htoken]
  rfl

/-- After the last page all partitions are to be written to. -/
theorem listed_last (hstart : start < m.partitions.length)
    (hlast : m.partitions.length ≤ start + m.pageSize) :
    ∃ answer, (m.list (tokenAt start)).1 = some answer ∧
      (⟨w, .listing (listedTo m start)⟩ : Cycle).listed answer i =
        (⟨w, .listing (listedTo m start)⟩ : Cycle).write (m.partitions.map Partition.descriptor)
          m.partitions.length i := by
  have hfound : (m.partitions.take start).map Partition.descriptor ++
      (m.partitions.drop start).map Partition.descriptor = m.partitions.map Partition.descriptor := by
    rw [← List.map_append, List.take_append_drop]
  have hlength := congrArg List.length hfound
  rw [List.length_map] at hlength
  refine ⟨_, congrArg Prod.fst (hm.list_last hcalm hdvd hstart hlast), ?_⟩
  rw [← hfound, ← hlength]
  rfl

end Page

/-- From a position on a cycle lists the pages that are left, and then writes to all partitions. -/
theorem run_list (w : Timestamp) {s : Stage} {m : InMemory} (hstream : s.state.stream = m)
    (hm : m.Sound) (hcalm : m.injections = {}) (hlistings : s.state.script.listings = [])
    (hputs : s.state.script.puts = []) {start : Nat} (hdvd : m.pageSize ∣ start)
    (hstart : start < m.partitions.length) (i : Instruments) {n : Nat}
    (hn : m.pagesFrom start + m.partitions.length ≤ n) :
    ∃ i', Cycle.run destination ⟨w, .listing (listedTo m start)⟩ i s n =
          some (.ok (.emitted m.partitions.length), i',
            s.afterCalls ((m.afterListings (m.pagesFrom start)).afterMarkers w m.partitions)
              (listCallsFrom m start ++ m.partitions.map fun p ↦ .put (marker w p))) ∧
      i'.journal =
        .watermarkSent w m.partitions.length :: (markerNotices w m.partitions ++ i.journal) := by
  -- a page less is left after each one
  induction hpages : m.pagesFrom start generalizing s m start n with
  | zero =>
    rw [hm.pagesFrom_eq_succ hstart] at hpages
    exact absurd hpages (Nat.succ_ne_zero _)
  | succ pages ih =>
    have hrest : m.pagesFrom (start + m.pageSize) = pages := by
      rw [hm.pagesFrom_eq_succ hstart] at hpages
      exact Nat.succ.inj hpages
    obtain ⟨n, rfl⟩ : ∃ k, n = k + 1 := ⟨n - 1, by omega⟩
    rw [Cycle.run_listing]
    show ∃ i', (destination.list s (tokenAt start)).bind _ = _ ∧ _
    rw [destination_list hlistings, hstream, hm.list_snd hcalm hstart, listCallsFrom_eq_cons hm hstart,
      ← afterListings_succ m pages]
    rcases Nat.lt_or_ge (start + m.pageSize) m.partitions.length with hnext | hlast
    · obtain ⟨i', hrun, hjournal⟩ := ih (s := s.afterCalls (m.afterListings 1) [.list (tokenAt start)])
        rfl (sound_afterListings hm 1) hcalm hlistings hputs (Nat.dvd_add_self_right.mpr hdvd) hnext (n := n)
        (by show m.pagesFrom (start + m.pageSize) + m.partitions.length ≤ n; omega) hrest
      rw [Stage.afterCalls_append] at hrun
      obtain ⟨answer, hanswer, hlisted⟩ := listed_inside hm hcalm hdvd w i hnext
      rw [hanswer, Option.map_some, Option.bind_some]
      simp only [hlisted]
      exact ⟨i', hrun, hjournal⟩
    · obtain ⟨i', hrun, hjournal⟩ := run_write w m.partitions.length m.partitions
        (s := s.afterCalls (m.afterListings 1) [.list (tokenAt start)]) (sound_afterListings hm 1) hcalm hputs
        (fun p hp ↦ hp) ⟨w, .listing (listedTo m start)⟩ rfl i (n := n) (by omega)
      have hnone : listCallsFrom m (start + m.pageSize) = [] := by
        rw [listCallsFrom, hm.pagesFrom_eq_zero hlast, List.range_zero, List.map_nil]
      have hpages : pages = 0 := by rw [← hrest, hm.pagesFrom_eq_zero hlast]
      rw [Stage.afterCalls_append] at hrun
      obtain ⟨answer, hanswer, hlisted⟩ := listed_last hm hcalm hdvd w i hstart hlast
      rw [hanswer, Option.map_some, Option.bind_some]
      simp only [hlisted, hnone, hpages]
      exact ⟨i', hrun, hjournal⟩

/-! ### The whole cycle -/

/-- A watermark that is emitted is written to every partition of a stream without failures pending, and
acknowledged by it; apart from the log and the counts of calls the stream is the same. -/
theorem emit_reaches_every_partition (e : Emitting) (w : Timestamp)
    (hm : e.stage.state.stream.Reached) (hcalm : e.stage.state.stream.injections = {})
    (hlistings : e.stage.state.script.listings = []) (hputs : e.stage.state.script.puts = []) :
    let m := e.stage.state.stream
    let count := m.partitions.length
    let pages := count ⌈/⌉ m.pageSize
    let entries := markings w (m.log.size + 1) m.partitions
    let m' : InMemory := { m with
      log := m.log ++ entries.toArray
      sequence := m.sequence + count
      listCalls := m.listCalls + pages
      putCalls := m.putCalls + count }
    let calls : List Call :=
      (List.range pages).map (fun k ↦ .list (tokenAt (k * m.pageSize))) ++
        m.partitions.map fun p ↦ .put (marker w p)
    ∃ instruments,
      e.emit w = (some (.ok (.emitted count)),
        { e with instruments, stage := e.stage.afterCalls m' calls }) ∧
      instruments.journal = .watermarkSent w count ::
        ((m.partitions.map fun p ↦ .watermarkWritten w p.name p.name).reverse ++
          e.instruments.journal) ∧
      entries.map (·.partition) = m.partitionNames ∧
      (∀ x ∈ entries, x.watermark? = some w) ∧
      m'.watermarks = m.watermarks ++ m.partitionNames.map fun name ↦ (name, w) := by
  intro m count pages entries m' calls
  have hsound : m.Sound := hm.sound
  -- the count of the entries goes with the log
  have hafter : (m.afterListings pages).afterMarkers w m.partitions = m' := by
    have hentries : markings w (m.sequence + 1) m.partitions = entries := by rw [hsound.numbered]
    show { m with
      log := m.log ++ (markings w (m.sequence + 1) m.partitions).toArray
      sequence := m.sequence + count
      listCalls := m.listCalls + pages
      putCalls := m.putCalls + count } = m'
    rw [hentries]
  have hpages : m.pagesFrom 0 = pages := by
    show (m.partitions.length - 0) ⌈/⌉ m.pageSize = _
    rw [Nat.sub_zero]
  have hcalls : listCallsFrom m 0 = (List.range pages).map fun k ↦ .list (tokenAt (k * m.pageSize)) := by
    rw [listCallsFrom, hpages]
    simp only [Nat.zero_add]
  have hmany : m.pagesFrom 0 + m.partitions.length ≤ manyRequests := by
    have hlength := hsound.length_le
    have hle := hsound.pagesFrom_le 0
    unfold listBound at hlength
    unfold manyRequests
    omega
  obtain ⟨i, hrun, hjournal⟩ := run_list w (m := m) rfl hsound hcalm hlistings hputs (Nat.dvd_zero _)
    hsound.length_pos e.instruments hmany
  rw [hcalls, hpages, hafter] at hrun
  refine ⟨i, ?_, hjournal, map_partition_markings w _ _, fun x ↦ watermark?_of_mem_markings, ?_⟩
  · have hstart : Cycle.start w = ⟨w, .listing (listedTo m 0)⟩ := rfl
    simp only [emit, hstart]
    rw [hrun]
  · have hnames : m.partitionNames.map (fun name ↦ (name, w)) = m.partitions.map fun p ↦ (p.name, w) := by
      rw [partitionNames, List.map_map]
      rfl
    rw [hnames, ← hafter]
    exact watermarks_afterMarkers (m.afterListings pages) w m.partitions

/-- An emitter and a stream of three partitions, which took the place of two and are listed in pages of
two. -/
def resharded : Emitting :=
  { stage := .ofStream (((InMemory.create 2).reshard 3).withPageSize 2) {}
    emitter := { config := {} } }

/-- Two pages list the three partitions, and each of them has the watermark once. -/
theorem emit_reaches_every_partition_resharded :
    resharded.stage.state.stream.Reached ∧ resharded.stage.state.stream.injections = {} ∧
      resharded.stage.state.script.listings = [] ∧ resharded.stage.state.script.puts = [] ∧
      (resharded.emit ⟨7, by decide, by decide⟩).1 = some (.ok (.emitted 3)) ∧
      (resharded.emit ⟨7, by decide, by decide⟩).2.stage.state.stream.watermarks.map Prod.fst =
        ["shardId-000000000002", "shardId-000000000003", "shardId-000000000004"] ∧
      (resharded.emit ⟨7, by decide, by decide⟩).2.stage.state.stream.listCalls = 2 := by
  have hm : resharded.stage.state.stream.Reached :=
    ((Reached.create (by decide)).reshard (by decide)).withPageSize (by decide)
  obtain ⟨i, hemit, -, hnames, -, hgained⟩ :=
    emit_reaches_every_partition resharded ⟨7, by decide, by decide⟩ hm rfl rfl rfl
  refine ⟨hm, rfl, rfl, rfl, ?_⟩
  rw [hemit]
  refine ⟨rfl, ?_, rfl⟩
  exact (congrArg (List.map Prod.fst) hgained).trans (by decide +kernel)

end Emitting

end Rehearsal

end Tidemark
