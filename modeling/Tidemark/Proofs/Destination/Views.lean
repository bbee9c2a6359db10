import Mathlib.Data.Set.List
import Tidemark.Proofs.Destination.Ledger
import Tidemark.Proofs.Destination.WatermarkPayload

/-!
# What the views of a log tell

A log has two views, the payloads of its events and its watermarks. Both go by the payload of a record: an
entry whose payload reads as a watermark counts as one, under whatever key it was written. A watermark record
always reads as its own watermark; but so does an event with such a payload (`event_taken_for_watermark`), and
then it is missing from the one view and listed in the other.

```
                                 eventPayloads     watermarks
event                            its payload
misleading event                                   the watermark in its payload
watermark record                                   its watermark
```

Nothing else goes wrong: the views tell what was written, in this order, if and only if no misleading event was
(`views_exact_iff`).
-/

namespace Tidemark

/-- What a record is made from: an event, or a watermark for the partition that a hash lies in. -/
inductive Item where
  | event (e : Event)
  | watermark (w : Timestamp) (hash : String)

namespace Item

def record : Item → Record
  | event e => .ofEvent e
  | watermark w hash => .ofWatermark w hash

/-- The payload of an event. -/
def payload? : Item → Option ByteArray
  | event e => some e.payload
  | watermark .. => none

def watermark? : Item → Option Timestamp
  | event _ => none
  | watermark w _ => some w

/-- It is an event whose payload reads as a watermark. -/
def isMisleading : Item → Bool
  | event e => (watermarkOfPayload? e.payload).isSome
  | watermark .. => false

theorem read_record {item : Item} (h : item.isMisleading = false) :
    watermarkOfPayload? item.record.payload = item.watermark? := by
  cases item with
  | event e => exact Option.not_isSome_iff_eq_none.1 (Bool.eq_false_iff.1 h)
  | watermark w hash => exact watermarkOfPayload?_watermarkPayload w

end Item

namespace InMemory

/-- The views of the stream tell these items: the payloads of the events and the watermarks of the rest, each
with the partition of its entry. -/
structure Tells (m : InMemory) (items : List Item) : Prop where
  events : m.eventPayloads = items.filterMap Item.payload?
  watermarks : m.watermarks = (m.log.toList.zip items).filterMap fun x ↦ x.2.watermark?.map (x.1.partition, ·)

section Written

variable {m : InMemory} {items : List Item}

/-- The view of the events leaves out the misleading ones. -/
theorem eventPayloads_eq (h : m.log.toList.map (·.record) = items.map Item.record) :
    m.eventPayloads = (items.filter (!·.isMisleading)).filterMap Item.payload? := by
  have hrecords : m.eventPayloads = ((m.log.toList.map (·.record)).filter
      fun r ↦ (watermarkOfPayload? r.payload).isNone).map (·.payload) := by
    rw [eventPayloads, List.filter_map, List.map_map]
    rfl
  rw [hrecords, h, List.filter_map, List.map_map, ← List.filterMap_eq_map, List.filterMap_filter,
    List.filterMap_filter]
  refine List.filterMap_congr fun item _ ↦ ?_
  cases item with
  | event e =>
    rw [Item.isMisleading, Option.not_isSome]
    rfl
  | watermark w hash =>
    show (if (watermarkOfPayload? (watermarkPayload w)).isNone = true then _ else none) = none
    rw [watermarkOfPayload?_watermarkPayload]
    rfl

/-- The view of the watermarks takes in the misleading ones. -/
theorem watermarks_eq (h : m.log.toList.map (·.record) = items.map Item.record) :
    m.watermarks = (m.log.toList.zip items).filterMap fun x ↦
      (watermarkOfPayload? x.2.record.payload).map (x.1.partition, ·) := by
  have hlength : m.log.toList.length = items.length := by simpa using congrArg List.length h
  have hfirst := List.map_fst_zip (Nat.le_of_eq hlength)
  have hsecond := List.map_snd_zip (Nat.le_of_eq hlength.symm)
  -- an entry and its item are of one record
  have hsame : ∀ x ∈ m.log.toList.zip items, x.1.record = x.2.record := by
    refine List.map_inj_left.1 ?_
    rw [← Function.comp_def LogEntry.record, ← Function.comp_def Item.record, ← List.map_map, ← List.map_map,
      hfirst, hsecond]
    exact h
  rw [watermarks]
  conv_lhs => rw [← hfirst]
  rw [List.filterMap_map]
  refine List.filterMap_congr fun x hx ↦ ?_
  rw [← hsame x hx]
  rfl

/-- If the events of both lists are the same, none is misleading. -/
theorem not_misleading_of_eq
    (h : (items.filter (!·.isMisleading)).filterMap Item.payload? = items.filterMap Item.payload?) :
    ∀ item ∈ items, item.isMisleading = false := by
  have hsplit := ((List.filter_append_perm Item.isMisleading items).filterMap Item.payload?).length_eq
  rw [List.filterMap_append, List.length_append, h] at hsplit
  have hnone : (items.filter Item.isMisleading).filterMap Item.payload? = [] :=
    List.eq_nil_of_length_eq_zero (by omega)
  intro item hitem
  refine Bool.eq_false_iff.2 fun hmisleading ↦ ?_
  have hpayload := List.filterMap_eq_nil_iff.1 hnone item (List.mem_filter.2 ⟨hitem, hmisleading⟩)
  cases item with
  | event e => exact nomatch hpayload
  | watermark w hash => exact nomatch hmisleading

/-- The views tell what was written if and only if nothing misleading was. -/
theorem tells_iff (h : m.log.toList.map (·.record) = items.map Item.record) :
    m.Tells items ↔ ∀ item ∈ items, item.isMisleading = false := by
  constructor
  · intro htells
    exact not_misleading_of_eq ((eventPayloads_eq h).symm.trans htells.events)
  · intro hplain
    constructor
    · rw [eventPayloads_eq h, List.filter_eq_self.2 fun item hitem ↦ by rw [hplain item hitem]; rfl]
    · rw [watermarks_eq h]
      refine List.filterMap_congr fun x hx ↦ ?_
      rw [Item.read_record (hplain x.2 (List.of_mem_zip hx).2)]

end Written

/-- An event that says it is a watermark. -/
def masked : Event :=
  .ofPayload ⟨10, by decide, by decide⟩ "\x7b\"type\":\"watermark\",\"watermark\":5\x7d".toUTF8 0

/-- It is submitted to a stream of one partition, and is taken for a watermark there. -/
theorem event_taken_for_watermark :
    let m := ((create 1).submit 0 (.ofEvent masked)).2
    m.log.toList.map (·.record) = [.ofEvent masked] ∧ m.eventPayloads = [] ∧
      m.watermarks = [("shardId-000000000000", ⟨5, by decide, by decide⟩)] := by
  have htaken : ¬ (create 1).RefusesSubmit (.ofEvent masked) := by
    rintro (hfail | ⟨fault, hfault⟩)
    · exact absurd hfail (Nat.lt_irrefl 0)
    · exact nomatch hfault
  obtain ⟨e, hwrites⟩ := submit_of_takes ⟨1, 0, by decide, rfl⟩ htaken 0
  have hlog : ((create 1).submit 0 (.ofEvent masked)).2.log.toList = [e] := by
    rw [hwrites.log]
    rfl
  have hrecord : e.record = .ofEvent masked := hwrites.becomes.kept
  have hpartition : e.partition = "shardId-000000000000" := by
    obtain ⟨h, p, -, hfind, hname⟩ := hwrites.becomes.routed
    have hnames : ∀ q ∈ (create 1).partitions, q.name = "shardId-000000000000" := by decide
    exact hname.trans (hnames p (List.mem_of_find?_eq_some hfind))
  have hread : e.watermark? = some ⟨5, by decide, by decide⟩ := by
    rw [LogEntry.watermark?, hrecord]
    exact watermarkOfPayload?_watermarkPayload ⟨5, by decide, by decide⟩
  dsimp only
  rw [eventPayloads, watermarks, hlog]
  simp [hrecord, hread, hpartition]

/-! ### The views of a course -/

namespace Traffic

/-- What the log holds are the records of the calls that wrote. -/
theorem records_run (partitions pageSize : Nat) (policy : AckPolicy) (acts : List Act) :
    let t := (start partitions pageSize policy).run acts
    t.stream.log.toList.map (·.record) = t.writings.map (·.record) := by
  refine of_moves (P := fun t ↦ t.stream.log.toList.map (·.record) = t.writings.map (·.record))
    (fun _ hmove h ↦ ?_) rfl
  cases hmove.books with
  | kept hlog _ hwritings => rw [hlog, hwritings, h]
  | written caller record e hbecomes hlog _ hwritings =>
    rw [hlog, hwritings, Array.toList_push, List.map_append, List.map_append, h, List.map_singleton,
      List.map_singleton, hbecomes.kept]

/-- What was written was handed to the stream. -/
theorem hands_of_mem_writings (partitions pageSize : Nat) (policy : AckPolicy) (acts : List Act) :
    ∀ w ∈ ((start partitions pageSize policy).run acts).writings, ∃ a ∈ acts, a.Hands w.record := by
  refine of_moves (P := fun t ↦ ∀ w ∈ t.writings, ∃ a ∈ acts, a.Hands w.record) (fun ha hmove h w hw ↦ ?_) nofun
  cases hmove.books with
  | kept _ _ hwritings => exact h w (hwritings ▸ hw)
  | written caller record e _ _ _ hwritings _ _ _ hact =>
    rw [hwritings] at hw
    rcases List.mem_append.1 hw with hold | hnew
    · exact h w hold
    · rw [List.mem_singleton.1 hnew]
      exact ⟨_, ha, hact⟩

/-- What the views of a stream are worth that was handed records of items only. -/
structure Viewed (t : Traffic) : Prop where
  /-- A watermark record in the log reads as its watermark. -/
  marked : ∀ e ∈ t.stream.log, ∀ w hash, e.record = .ofWatermark w hash → e.watermark? = some w
  /-- What was written are items, and the views tell them unless one is misleading. -/
  made : ∃ items : List Item, t.writings.map (·.record) = items.map Item.record
  told : ∀ items : List Item, t.writings.map (·.record) = items.map Item.record →
    (t.stream.Tells items ↔ ∀ item ∈ items, item.isMisleading = false)

/-- However a stream is called with events and watermarks, its watermark records read as their watermarks, and its
views tell what was written if and only if no event is misleading. -/
theorem views_exact_iff (partitions pageSize : Nat) (policy : AckPolicy) {acts : List Act}
    (hacts : ∀ a ∈ acts, ∀ record, a.Hands record → ∃ item, Item.record item = record) :
    ((start partitions pageSize policy).run acts).Viewed where
  marked e _ w hash he := by
    rw [LogEntry.watermark?, he]
    exact watermarkOfPayload?_watermarkPayload w
  made := by
    -- each of the records is in the range of `Item.record`, so a list of them is one of items
    have hmade : ∀ record ∈ ((start partitions pageSize policy).run acts).writings.map (·.record),
        record ∈ Set.range Item.record := by
      intro record hrecord
      obtain ⟨w, hw, rfl⟩ := List.mem_map.1 hrecord
      obtain ⟨a, ha, hhands⟩ := hands_of_mem_writings partitions pageSize policy acts w hw
      exact hacts a ha w.record hhands
    obtain ⟨items, hitems⟩ := (Set.range_list_map Item.record).symm.subset hmade
    exact ⟨items, hitems.symm⟩
  told items hitems := tells_iff ((records_run partitions pageSize policy acts).trans hitems)

/-- A watermark is put after an event was submitted. -/
def eventAndMarker : List Act :=
  [.submit (.ofEvent (.ofPayload default "a".toUTF8 0)), .put (.ofWatermark default "0")]

/-- Neither record misleads the views. -/
theorem views_exact_iff_eventAndMarker :
    (∀ a ∈ eventAndMarker, ∀ record, a.Hands record → ∃ item, Item.record item = record) ∧
      ((start 1 100 .immediate).run eventAndMarker).Viewed := by
  have hacts : ∀ a ∈ eventAndMarker, ∀ record, a.Hands record → ∃ item, Item.record item = record := by
    intro a ha record hhands
    rw [eventAndMarker, List.mem_pair] at ha
    rcases ha with rfl | rfl
    · obtain h | h := hhands
      · cases h
        exact ⟨.event _, rfl⟩
      · exact nomatch h
    · obtain h | h := hhands
      · exact nomatch h
      · cases h
        exact ⟨.watermark _ _, rfl⟩
  exact ⟨hacts, views_exact_iff 1 100 .immediate hacts⟩

end Traffic

end InMemory

end Tidemark
