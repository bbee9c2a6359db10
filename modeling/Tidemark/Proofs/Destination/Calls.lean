import Tidemark.Destination.InMemory

/-!
# What the calls of a stream come to

Each call of a stream in memory is told once, with all that it may come to (`Puts`, `Submits`,
`release_cases`):

```
put       refused                the stream stands still
          written                the entry is appended, and acknowledged at once
submit    refused                the stream stands still
          written                the entry is appended, and acknowledged by the policy:
                                 at once, after a delay, or when it is released
list                             the stream stands still
release   out of range           nothing
          within                 one held acknowledgement is taken out
```

A refused call has used up an injected failure, or it has a record that becomes no entry (`Becomes`).
-/

namespace Tidemark

/-- The acknowledgement that names an entry. -/
def LogEntry.ack (e : LogEntry) : Ack :=
  ⟨e.partition, some (toString e.sequence)⟩

namespace InMemory

/-- All is the same but for the injections and the counts of calls. -/
structure Still (m m' : InMemory) : Prop where
  log : m'.log = m.log
  sequence : m'.sequence = m.sequence
  held : m'.held = m.held
  partitions : m'.partitions = m.partitions
  nextNumber : m'.nextNumber = m.nextNumber
  ackPolicy : m'.ackPolicy = m.ackPolicy
  pageSize : m'.pageSize = m.pageSize

/-- The entry that a record becomes when it is written: the next one, in the first partition that holds its
hash. -/
structure Becomes (m : InMemory) (record : Record) (e : LogEntry) : Prop where
  kept : e.record = record
  numbered : e.sequence = m.sequence + 1
  routed : ∃ h p, hash record.routing = .ok h ∧ m.partitions.find? (·.holds h) = some p ∧ e.partition = p.name

/-- The record was appended to the log as this entry. Whether its acknowledgement is held is left open. -/
structure Writes (m m' : InMemory) (record : Record) (e : LogEntry) : Prop where
  becomes : m.Becomes record e
  log : m'.log = m.log.push e
  sequence : m'.sequence = e.sequence
  partitions : m'.partitions = m.partitions
  nextNumber : m'.nextNumber = m.nextNumber
  ackPolicy : m'.ackPolicy = m.ackPolicy
  pageSize : m'.pageSize = m.pageSize

/-- What a put comes to. -/
inductive Puts (m : InMemory) (record : Record) : Outcome × InMemory → Prop
  | refused (fault : Fault) (m' : InMemory) (hstill : m.Still m')
      (hwhy : 0 < m.injections.throttlePuts ∨ 0 < m.injections.failPuts ∨ ∀ e, ¬ m.Becomes record e) :
      Puts m record (.error fault, m')
  | written (e : LogEntry) (m' : InMemory) (hwrites : m.Writes m' record e) (hheld : m'.held = m.held)
      (hcalm : m.injections.throttlePuts = 0 ∧ m.injections.failPuts = 0) : Puts m record (.ok e.ack, m')

/-- What a submission comes to. -/
inductive Submits (m : InMemory) (handle : Nat) (record : Record) : Submission × InMemory → Prop
  | refused (fault : Fault) (m' : InMemory) (hstill : m.Still m')
      (hwhy : 0 < m.injections.failSubmits ∨ ∀ e, ¬ m.Becomes record e) :
      Submits m handle record (.settled (.error fault), m')
  | immediate (e : LogEntry) (m' : InMemory) (hwrites : m.Writes m' record e) (hheld : m'.held = m.held)
      (hcalm : m.injections.failSubmits = 0) (hpolicy : m.ackPolicy = .immediate) :
      Submits m handle record (.settled (.ok e.ack), m')
  | delayed (e : LogEntry) (m' : InMemory) (hwrites : m.Writes m' record e) (hheld : m'.held = m.held)
      (hcalm : m.injections.failSubmits = 0) (d : Span) (hpolicy : m.ackPolicy = .delayed d) :
      Submits m handle record (.delayed d e.ack, m')
  | held (e : LogEntry) (m' : InMemory) (hwrites : m.Writes m' record e)
      (hheld : m'.held = m.held ++ [⟨handle, e.ack⟩]) (hcalm : m.injections.failSubmits = 0)
      (hpolicy : m.ackPolicy = .manual) : Submits m handle record (.held, m')

variable (m : InMemory)

/-- Failures that are used up and calls that are counted are no trace. -/
theorem still_counted (injections : Injections) (listCalls putCalls : Nat) :
    m.Still { m with injections, listCalls, putCalls } :=
  ⟨rfl, rfl, rfl, rfl, rfl, rfl, rfl⟩

variable {m} in
/-- A record is written when it is appended as the entry that it becomes. -/
theorem Becomes.writes {record : Record} {e : LogEntry} (he : m.Becomes record e) (held : List HeldAck)
    (putCalls : Nat) :
    m.Writes { m with log := m.log.push e, sequence := e.sequence, held, putCalls } record e :=
  ⟨he, rfl, rfl, rfl, rfl, rfl, rfl⟩

/-- To write a record appends it, or is refused without a trace. -/
theorem write_cases (record : Record) :
    (∃ e, m.Becomes record e ∧ m.write record = (.ok e.ack, { m with log := m.log.push e, sequence := e.sequence })) ∨
      (∀ e, ¬ m.Becomes record e) ∧ ∃ fault, m.write record = (.error fault, m) := by
  rw [write]
  cases hhash : hash record.routing with
  | error fault =>
    refine Or.inr ⟨fun e he ↦ ?_, fault, rfl⟩
    obtain ⟨h, p, hrouted, -⟩ := he.routed
    exact nomatch hhash.symm.trans hrouted
  | ok h =>
    dsimp only
    cases hfind : m.partitions.find? (·.holds h) with
    | none =>
      refine Or.inr ⟨fun e he ↦ ?_, _, rfl⟩
      obtain ⟨h', p, hrouted, hfound, -⟩ := he.routed
      obtain rfl := Except.ok.inj (hhash.symm.trans hrouted)
      exact nomatch hfind.symm.trans hfound
    | some p => exact Or.inl ⟨⟨p.name, m.sequence + 1, record⟩, ⟨rfl, rfl, h, p, hhash, hfind, rfl⟩, rfl⟩

theorem puts_put (record : Record) : m.Puts record (m.put record) := by
  rw [put]
  dsimp only
  by_cases hthrottle : 0 < m.injections.throttlePuts
  · rw [if_pos hthrottle]
    exact .refused _ _ (m.still_counted _ _ _) (Or.inl hthrottle)
  rw [if_neg hthrottle]
  by_cases hfail : 0 < m.injections.failPuts
  · rw [if_pos hfail]
    exact .refused _ _ (m.still_counted _ _ _) (Or.inr (Or.inl hfail))
  rw [if_neg hfail]
  rcases write_cases { m with putCalls := m.putCalls + 1 } record with ⟨e, he, hwrite⟩ | ⟨hunfit, fault, hwrite⟩
  · rw [hwrite]
    have hbecomes : m.Becomes record e := ⟨he.kept, he.numbered, he.routed⟩
    exact .written e _ (hbecomes.writes _ _) rfl ⟨Nat.eq_zero_of_not_pos hthrottle, Nat.eq_zero_of_not_pos hfail⟩
  · rw [hwrite]
    refine .refused fault _ (m.still_counted _ _ _) (Or.inr (Or.inr fun e he ↦ hunfit e ?_))
    exact ⟨he.kept, he.numbered, he.routed⟩

/-- A put leaves the log alone or writes its record. -/
theorem still_or_writes_put (record : Record) :
    m.Still (m.put record).2 ∨ ∃ e, m.Writes (m.put record).2 record e := by
  have hputs := m.puts_put record
  generalize m.put record = x at hputs ⊢
  cases hputs with
  | refused fault m' hstill => exact Or.inl hstill
  | written e m' hwrites => exact Or.inr ⟨e, hwrites⟩

theorem submits_submit (handle : Nat) (record : Record) :
    m.Submits handle record (m.submit handle record) := by
  rw [submit]
  by_cases hfail : 0 < m.injections.failSubmits
  · rw [if_pos hfail]
    exact .refused _ _ (m.still_counted _ _ _) (Or.inl hfail)
  have hcalm : m.injections.failSubmits = 0 := Nat.eq_zero_of_not_pos hfail
  rw [if_neg hfail]
  rcases m.write_cases record with ⟨e, he, hwrite⟩ | ⟨hunfit, fault, hwrite⟩
  · rw [hwrite]
    dsimp only
    split
    · rename_i hpolicy
      exact .immediate e _ (he.writes _ _) rfl hcalm hpolicy
    · rename_i d hpolicy
      exact .delayed e _ (he.writes m.held m.putCalls) rfl hcalm d hpolicy
    · rename_i hpolicy
      exact .held e _ (he.writes _ _) rfl hcalm hpolicy
  · rw [hwrite]
    exact .refused fault _ (m.still_counted _ _ _) (Or.inr hunfit)

/-- A submission leaves the log alone or writes its record. -/
theorem still_or_writes_submit (handle : Nat) (record : Record) :
    m.Still (m.submit handle record).2 ∨ ∃ e, m.Writes (m.submit handle record).2 record e := by
  have hsubmits := m.submits_submit handle record
  generalize m.submit handle record = x at hsubmits ⊢
  cases hsubmits with
  | refused fault m' hstill => exact Or.inl hstill
  | immediate e m' hwrites => exact Or.inr ⟨e, hwrites⟩
  | delayed e m' hwrites => exact Or.inr ⟨e, hwrites⟩
  | held e m' hwrites => exact Or.inr ⟨e, hwrites⟩

/-- A listing leaves everything alone but the injections and its count. -/
theorem still_list (token : Option String) : m.Still (m.list token).2 := by
  rw [list]
  dsimp only
  split
  · exact m.still_counted _ _ _
  · split
    · exact m.still_counted _ _ _
    · split <;> exact m.still_counted _ _ _

/-- The outcome that a held acknowledgement is released with. -/
def releasedAs (ack : Ack) (success : Bool) : Outcome :=
  if success then .ok ack else .error (.destination .releasedAsFailed)

/-- A release takes out the held acknowledgement at an index, or changes nothing. -/
theorem release_cases (index : Nat) (success : Bool) :
    (m.held.length ≤ index ∧ m.release index success = (none, m)) ∨
      ∃ x, m.held[index]? = some x ∧ m.release index success =
        (some (x.handle, releasedAs x.ack success), { m with held := m.held.eraseIdx index }) := by
  rw [release]
  cases hget : m.held[index]? with
  | none => exact Or.inl ⟨List.getElem?_eq_none_iff.1 hget, rfl⟩
  | some x => exact Or.inr ⟨x, rfl, rfl⟩

end InMemory

end Tidemark
