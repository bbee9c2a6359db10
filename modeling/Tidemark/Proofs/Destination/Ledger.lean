import Mathlib.Data.List.Nodup
import Mathlib.Data.List.Perm.Basic
import Tidemark.Proofs.Destination.Refusals
import Tidemark.Proofs.Destination.Traffic

/-!
# The books of a stream

Whoever hands a record to a stream is answered, or has an acknowledgement to come, and that only once
(`Accounted`). What a move comes to in the books is one of two things (`Books`): they stay as they are, or one
call writes its record and its acknowledgement is new. Refusals, answers and flushes leave no trace in them.

```
writings    w₁  w₂  w₃ ...      the calls that wrote, each with the partitions that it found
log         e₁  e₂  e₃ ...      eᵢ has number i, the record of wᵢ, and the partition of its hash among these
acks        (caller of wᵢ, partition and number of eᵢ)
```

So the writings lie beside the log (`Ledger`): each entry is what the call at its place has written, and an
acknowledgement names the entry of its caller. As nobody calls twice, no two of them name the same entry
(`Ledger.distinct`). The number of partitions is a 64-bit word, so that there are hashes enough for all of them.
-/

namespace Tidemark.InMemory.Traffic

variable {t t' : Traffic} {a : Act}

/-! ### Who is answered -/

/-- All who have called with a record. -/
def callers (t : Traffic) : List Caller :=
  (List.range t.puts).map .put ++ (List.range t.submitted).map .submission

/-- The acknowledgements that have yet to come, and to whom. -/
def pending (t : Traffic) : List (Caller × Ack) :=
  t.delayed.map (fun x ↦ (.submission x.1, x.2)) ++
    t.stream.held.map fun x ↦ (.submission x.handle, x.ack)

/-- All callers are answered or have an acknowledgement to come, each of them once. -/
def Accounted (t : Traffic) : Prop :=
  (t.answers.map Prod.fst ++ t.pending.map Prod.fst).Perm t.callers

/-- The next caller is one more among the callers. -/
theorem callers_counted {caller : Caller} (hnext : t.IsNext caller) :
    (t.counted caller).callers.Perm (caller :: t.callers) := by
  cases caller with
  | put n =>
    rw [show n = t.puts from hnext, counted, callers, List.range_succ, List.map_append, List.append_assoc]
    exact List.perm_middle
  | submission handle =>
    rw [show handle = t.submitted from hnext, counted, callers, List.range_succ, List.map_append,
      ← List.append_assoc]
    exact List.perm_append_singleton ..

/-- A new caller is answered. -/
theorem Accounted.answered (h : t.Accounted) (caller : Caller) (outcome : Outcome)
    (hanswers : t'.answers = t.answers ++ [(caller, outcome)]) (hpending : t'.pending = t.pending)
    (hcallers : t'.callers.Perm (caller :: t.callers)) : t'.Accounted := by
  rw [Accounted, hanswers, hpending, List.map_append, List.append_assoc]
  exact (List.perm_middle.trans (h.cons caller)).trans hcallers.symm

/-- A new caller is to be answered later. -/
theorem Accounted.deferred (h : t.Accounted) (caller : Caller) (ack : Ack)
    (hanswers : t'.answers = t.answers) (hpending : t'.pending.Perm ((caller, ack) :: t.pending))
    (hcallers : t'.callers.Perm (caller :: t.callers)) : t'.Accounted := by
  rw [Accounted, hanswers]
  have hlater : (t'.pending.map Prod.fst).Perm (caller :: t.pending.map Prod.fst) := hpending.map Prod.fst
  exact (((hlater.append_left _).trans List.perm_middle).trans (h.cons caller)).trans hcallers.symm

/-- Callers who waited are answered. -/
theorem Accounted.settled (h : t.Accounted) {settled : List (Caller × Outcome)}
    (hanswers : t'.answers = t.answers ++ settled)
    (hpending : (settled.map Prod.fst ++ t'.pending.map Prod.fst).Perm (t.pending.map Prod.fst))
    (hcallers : t'.callers = t.callers) : t'.Accounted := by
  rw [Accounted, hanswers, hcallers, List.map_append, List.append_assoc]
  exact (hpending.append_left _).trans h

theorem accounted_start (partitions pageSize : Nat) (policy : AckPolicy) :
    (start partitions pageSize policy).Accounted :=
  .refl _

/-- What is pending is what is delayed and what is held. -/
theorem pending_eq (hdelayed : t'.delayed = t.delayed) (hheld : t'.stream.held = t.stream.held) :
    t'.pending = t.pending := by
  rw [pending, pending, hdelayed, hheld]

/-- Whoever waits has a delayed acknowledgement or a held one. -/
theorem map_fst_pending (t : Traffic) :
    t.pending.map Prod.fst =
      t.delayed.map (fun x ↦ .submission x.1) ++ t.stream.held.map fun x ↦ .submission x.handle := by
  rw [pending, List.map_append, List.map_map, List.map_map]
  rfl

/-- Callers stay accounted for when nothing changes for them. -/
theorem Accounted.same (h : t.Accounted) (hanswers : t'.answers = t.answers) (hpending : t'.pending = t.pending)
    (hcallers : t'.callers = t.callers) : t'.Accounted := by
  rw [Accounted, hanswers, hpending, hcallers]
  exact h

theorem Accounted.move (h : t.Accounted) (hmove : t.Move a t') : t'.Accounted := by
  cases hmove with
  | still stream hstill => exact h.same rfl (pending_eq rfl hstill.held) rfl
  | reshard | flush | cleared | flushed | abandon => exact h.same rfl rfl rfl
  | refused caller hnext fault stream hstill =>
    exact h.answered caller (.error fault) (by simp [answer]) (pending_eq (by simp [answer]) hstill.held)
      (callers_counted hnext)
  | written caller hnext record e stream hwrites hheld =>
    exact h.answered caller (.ok e.ack) (by simp [answer, wrote])
      (pending_eq (by simp [answer, wrote]) hheld) (callers_counted hnext)
  | delayed record e stream hwrites hheld =>
    refine h.deferred (.submission t.submitted) e.ack rfl ?_ (callers_counted rfl)
    show (List.map _ (t.delayed ++ [_]) ++ List.map _ stream.held).Perm _
    rw [hheld, List.map_append, List.append_assoc]
    exact List.perm_middle
  | held record e stream hwrites hheld =>
    refine h.deferred (.submission t.submitted) e.ack rfl ?_ (callers_counted rfl)
    show (List.map _ t.delayed ++ List.map _ stream.held).Perm _
    rw [hheld, List.map_append, ← List.append_assoc]
    exact List.perm_append_singleton ..
  | release index success x hget =>
    obtain ⟨hlt, rfl⟩ := List.getElem?_eq_some_iff.1 hget
    have hout := (List.getElem_cons_eraseIdx_perm hlt).map fun x ↦ Caller.submission x.handle
    refine h.settled rfl ?_ rfl
    rw [map_fst_pending, map_fst_pending]
    show (Caller.submission _ :: (t.delayed.map _ ++ (t.stream.held.eraseIdx index).map _)).Perm _
    exact List.perm_middle.symm.trans (hout.append_left _)
  | releaseAll =>
    refine h.settled rfl ?_ rfl
    rw [map_fst_pending, map_fst_pending, List.map_map]
    show (t.stream.held.map _ ++ (t.delayed.map _ ++ [])).Perm _
    rw [List.append_nil]
    exact List.perm_append_comm
  | arrive index handle ack hget =>
    obtain ⟨hlt, hx⟩ := List.getElem?_eq_some_iff.1 hget
    have hout := (List.getElem_cons_eraseIdx_perm hlt).map fun x ↦ Caller.submission x.1
    rw [hx] at hout
    refine h.settled rfl ?_ rfl
    rw [map_fst_pending, map_fst_pending]
    exact hout.append_right _

/-! ### What is written -/

/-- The acknowledgements that have come and those that have yet to, and to whom. -/
def acks (t : Traffic) : List (Caller × Ack) :=
  t.answers.filterMap (fun x ↦ x.2.toOption.map (x.1, ·)) ++ t.pending

/-- An acknowledgement has come or is yet to come. -/
theorem mem_acks {x : Caller × Ack} : x ∈ t.acks ↔ (x.1, Except.ok x.2) ∈ t.answers ∨ x ∈ t.pending := by
  obtain ⟨caller, ack⟩ := x
  rw [acks, List.mem_append, List.mem_filterMap]
  refine or_congr_left ⟨?_, fun h ↦ ⟨_, h, rfl⟩⟩
  rintro ⟨⟨caller', outcome⟩, hmem, hack⟩
  cases outcome with
  | error fault => exact nomatch hack
  | ok ack' =>
    cases hack
    exact hmem

/-- An acknowledgement that is yet to come is delayed or held. -/
theorem mem_pending {x : Caller × Ack} :
    x ∈ t.pending ↔ (∃ y ∈ t.delayed, (.submission y.1, y.2) = x) ∨
      ∃ y ∈ t.stream.held, (.submission y.handle, y.ack) = x := by
  rw [pending, List.mem_append, List.mem_map, List.mem_map]

theorem mem_pending_of_held {x : HeldAck} (hx : x ∈ t.stream.held) : (.submission x.handle, x.ack) ∈ t.pending :=
  mem_pending.2 (Or.inr ⟨x, hx, rfl⟩)

theorem mem_pending_of_delayed {x : Nat × Ack} (hx : x ∈ t.delayed) : (.submission x.1, x.2) ∈ t.pending :=
  mem_pending.2 (Or.inl ⟨x, hx, rfl⟩)

/-- What becomes of the books in a move: they stay as they are, or one call writes its record. -/
inductive Books (t : Traffic) (a : Act) (t' : Traffic) : Prop
  | kept (hlog : t'.stream.log = t.stream.log) (hsequence : t'.stream.sequence = t.stream.sequence)
      (hwritings : t'.writings = t.writings)
      (hpartitions : t'.stream.partitions = t.stream.partitions ∨
        ∃ n, a = .reshard n ∧ t'.stream.partitions = Partition.topology n t.stream.nextNumber)
      (hacks : ∀ x ∈ t'.acks, x ∈ t.acks) (hcallers : ∀ caller ∈ t.callers, caller ∈ t'.callers)
  | written (caller : Caller) (record : Record) (e : LogEntry) (hbecomes : t.stream.Becomes record e)
      (hlog : t'.stream.log = t.stream.log.push e) (hsequence : t'.stream.sequence = e.sequence)
      (hwritings : t'.writings = t.writings ++ [⟨caller, record, t.stream.partitions⟩])
      (hpartitions : t'.stream.partitions = t.stream.partitions)
      (hacks : ∀ x ∈ t'.acks, x = (caller, e.ack) ∨ x ∈ t.acks)
      (hcallers : t'.callers.Perm (caller :: t.callers)) (hact : a.Hands record)

/-- The acknowledgements are those of the answers and the pending ones. -/
theorem acks_of_same (hanswers : t'.answers = t.answers) (hpending : t'.pending = t.pending) :
    t'.acks = t.acks := by
  rw [acks, acks, hanswers, hpending]

/-- An answer that is no acknowledgement adds none. -/
theorem acks_of_refused (caller : Caller) (fault : Fault)
    (hanswers : t'.answers = t.answers ++ [(caller, .error fault)]) (hpending : t'.pending = t.pending) :
    t'.acks = t.acks := by
  rw [acks, acks, hanswers, hpending, List.filterMap_append]
  exact congrArg (· ++ t.pending) (List.append_nil _)

/-- An answer adds the acknowledgement that it brings. -/
theorem mem_acks_of_answered {caller : Caller} {ack : Ack}
    (hanswers : t'.answers = t.answers ++ [(caller, .ok ack)]) (hpending : t'.pending = t.pending)
    {x : Caller × Ack} (hx : x ∈ t'.acks) : x = (caller, ack) ∨ x ∈ t.acks := by
  rw [mem_acks, hanswers, hpending, List.mem_append, List.mem_singleton, Prod.mk.injEq, Except.ok.injEq] at hx
  rw [mem_acks]
  rcases hx with (hold | ⟨hcaller, hack⟩) | hpending
  · exact Or.inr (Or.inl hold)
  · exact Or.inl (Prod.ext hcaller hack)
  · exact Or.inr (Or.inr hpending)

/-- What settles had its acknowledgement to come. -/
theorem mem_acks_of_settled {settled : List (Caller × Outcome)} (hanswers : t'.answers = t.answers ++ settled)
    (hsettled : ∀ caller ack, (caller, Except.ok ack) ∈ settled → (caller, ack) ∈ t.pending)
    (hpending : ∀ x ∈ t'.pending, x ∈ t.pending) {x : Caller × Ack} (hx : x ∈ t'.acks) : x ∈ t.acks := by
  rw [mem_acks, hanswers, List.mem_append] at hx
  rw [mem_acks]
  rcases hx with (hold | hnew) | hlater
  · exact Or.inl hold
  · exact Or.inr (hsettled _ _ hnew)
  · exact Or.inr (hpending _ hlater)

/-- A caller who waits adds the acknowledgement that is to come. -/
theorem mem_acks_of_deferred (caller : Caller) (ack : Ack) (hanswers : t'.answers = t.answers)
    (hpending : ∀ x ∈ t'.pending, x = (caller, ack) ∨ x ∈ t.pending) {x : Caller × Ack} (hx : x ∈ t'.acks) :
    x = (caller, ack) ∨ x ∈ t.acks := by
  rw [mem_acks, hanswers] at hx
  rw [mem_acks]
  rcases hx with hold | hlater
  · exact Or.inr (Or.inl hold)
  · exact (hpending x hlater).imp_right Or.inr

/-- A move leaves the books as they are, or writes the record of one call. -/
theorem Move.books (h : t.Move a t') : t.Books a t' := by
  cases h with
  | still stream hstill =>
    have hacks : acks { t with stream } = t.acks := acks_of_same rfl (pending_eq rfl hstill.held)
    exact .kept hstill.log hstill.sequence rfl (Or.inl hstill.partitions) (fun _ hx ↦ hacks ▸ hx) fun _ h ↦ h
  | reshard n hact => exact .kept rfl rfl rfl (Or.inr ⟨n, hact, rfl⟩) (fun _ h ↦ h) fun _ h ↦ h
  | flush | cleared | flushed | abandon => exact .kept rfl rfl rfl (Or.inl rfl) (fun _ h ↦ h) fun _ h ↦ h
  | refused caller hnext fault stream hstill =>
    refine .kept hstill.log hstill.sequence (by simp [answer]) (Or.inl hstill.partitions) (fun x hx ↦ ?_) fun _ h ↦
      (callers_counted hnext).symm.subset (List.mem_cons_of_mem _ h)
    rwa [acks_of_refused caller fault (t := t) (by simp [answer]) (pending_eq (by simp [answer]) hstill.held)] at hx
  | written caller hnext record e stream hwrites hheld hact =>
    exact .written caller record e hwrites.becomes hwrites.log hwrites.sequence
      (by simp [answer, wrote]) hwrites.partitions
      (fun x ↦ mem_acks_of_answered (by simp [answer, wrote]) (pending_eq (by simp [answer, wrote]) hheld))
      (callers_counted hnext) hact
  | delayed record e stream hwrites hheld d hpolicy hact =>
    refine .written (.submission t.submitted) record e hwrites.becomes hwrites.log hwrites.sequence rfl
      hwrites.partitions (fun _ hx ↦ mem_acks_of_deferred (t := t) _ e.ack (by rfl) (fun x hx ↦ ?_) hx) (callers_counted rfl) hact
    rw [mem_pending] at hx ⊢
    rcases hx with ⟨y, hy, rfl⟩ | ⟨y, hy, rfl⟩
    · rcases List.mem_append.1 hy with hold | hnew
      · exact Or.inr (Or.inl ⟨y, hold, rfl⟩)
      · exact Or.inl (by rw [List.mem_singleton.1 hnew])
    · exact Or.inr (Or.inr ⟨y, hheld ▸ hy, rfl⟩)
  | held record e stream hwrites hheld hpolicy hact =>
    refine .written (.submission t.submitted) record e hwrites.becomes hwrites.log hwrites.sequence rfl
      hwrites.partitions (fun _ hx ↦ mem_acks_of_deferred (t := t) _ e.ack (by rfl) (fun x hx ↦ ?_) hx) (callers_counted rfl) hact
    rw [mem_pending] at hx ⊢
    rcases hx with ⟨y, hy, rfl⟩ | ⟨y, hy, rfl⟩
    · exact Or.inr (Or.inl ⟨y, hy, rfl⟩)
    · have hy' : y ∈ stream.held := hy
      rw [hheld] at hy'
      rcases List.mem_append.1 hy' with hold | hnew
      · exact Or.inr (Or.inr ⟨y, hold, rfl⟩)
      · exact Or.inl (by rw [List.mem_singleton.1 hnew])
  | release index success x hget =>
    have hx : x ∈ t.stream.held := List.mem_of_getElem? hget
    refine .kept rfl rfl rfl (Or.inl rfl) (fun _ ↦ mem_acks_of_settled rfl (fun caller ack h ↦ ?_) fun y hy ↦ ?_)
      fun _ h ↦ h
    · obtain ⟨rfl, hack⟩ := Prod.mk.inj (List.mem_singleton.1 h)
      rw [releasedAs] at hack
      split at hack
      · cases hack
        exact mem_pending_of_held hx
      · cases hack
    · rw [mem_pending] at hy ⊢
      refine hy.imp_right ?_
      rintro ⟨z, hz, he⟩
      exact ⟨z, List.mem_of_mem_eraseIdx hz, he⟩
  | releaseAll =>
    refine .kept rfl rfl rfl (Or.inl rfl) (fun _ ↦ mem_acks_of_settled rfl (fun caller ack h ↦ ?_) fun y hy ↦ ?_)
      fun _ h ↦ h
    · obtain ⟨x, hx, he⟩ := List.mem_map.1 h
      cases he
      exact mem_pending_of_held hx
    · rw [mem_pending] at hy ⊢
      refine hy.imp_right ?_
      rintro ⟨z, hz, -⟩
      exact absurd hz List.not_mem_nil
  | arrive index handle ack hget =>
    refine .kept rfl rfl rfl (Or.inl rfl) (fun _ ↦ mem_acks_of_settled rfl (fun caller ack h ↦ ?_) fun y hy ↦ ?_)
      fun _ h ↦ h
    · cases List.mem_singleton.1 h
      exact mem_pending_of_delayed (List.mem_of_getElem? hget)
    · rw [mem_pending] at hy ⊢
      refine hy.imp_left ?_
      rintro ⟨z, hz, he⟩
      exact ⟨z, List.mem_of_mem_eraseIdx hz, he⟩

/-! ### The log and the calls that wrote it -/

/-- The entry is what a call has written. It has this number and holds the record of the call, and of the
partitions that the call found its partition is the one that holds the hash of the record. -/
structure Entered (number : Nat) (w : Writing) (e : LogEntry) : Prop where
  numbered : e.sequence = number
  kept : e.record = w.record
  placed : ∃ h p, hash w.record.routing = .ok h ∧ p ∈ w.partitions ∧ p.holds h = true ∧
    (∀ q ∈ w.partitions, q.holds h = true → q = p) ∧ e.partition = p.name

/-- The acknowledgement names the entry that the call of its caller has written. -/
def Names (t : Traffic) (x : Caller × Ack) : Prop :=
  ∃ (i : Nat) (w : Writing) (e : LogEntry), t.writings[i]? = some w ∧ t.stream.log[i]? = some e ∧
    w.caller = x.1 ∧ x.2 = e.ack

/-- What is kept of the log and of the calls that wrote it. -/
structure Ledger (t : Traffic) : Prop where
  laidOut : IsTopology t.stream.partitions
  counted : t.stream.sequence = t.stream.log.size
  length : t.writings.length = t.stream.log.size
  entered : ∀ (i : Nat) (w : Writing) (e : LogEntry), t.writings[i]? = some w → t.stream.log[i]? = some e →
    Entered (i + 1) w e
  named : ∀ x ∈ t.acks, t.Names x
  known : ∀ w ∈ t.writings, w.caller ∈ t.callers
  once : (t.writings.map Writing.caller).Nodup

/-- No caller is counted twice. -/
theorem nodup_callers (t : Traffic) : t.callers.Nodup := by
  refine List.nodup_append.2 ⟨?_, ?_, ?_⟩
  · exact List.Nodup.map (fun _ _ h ↦ Caller.put.inj h) List.nodup_range
  · exact List.Nodup.map (fun _ _ h ↦ Caller.submission.inj h) List.nodup_range
  · rintro _ hput _ hsubmission rfl
    obtain ⟨n, -, rfl⟩ := List.mem_map.1 hput
    obtain ⟨handle, -, he⟩ := List.mem_map.1 hsubmission
    exact nomatch he

/-- The entry that a record becomes is what its call has written. -/
theorem entered_of_becomes {record : Record} {e : LogEntry} (hlaid : IsTopology t.stream.partitions)
    (h : t.stream.Becomes record e) (caller : Caller) :
    Entered (t.stream.sequence + 1) ⟨caller, record, t.stream.partitions⟩ e where
  numbered := h.numbered
  kept := h.kept
  placed := by
    obtain ⟨hash, p, hhash, hfind, hname⟩ := h.routed
    have hmem : p ∈ t.stream.partitions := List.mem_of_find?_eq_some hfind
    have hholds : p.holds hash = true := by simpa using List.find?_some hfind
    exact ⟨hash, p, hhash, hmem, hholds, fun q hq hqholds ↦ hlaid.eq_of_holds hq hmem hqholds hholds, hname⟩

theorem ledger_start {partitions : Nat} (hcount : partitions < positionBound) (pageSize : Nat)
    (policy : AckPolicy) : (start partitions pageSize policy).Ledger where
  laidOut := ⟨partitions, 0, hcount, rfl⟩
  counted := rfl
  length := rfl
  entered _ _ _ h := nomatch h
  named _ h := nomatch h
  known _ h := nomatch h
  once := List.nodup_nil

/-- An entry that a call writes goes to the end of the log. -/
theorem getElem?_written {w : Writing} {e : LogEntry} (h : t.Ledger)
    (hlog : t'.stream.log = t.stream.log.push e) (hwritings : t'.writings = t.writings ++ [w]) (i : Nat) :
    t'.writings[i]? = (if i = t.stream.log.size then some w else t.writings[i]?) ∧
      t'.stream.log[i]? = if i = t.stream.log.size then some e else t.stream.log[i]? := by
  rw [hlog, hwritings, Array.getElem?_push, List.getElem?_append, ← h.length]
  refine ⟨?_, rfl⟩
  by_cases hlt : i < t.writings.length
  · rw [if_pos hlt, if_neg (Nat.ne_of_lt hlt)]
  · rw [if_neg hlt, List.getElem?_singleton, List.getElem?_eq_none (Nat.le_of_not_lt hlt)]
    exact if_congr (by omega) rfl rfl

/-- The ledger is kept when a record is written, and when none is. -/
theorem Ledger.books (h : t.Ledger) (hbooks : t.Books a t') (hsize : ∀ n, a = .reshard n → n < positionBound) :
    t'.Ledger := by
  cases hbooks with
  | kept hlog hsequence hwritings hpartitions hacks hcallers =>
    constructor
    · rcases hpartitions with hsame | ⟨n, hact, hnew⟩
      · rw [hsame]
        exact h.laidOut
      · exact ⟨n, _, hsize n hact, hnew⟩
    · rw [hsequence, hlog]
      exact h.counted
    · rw [hwritings, hlog]
      exact h.length
    · rw [hwritings, hlog]
      exact h.entered
    · intro x hx
      rw [Names, hwritings, hlog]
      exact h.named x (hacks x hx)
    · rw [hwritings]
      exact fun w hw ↦ hcallers _ (h.known w hw)
    · rw [hwritings]
      exact h.once
  | written caller record e hbecomes hlog hsequence hwritings hpartitions hacks hcallers =>
    have hget := getElem?_written h hlog hwritings
    have hfresh : caller ∉ t.callers := (List.nodup_cons.1 (hcallers.nodup_iff.1 t'.nodup_callers)).1
    constructor
    · exact hpartitions ▸ h.laidOut
    · rw [hsequence, hbecomes.numbered, hlog, Array.size_push, h.counted]
    · rw [hwritings, hlog, List.length_append, h.length, Array.size_push]
      rfl
    · intro i w e' hw he
      rw [(hget i).1] at hw
      rw [(hget i).2] at he
      split at hw
      · rename_i hi
        rw [if_pos hi] at he
        cases hw
        cases he
        rw [hi, ← h.counted]
        exact entered_of_becomes h.laidOut hbecomes caller
      · rename_i hi
        rw [if_neg hi] at he
        exact h.entered i w e' hw he
    · intro x hx
      rcases hacks x hx with rfl | hold
      · refine ⟨t.stream.log.size, _, e, (hget _).1.trans (if_pos rfl), (hget _).2.trans (if_pos rfl), rfl, rfl⟩
      · obtain ⟨i, w, e', hw, he, hcaller, hack⟩ := h.named x hold
        have hi : i ≠ t.stream.log.size := Nat.ne_of_lt (Array.getElem?_eq_some_iff.1 he).1
        exact ⟨i, w, e', (hget i).1.trans ((if_neg hi).trans hw), (hget i).2.trans ((if_neg hi).trans he),
          hcaller, hack⟩
    · rw [hwritings]
      intro w hw
      refine hcallers.symm.subset ?_
      rcases List.mem_append.1 hw with hold | hnew
      · exact List.mem_cons_of_mem _ (h.known w hold)
      · rw [List.mem_singleton.1 hnew]
        exact List.mem_cons_self
    · rw [hwritings, List.map_append]
      refine List.nodup_append.2 ⟨h.once, List.nodup_singleton _, ?_⟩
      rintro c hc _ hlast rfl
      obtain ⟨w, hw, rfl⟩ := List.mem_map.1 hc
      have hcaller : w.caller = caller := List.mem_singleton.1 hlast
      exact hfresh (hcaller ▸ h.known w hw)

theorem ledger_run {partitions : Nat} (hcount : partitions < positionBound) (pageSize : Nat)
    (policy : AckPolicy) {acts : List Act} (hacts : ∀ n, Act.reshard n ∈ acts → n < positionBound) :
    ((start partitions pageSize policy).run acts).Ledger :=
  of_moves (fun ha hmove h ↦ h.books hmove.books fun n hn ↦ hacts n (hn ▸ ha))
    (ledger_start hcount pageSize policy)

theorem accounted_run (partitions pageSize : Nat) (policy : AckPolicy) (acts : List Act) :
    ((start partitions pageSize policy).run acts).Accounted :=
  of_moves (fun _ hmove h ↦ h.move hmove) (accounted_start partitions pageSize policy)

/-- The log grows at its end. -/
theorem log_prefix_run (t : Traffic) (acts : List Act) :
    t.stream.log.toList <+: (t.run acts).stream.log.toList := by
  refine of_moves (P := fun u ↦ t.stream.log.toList <+: u.stream.log.toList) (fun _ hmove h ↦ ?_)
    (List.prefix_refl _)
  cases hmove.books with
  | kept hlog => exact hlog ▸ h
  | written _ _ e _ hlog =>
    rw [hlog, Array.toList_push]
    exact h.trans (List.prefix_append _ [e])

/-- Whoever has an acknowledgement, or one to come, has only this one. -/
theorem Accounted.nodup_acks (h : t.Accounted) : (t.acks.map Prod.fst).Nodup := by
  have hanswers : ((t.answers.filterMap fun x ↦ x.2.toOption.map (x.1, ·)).map Prod.fst).Sublist
      (t.answers.map Prod.fst) := by
    rw [List.map_filterMap]
    generalize t.answers = answers
    induction answers with
    | nil => exact .slnil
    | cons x rest ih =>
      obtain ⟨caller, outcome⟩ := x
      cases outcome with
      | error fault => exact ih.cons caller
      | ok ack => exact ih.cons_cons caller
  rw [acks, List.map_append]
  exact (hanswers.append_right _).nodup (h.nodup_iff.2 t.nodup_callers)

/-- Two acknowledgements name two entries. -/
theorem Ledger.distinct (h : t.Ledger) (haccounted : t.Accounted) :
    (t.acks.map fun x ↦ x.2.sequence).Nodup := by
  have hcallers : t.acks.Pairwise fun x y ↦ x.1 ≠ y.1 := List.pairwise_map.1 haccounted.nodup_acks
  refine List.pairwise_map.2 (hcallers.imp_of_mem fun {x y} hx hy hne hsequence ↦ hne ?_)
  obtain ⟨i, w, e, hw, he, hcaller, hack⟩ := h.named x hx
  obtain ⟨j, v, f, hv, hf, hcaller', hack'⟩ := h.named y hy
  rw [hack, hack', LogEntry.ack, LogEntry.ack, Option.some.injEq] at hsequence
  have hnumbers := Text.eq_of_toString_eq hsequence
  rw [(h.entered i w e hw he).numbered, (h.entered j v f hv hf).numbered] at hnumbers
  obtain rfl := Nat.succ.inj hnumbers
  obtain rfl := Option.some.inj (hw.symm.trans hv)
  exact hcaller.symm.trans hcaller'

/-- What a log, its acknowledgements and its refusals are worth. -/
structure Faithful (t : Traffic) : Prop where
  /-- The log grows at its end. -/
  grows : ∀ acts, t.stream.log.toList <+: (t.run acts).stream.log.toList
  /-- Entries are numbered by a count that goes with the length of the log. -/
  counted : t.stream.sequence = t.stream.log.size
  /-- Each entry was written by a call of its own. -/
  length : t.writings.length = t.stream.log.size
  once : (t.writings.map Writing.caller).Nodup
  /-- Entries are numbered from one on, and lie in the partitions that their calls found. -/
  entered : ∀ (i : Nat) (w : Writing) (e : LogEntry), t.writings[i]? = some w → t.stream.log[i]? = some e →
    Entered (i + 1) w e
  /-- An acknowledgement names the entry of its caller, and no other one names it. -/
  named : ∀ x ∈ t.acks, t.Names x
  distinct : (t.acks.map fun x ↦ x.2.sequence).Nodup
  /-- What is refused leaves no trace, and everything else is written. -/
  refusedPut : ∀ record, t.stream.RefusesPut record →
    ∃ fault stream, t.stream.put record = (.error fault, stream) ∧ t.stream.Still stream
  takenPut : ∀ record, ¬ t.stream.RefusesPut record →
    ∃ e stream, t.stream.put record = (.ok e.ack, stream) ∧ t.stream.Writes stream record e
  refusedSubmit : ∀ record, t.stream.RefusesSubmit record → ∀ handle,
    ∃ fault stream, t.stream.submit handle record = (.settled (.error fault), stream) ∧ t.stream.Still stream
  takenSubmit : ∀ record, ¬ t.stream.RefusesSubmit record → ∀ handle,
    ∃ e, t.stream.Writes (t.stream.submit handle record).2 record e
  listed : ∀ token, t.stream.Still (t.stream.list token).2

/-- However a stream is called, and whenever delayed acknowledgements arrive and held ones are released: its log
grows at the end, every acknowledgement names the entry of the very record that it is for, which lies in the
partition that held the hash of the record when it was written, and what is refused leaves no trace. -/
theorem log_is_faithful {partitions : Nat} (hcount : partitions < positionBound) (pageSize : Nat)
    (policy : AckPolicy) {acts : List Act} (hacts : ∀ n, Act.reshard n ∈ acts → n < positionBound) :
    ((start partitions pageSize policy).run acts).Faithful :=
  have h := ledger_run hcount pageSize policy hacts
  { grows := log_prefix_run _
    counted := h.counted
    length := h.length
    once := h.once
    entered := h.entered
    named := h.named
    distinct := h.distinct (accounted_run partitions pageSize policy acts)
    refusedPut := fun _ ↦ put_of_refuses
    takenPut := fun _ ↦ put_of_takes h.laidOut
    refusedSubmit := fun _ ↦ submit_of_refuses
    takenSubmit := fun _ ↦ submit_of_takes h.laidOut
    listed := still_list _ }

/-- A stream of two partitions is resharded while an acknowledgement is held. -/
def resharded : List Act :=
  [.submit ⟨.empty, .byHash "" "7"⟩, .reshard 3, .put ⟨.empty, .byHash "" "7"⟩, .release 0 true,
    .inject .failPuts 1, .put ⟨.empty, .byKey ""⟩]

example : ((start 2 1 .manual).run resharded).acks =
    [(.put 0, ⟨"shardId-000000000002", some "2"⟩), (.submission 0, ⟨"shardId-000000000000", some "1"⟩)] := by
  decide

/-- The call after the reshard finds the new partitions, and the one before it has found the old ones. -/
theorem log_is_faithful_resharded :
    (2 < positionBound ∧ ∀ n, Act.reshard n ∈ resharded → n < positionBound) ∧
      ((start 2 1 .manual).run resharded).Faithful := by
  have hcount : 2 < positionBound := by decide
  have hacts : ∀ n, Act.reshard n ∈ resharded → n < positionBound := by
    intro n hn
    have hthree : n = 3 := by simpa [resharded] using hn
    exact hthree ▸ by decide
  exact ⟨⟨hcount, hacts⟩, log_is_faithful hcount 1 .manual hacts⟩

end Tidemark.InMemory.Traffic
