import Mathlib.Data.List.Sort
import Tidemark.Proofs.Destination.Ledger

/-!
# How handles settle

A handle that was given out has resolved, or its acknowledgement is under way, or it is held; and it is only one
of the three (`Accounted`). What is held is in the order of submission, and under manual acknowledgements it is
all that was written and has not resolved (`held_eq`). So an index into it is an index into these submissions.

A flush is a barrier. From the moment at which no delayed acknowledgement was under way, only handles that were
given out after its call can be delayed (`Flush.Waits`); when nothing is held either, every handle from before
the call has resolved (`Orderly.hasResolved`).
-/

namespace Tidemark.InMemory

/-! ### Where a flush stands -/

/-- What a flush may rely on, with so many handles given out and these acknowledgements under way. Once it is
cleared, only handles that were given out after it was called are among them; and it is cleared if there are
none. -/
def Flush.Waits (f : Flush) (submitted : Nat) (delayed : List (Nat × Ack)) : Prop :=
  match f with
  | idle => True
  | .delayed before cleared =>
    before ≤ submitted ∧ (cleared = true → ∀ x ∈ delayed, before ≤ x.1) ∧ (delayed = [] → cleared = true)
  | held before => before ≤ submitted ∧ ∀ x ∈ delayed, before ≤ x.1

namespace Flush.Waits

variable {f : Flush} {submitted before : Nat} {delayed : List (Nat × Ack)}

/-- A handle that is given out is none that the flush waits for. -/
theorem counted (h : f.Waits submitted delayed) : f.Waits (submitted + 1) delayed := by
  cases f with
  | idle => trivial
  | delayed before cleared => exact ⟨Nat.le_succ_of_le h.1, h.2⟩
  | held before => exact ⟨Nat.le_succ_of_le h.1, h.2⟩

/-- A handle that is given out now is none that the flush waits for. -/
theorem deferred (h : f.Waits submitted delayed) (ack : Ack) :
    f.Waits (submitted + 1) (delayed ++ [(submitted, ack)]) := by
  have hlater {before : Nat} (hle : before ≤ submitted) (hall : ∀ x ∈ delayed, before ≤ x.1) :
      ∀ x ∈ delayed ++ [(submitted, ack)], before ≤ x.1 := by
    intro x hx
    rcases List.mem_append.1 hx with hold | hnew
    · exact hall x hold
    · rw [List.mem_singleton.1 hnew]
      exact hle
  cases f with
  | idle => trivial
  | delayed before cleared =>
    refine ⟨Nat.le_succ_of_le h.1, fun hcleared ↦ hlater h.1 (h.2.1 hcleared), fun hnil ↦ ?_⟩
    exact absurd hnil (List.append_ne_nil_of_right_ne_nil _ (List.cons_ne_nil _ _))
  | held before => exact ⟨Nat.le_succ_of_le h.1, hlater h.1 h.2⟩

/-- An acknowledgement that arrives is one less to wait for. -/
theorem arrived (h : f.Waits submitted delayed) (index : Nat) :
    (f.arrived (delayed.eraseIdx index).isEmpty).Waits submitted (delayed.eraseIdx index) := by
  cases f with
  | idle => trivial
  | delayed before cleared =>
    refine ⟨h.1, fun hcleared x hx ↦ ?_, fun hnil ↦ ?_⟩
    · rcases Bool.or_eq_true _ _ ▸ hcleared with hbefore | hlast
      · exact h.2.1 hbefore x (List.mem_of_mem_eraseIdx hx)
      · rw [List.isEmpty_iff.1 hlast] at hx
        exact absurd hx List.not_mem_nil
    · rw [hnil]
      exact Bool.or_true _
  | held before => exact ⟨h.1, fun x hx ↦ h.2 x (List.mem_of_mem_eraseIdx hx)⟩

/-- A flush waits for what is under way when it is called. -/
theorem called : (Flush.delayed submitted delayed.isEmpty).Waits submitted delayed := by
  refine ⟨Nat.le_refl _, fun hnone x hx ↦ ?_, fun hnil ↦ List.isEmpty_iff.2 hnil⟩
  rw [List.isEmpty_iff.1 hnone] at hx
  exact absurd hx List.not_mem_nil

end Flush.Waits

namespace Traffic

variable {t t' : Traffic} {a : Act}

/-- The handle has resolved. -/
def HasResolved (t : Traffic) (handle : Nat) : Prop :=
  .submission handle ∈ t.answers.map Prod.fst

/-- The submissions among the callers are those with a handle. -/
theorem mem_callers {handle : Nat} : .submission handle ∈ t.callers ↔ handle < t.submitted := by
  simp [callers]

/-- A handle that was given out has resolved, or its acknowledgement is yet to come. -/
theorem Accounted.resolved_or_pending (h : t.Accounted) {handle : Nat} (hlt : handle < t.submitted) :
    t.HasResolved handle ∨ (∃ x ∈ t.delayed, x.1 = handle) ∨ ∃ x ∈ t.stream.held, x.handle = handle := by
  have hmem := h.symm.subset (mem_callers.2 hlt)
  rw [map_fst_pending] at hmem
  simpa [HasResolved] using hmem

/-- A handle whose acknowledgement is yet to come was given out and has not resolved. -/
theorem Accounted.lt_of_pending (h : t.Accounted) {handle : Nat} {ack : Ack}
    (hx : (.submission handle, ack) ∈ t.pending) : handle < t.submitted :=
  mem_callers.1 (h.subset (List.mem_append_right _ (List.mem_map_of_mem hx)))

/-- A handle with an acknowledgement to come has not resolved. -/
theorem Accounted.not_resolved_of_pending (h : t.Accounted) {handle : Nat} {ack : Ack}
    (hx : (.submission handle, ack) ∈ t.pending) : ¬ t.HasResolved handle := by
  have hnodup := h.nodup_iff.2 t.nodup_callers
  exact fun hresolved ↦ (List.nodup_append.1 hnodup).2.2 _ hresolved _ (List.mem_map_of_mem hx) rfl

/-- What is held and what is under way, and where a flush stands. -/
structure Orderly (t : Traffic) : Prop where
  /-- The held acknowledgements are in the order of their submission. -/
  ascending : t.stream.held.Pairwise fun x y ↦ x.handle < y.handle
  manual : t.stream.ackPolicy = .manual → t.delayed = []
  prompt : t.stream.ackPolicy ≠ .manual → t.stream.held = []
  waits : t.flush.Waits t.submitted t.delayed
  flushed : ∀ before ∈ t.flushed, ∀ handle < before, t.HasResolved handle

theorem orderly_start (partitions pageSize : Nat) (policy : AckPolicy) :
    (start partitions pageSize policy).Orderly where
  ascending := .nil
  manual _ := rfl
  prompt _ := rfl
  waits := trivial
  flushed _ h := nomatch h

/-- What resolved stays so. -/
theorem HasResolved.append {handle : Nat} (h : t.HasResolved handle) {settled : List (Caller × Outcome)}
    (hanswers : t'.answers = t.answers ++ settled) : t'.HasResolved handle := by
  rw [HasResolved, hanswers, List.map_append]
  exact List.mem_append_left _ h

theorem Orderly.flushed_append (h : t.Orderly) {settled : List (Caller × Outcome)}
    (hanswers : t'.answers = t.answers ++ settled) :
    ∀ before ∈ t.flushed, ∀ handle < before, t'.HasResolved handle :=
  fun before hbefore handle hlt ↦ (h.flushed before hbefore handle hlt).append hanswers

/-- A call that leaves held and delayed acknowledgements alone changes nothing. -/
theorem Orderly.frame (h : t.Orderly) (hheld : t'.stream.held = t.stream.held)
    (hpolicy : t'.stream.ackPolicy = t.stream.ackPolicy) (hdelayed : t'.delayed = t.delayed)
    (hflush : t'.flush = t.flush) (hsubmitted : t'.submitted = t.submitted ∨ t'.submitted = t.submitted + 1)
    (hflushed : t'.flushed = t.flushed) {settled : List (Caller × Outcome)}
    (hanswers : t'.answers = t.answers ++ settled) : t'.Orderly where
  ascending := hheld ▸ h.ascending
  manual hmanual := hdelayed.trans (h.manual (hpolicy ▸ hmanual))
  prompt hne := hheld.trans (h.prompt (hpolicy ▸ hne))
  waits := by
    rw [hflush, hdelayed]
    rcases hsubmitted with hsame | hnext
    · rw [hsame]
      exact h.waits
    · rw [hnext]
      exact h.waits.counted
  flushed := hflushed ▸ h.flushed_append hanswers

theorem submitted_counted (t : Traffic) (caller : Caller) :
    (t.counted caller).submitted = t.submitted ∨ (t.counted caller).submitted = t.submitted + 1 := by
  cases caller with
  | put n => exact Or.inl rfl
  | submission handle => exact Or.inr rfl

/-- A flush that finds nothing held has nothing left to wait for. -/
theorem Orderly.hasResolved (h : t.Orderly) (ha : t.Accounted) {before : Nat} (hflush : t.flush = .held before)
    (hheld : t.stream.held = []) {handle : Nat} (hlt : handle < before) : t.HasResolved handle := by
  have hwaits := h.waits
  rw [hflush] at hwaits
  rcases ha.resolved_or_pending (Nat.lt_of_lt_of_le hlt hwaits.1) with hresolved | ⟨x, hx, rfl⟩ | ⟨x, hx, -⟩
  · exact hresolved
  · exact absurd hlt (Nat.not_lt.2 (hwaits.2 x hx))
  · rw [hheld] at hx
    exact absurd hx List.not_mem_nil

/-- A traffic that is orderly stays so in every move. -/
theorem Orderly.move (h : t.Orderly) (ha : t.Accounted) (hmove : t.Move a t') : t'.Orderly := by
  cases hmove with
  | still stream hstill =>
    exact h.frame hstill.held hstill.ackPolicy rfl rfl (Or.inl rfl) rfl (List.append_nil _).symm
  | reshard n => exact ⟨h.ascending, h.manual, h.prompt, h.waits, h.flushed⟩
  | refused caller hnext fault stream hstill =>
    exact h.frame hstill.held hstill.ackPolicy (t.delayed_counted caller) (t.flush_counted caller)
      (t.submitted_counted caller) (t.flushed_counted caller) (congrArg (· ++ _) (t.answers_counted caller))
  | written caller hnext record e stream hwrites hheld =>
    exact h.frame hheld hwrites.ackPolicy (t.delayed_counted caller) (t.flush_counted caller)
      (t.submitted_counted caller) (t.flushed_counted caller) (congrArg (· ++ _) (t.answers_counted caller))
  | delayed record e stream hwrites hheld d hpolicy =>
    have hdelayed : stream.ackPolicy = .delayed d := hwrites.ackPolicy.trans hpolicy
    exact {
      ascending := hheld ▸ h.ascending
      manual := fun hmanual ↦ nomatch hdelayed.symm.trans hmanual
      prompt := fun _ ↦ hheld.trans (h.prompt (hpolicy ▸ nofun))
      waits := h.waits.deferred e.ack
      flushed := h.flushed }
  | held record e stream hwrites hheld hpolicy =>
    exact {
      ascending := by
        show stream.held.Pairwise _
        rw [hheld]
        refine List.pairwise_append.2 ⟨h.ascending, List.pairwise_singleton .., fun x hx y hy ↦ ?_⟩
        rw [List.mem_singleton.1 hy]
        exact ha.lt_of_pending (mem_pending_of_held hx)
      manual := fun _ ↦ h.manual hpolicy
      prompt := fun hne ↦ absurd (hwrites.ackPolicy.trans hpolicy) hne
      waits := h.waits.counted
      flushed := h.flushed }
  | release index success x hget =>
    exact {
      ascending := h.ascending.sublist (List.eraseIdx_sublist ..)
      manual := h.manual
      prompt := fun hne ↦ by
        rw [h.prompt hne] at hget
        exact nomatch hget
      waits := h.waits
      flushed := h.flushed_append rfl }
  | releaseAll =>
    exact {
      ascending := .nil
      manual := h.manual
      prompt := fun _ ↦ rfl
      waits := h.waits
      flushed := h.flushed_append rfl }
  | arrive index handle ack hget =>
    exact {
      ascending := h.ascending
      manual := fun hmanual ↦ by
        rw [h.manual hmanual] at hget
        exact nomatch hget
      prompt := h.prompt
      waits := h.waits.arrived index
      flushed := h.flushed_append rfl }
  | flush hflush => exact ⟨h.ascending, h.manual, h.prompt, .called, h.flushed⟩
  | cleared before hflush =>
    have hwaits := h.waits
    rw [hflush] at hwaits
    exact ⟨h.ascending, h.manual, h.prompt, ⟨hwaits.1, hwaits.2.1 rfl⟩, h.flushed⟩
  | flushed before hflush hheld =>
    refine ⟨h.ascending, h.manual, h.prompt, trivial, fun earlier hearlier handle hlt ↦ ?_⟩
    rcases List.mem_append.1 hearlier with hold | hnew
    · exact h.flushed earlier hold handle hlt
    · rw [List.mem_singleton.1 hnew] at hlt
      exact h.hasResolved ha hflush hheld hlt
  | abandon => exact ⟨h.ascending, h.manual, h.prompt, trivial, h.flushed⟩

theorem orderly_run (partitions pageSize : Nat) (policy : AckPolicy) (acts : List Act) :
    ((start partitions pageSize policy).run acts).Orderly :=
  (of_moves (P := fun t ↦ t.Orderly ∧ t.Accounted) (fun _ hmove h ↦ ⟨h.1.move h.2 hmove, h.2.move hmove⟩)
    ⟨orderly_start partitions pageSize policy, accounted_start partitions pageSize policy⟩).1

/-! ### What is held -/

/-- The submission has written its record. -/
def HasWritten (t : Traffic) (handle : Nat) : Prop :=
  .submission handle ∈ t.writings.map Writing.caller

instance (t : Traffic) (handle : Nat) : Decidable (t.HasResolved handle) :=
  inferInstanceAs (Decidable (_ ∈ _))

instance (t : Traffic) (handle : Nat) : Decidable (t.HasWritten handle) :=
  inferInstanceAs (Decidable (_ ∈ _))

/-- Whoever has an acknowledgement, or one to come, has written. -/
theorem written_of_mem_acks_run (partitions pageSize : Nat) (policy : AckPolicy) (acts : List Act) :
    let t := (start partitions pageSize policy).run acts
    ∀ x ∈ t.acks, x.1 ∈ t.writings.map Writing.caller := by
  refine of_moves (P := fun t ↦ ∀ x ∈ t.acks, x.1 ∈ t.writings.map Writing.caller) (fun _ hmove h ↦ ?_) nofun
  cases hmove.books with
  | kept _ _ hwritings _ hacks =>
    rw [hwritings]
    exact fun x hx ↦ h x (hacks x hx)
  | written caller record e _ _ _ hwritings _ hacks =>
    rw [hwritings, List.map_append]
    intro x hx
    rcases hacks x hx with rfl | hold
    · exact List.mem_append_right _ (List.mem_singleton.2 rfl)
    · exact List.mem_append_left _ (h x hold)

theorem Move.ackPolicy (h : t.Move a t') : t'.stream.ackPolicy = t.stream.ackPolicy := by
  cases h with
  | still _ hstill | refused _ _ _ _ hstill => exact hstill.ackPolicy
  | written _ _ _ _ _ hwrites | delayed _ _ _ hwrites | held _ _ _ hwrites => exact hwrites.ackPolicy
  | _ => rfl

theorem ackPolicy_run (partitions pageSize : Nat) (policy : AckPolicy) (acts : List Act) :
    ((start partitions pageSize policy).run acts).stream.ackPolicy = policy :=
  of_moves (P := fun t ↦ t.stream.ackPolicy = policy) (fun _ hmove h ↦ hmove.ackPolicy.trans h) rfl

/-- Under manual acknowledgements all is held that was written and has not resolved. -/
theorem held_eq (h : t.Orderly) (ha : t.Accounted) (hwritten : ∀ x ∈ t.acks, x.1 ∈ t.writings.map Writing.caller)
    (hmanual : t.stream.ackPolicy = .manual) :
    t.stream.held.map HeldAck.handle =
      (List.range t.submitted).filter fun handle ↦ t.HasWritten handle ∧ ¬ t.HasResolved handle := by
  have hheld : (t.stream.held.map HeldAck.handle).Pairwise (· < ·) := List.pairwise_map.2 h.ascending
  refine hheld.eq_of_mem_iff (List.pairwise_lt_range.filter _) fun handle ↦ ?_
  rw [List.mem_map, List.mem_filter, List.mem_range, decide_eq_true_eq]
  constructor
  · rintro ⟨x, hx, rfl⟩
    have hpending := mem_pending_of_held hx
    exact ⟨ha.lt_of_pending hpending, hwritten _ (mem_acks.2 (Or.inr hpending)), ha.not_resolved_of_pending hpending⟩
  · rintro ⟨hlt, -, hopen⟩
    rcases ha.resolved_or_pending hlt with hresolved | ⟨x, hx, -⟩ | hheld
    · exact absurd hresolved hopen
    · rw [h.manual hmanual] at hx
      exact absurd hx List.not_mem_nil
    · exact hheld

/-! ### What the handles can be relied on for -/

/-- How handles resolve, and what a flush was answered for. -/
structure Settling (t : Traffic) : Prop where
  /-- Handles resolve once, and only those that were given out. -/
  once : (t.answers.map Prod.fst).Nodup
  given : ∀ handle, t.HasResolved handle → handle < t.submitted
  /-- What is held is what was written and has not resolved, in the order of submission. -/
  held : t.stream.ackPolicy = .manual →
    t.stream.held.map HeldAck.handle =
      (List.range t.submitted).filter fun handle ↦ t.HasWritten handle ∧ ¬ t.HasResolved handle
  /-- A release resolves the handle at its index, and nothing else is different. -/
  released : ∀ (index : Nat) (success : Bool) (x : HeldAck), t.stream.held[index]? = some x →
    (t.stream.release index success).1 = some (x.handle, releasedAs x.ack success) ∧
      t.act (.release index success) =
        { t with
          stream := { t.stream with held := t.stream.held.eraseIdx index }
          answers := t.answers ++ [(.submission x.handle, releasedAs x.ack success)] }
  /-- Only a release out of range is refused, and then nothing is different. -/
  outOfRange : ∀ (index : Nat) (success : Bool), t.stream.held.length ≤ index →
    t.stream.release index success = (none, t.stream) ∧ t.act (.release index success) = t
  /-- A flush that was answered found every handle resolved that was given out before it was called. -/
  barrier : ∀ before ∈ t.flushed, ∀ handle < before, t.HasResolved handle
  /-- A flush that finds nothing under way and nothing held is answered at once. -/
  answered : t.flush = .idle → t.delayed = [] → t.stream.held = [] →
    (t.run [.flush, .look, .look]).flushed = t.flushed ++ [t.submitted]

/-- There is a course that leads to this traffic. -/
def Arises (t : Traffic) : Prop :=
  ∃ (partitions pageSize : Nat) (policy : AckPolicy) (acts : List Act),
    (start partitions pageSize policy).run acts = t

namespace Arises

theorem run (h : t.Arises) (acts : List Act) : (t.run acts).Arises := by
  obtain ⟨partitions, pageSize, policy, first, rfl⟩ := h
  exact ⟨partitions, pageSize, policy, first ++ acts, run_append ..⟩

theorem accounted (h : t.Arises) : t.Accounted := by
  obtain ⟨partitions, pageSize, policy, acts, rfl⟩ := h
  exact accounted_run partitions pageSize policy acts

theorem orderly (h : t.Arises) : t.Orderly := by
  obtain ⟨partitions, pageSize, policy, acts, rfl⟩ := h
  exact orderly_run partitions pageSize policy acts

/-- Whoever has an acknowledgement there, or one to come, has written. -/
theorem written_of_mem_acks (h : t.Arises) : ∀ x ∈ t.acks, x.1 ∈ t.writings.map Writing.caller := by
  obtain ⟨partitions, pageSize, policy, acts, rfl⟩ := h
  exact written_of_mem_acks_run partitions pageSize policy acts

theorem settling (h : t.Arises) : t.Settling := by
  constructor
  · exact (List.nodup_append.1 (h.accounted.nodup_iff.2 t.nodup_callers)).1
  · exact fun handle hresolved ↦ mem_callers.1 (h.accounted.subset (List.mem_append_left _ hresolved))
  · exact held_eq h.orderly h.accounted h.written_of_mem_acks
  · intro index success x hget
    have hrelease : t.stream.release index success =
        (some (x.handle, releasedAs x.ack success),
          { t.stream with held := t.stream.held.eraseIdx index }) := by
      rw [release, hget]
      rfl
    exact ⟨congrArg Prod.fst hrelease, by rw [act, hrelease]; rfl⟩
  · intro index success hge
    have hrelease : t.stream.release index success = (none, t.stream) := by
      rw [release, List.getElem?_eq_none hge]
    exact ⟨hrelease, by rw [act, hrelease]⟩
  · exact h.orderly.flushed
  · intro hidle hdelayed hheld
    simp [Traffic.run, act, hidle, hdelayed, hheld]

end Arises

/-- A flush is answered while the acknowledgement of a later submission is under way. -/
example :
    let record : Record := ⟨.empty, .byHash "" "7"⟩
    let t := (start 1 1 (.delayed (Span.ofMillis 5))).run
      [.submit record, .flush, .look, .arrive 0, .submit record, .look, .look]
    t.flushed = [1] ∧ t.HasResolved 0 ∧ t.HasWritten 1 ∧ ¬ t.HasResolved 1 := by
  decide

end Traffic

end Tidemark.InMemory
