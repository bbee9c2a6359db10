import Tidemark.Watermark

/-!
# The exchanges of a cycle

A cycle asks for one thing at a time, and an exchange is what it asked for together with the answer.
`Cycle.Goes` lists what an exchange can do to the stage of a cycle, and there is nothing else that it can
do (`goes_listed`, `goes_wrote`):

```
listing ── page with a token ──> listing         listing, writing ── fault ──> ended
        └─ last page ──> writing ── written ──> writing ── last one ──> ended
```

The instruments have no say in it. The exchanges of a whole cycle are its `Course`; against a destination
whose listings come to an end and whose puts are all answered, a cycle runs such a course to its end
(`halts_listing`).
-/

namespace Tidemark

/-- A listing that was asked for, and its answer. -/
structure ListCall where
  token : Option String
  answer : Except Fault Page

/-- A put that was asked for, and its answer. -/
structure PutCall where
  record : Record
  answer : Outcome

/-- One thing that a cycle asked for, and its answer. -/
inductive Exchange where
  | list (call : ListCall)
  | put (call : PutCall)

namespace Cycle

/-- What a fault ends a cycle with. Throttling skips the cycle. -/
def verdict (fault : Fault) : Except Fault EmitOutcome :=
  if fault.isThrottled then .ok .skipped else .error fault

/-- The stage at which so much is left to be written. -/
def onward (left : List Descriptor) (listed : Nat) : CycleStage :=
  match left with
  | [] => .ended (.ok (.emitted listed))
  | d :: rest => .writing (d :: rest) listed

/-- What an exchange does to the stage of a cycle with a watermark. -/
inductive Goes (w : Timestamp) : CycleStage → Exchange → CycleStage → Prop where
  | paged {l : Listing} {page : Page} {token : String} (hnext : page.next = some token) :
      Goes w (.listing l) (.list ⟨l.token, .ok page⟩) (.listing ⟨l.found ++ page.partitions, some token⟩)
  | listed {l : Listing} {page : Page} (hnext : page.next = none) :
      Goes w (.listing l) (.list ⟨l.token, .ok page⟩)
        (onward (l.found ++ page.partitions) (l.found ++ page.partitions).length)
  | unlisted {l : Listing} {fault : Fault} :
      Goes w (.listing l) (.list ⟨l.token, .error fault⟩) (.ended (verdict fault))
  | written {d : Descriptor} {rest : List Descriptor} {listed : Nat} {ack : Ack} :
      Goes w (.writing (d :: rest) listed) (.put ⟨Record.ofWatermark w d.lower, .ok ack⟩)
        (onward rest listed)
  | unwritten {d : Descriptor} {rest : List Descriptor} {listed : Nat} {fault : Fault} :
      Goes w (.writing (d :: rest) listed) (.put ⟨Record.ofWatermark w d.lower, .error fault⟩)
        (.ended (verdict fault))

/-- The stages that a cycle goes through in a list of exchanges, told by the first and the last. -/
inductive Course (w : Timestamp) : CycleStage → List Exchange → CycleStage → Prop where
  | nil (stage : CycleStage) : Course w stage [] stage
  | cons {stage next last : CycleStage} {x : Exchange} {xs : List Exchange}
      (hx : Goes w stage x next) (hxs : Course w next xs last) : Course w stage (x :: xs) last

/-! ### What a cycle does with an answer -/

variable (w : Timestamp) (i : Instruments)

theorem finish_fault (c : Cycle) (fault : Fault) :
    (c.finish (.error fault) i).1 = ⟨c.watermark, .ended (verdict fault)⟩ := by
  rw [finish, verdict]
  split <;> rfl

/-- A cycle goes on to write, or ends when nothing is left. -/
theorem write_fst (c : Cycle) (left : List Descriptor) (listed : Nat) :
    (c.write left listed i).1 = ⟨c.watermark, onward left listed⟩ := by
  cases left <;> rfl

/-- A page with a token goes on with the listing. -/
theorem listed_of_next (l : Listing) {page : Page} {token : String} (hnext : page.next = some token) :
    (⟨w, .listing l⟩ : Cycle).listed (.ok page) i =
      (⟨w, .listing ⟨l.found ++ page.partitions, some token⟩⟩, i) := by
  simp only [listed, Listing.absorb, hnext]

/-- A page without a token goes on to write to everything that was found. -/
theorem listed_of_last (l : Listing) {page : Page} (hnext : page.next = none) :
    (⟨w, .listing l⟩ : Cycle).listed (.ok page) i =
      (⟨w, .listing l⟩ : Cycle).write (l.found ++ page.partitions)
        (l.found ++ page.partitions).length i := by
  simp only [listed, Listing.absorb, hnext]

/-- An answer to a listing is an exchange of the cycle. -/
theorem goes_listed (l : Listing) (answer : Except Fault Page) :
    ∃ stage, ((⟨w, .listing l⟩ : Cycle).listed answer i).1 = ⟨w, stage⟩ ∧
      Goes w (.listing l) (.list ⟨l.token, answer⟩) stage := by
  cases answer with
  | error fault => exact ⟨_, finish_fault i ⟨w, .listing l⟩ fault, .unlisted⟩
  | ok page =>
    cases hnext : page.next with
    | some token => exact ⟨_, by rw [listed_of_next w i l hnext], .paged hnext⟩
    | none => exact ⟨_, by rw [listed_of_last w i l hnext, write_fst], .listed hnext⟩

/-- An answer to a put is an exchange of the cycle. -/
theorem goes_wrote (d : Descriptor) (rest : List Descriptor) (listed : Nat) (answer : Outcome) :
    ∃ stage, ((⟨w, .writing (d :: rest) listed⟩ : Cycle).wrote answer i).1 = ⟨w, stage⟩ ∧
      Goes w (.writing (d :: rest) listed) (.put ⟨Record.ofWatermark w d.lower, answer⟩) stage := by
  cases answer with
  | error fault => exact ⟨_, finish_fault i ⟨w, .writing (d :: rest) listed⟩ fault, .unwritten⟩
  | ok ack => exact ⟨_, write_fst _ ⟨w, .writing (d :: rest) listed⟩ rest listed, .written⟩

end Cycle

/-! ### Destinations that answer -/

namespace Destination

variable {σ : Type} (d : Destination σ)

/-- The destination gives the answers of a list of exchanges, one after the other. -/
inductive Answers : σ → List Exchange → σ → Prop where
  | nil (s : σ) : Answers s [] s
  | list {s s₁ s' : σ} {token : Option String} {answer : Except Fault Page} {xs : List Exchange}
      (hx : d.list s token = some (answer, s₁)) (hxs : Answers s₁ xs s') :
      Answers s (.list ⟨token, answer⟩ :: xs) s'
  | put {s s₁ s' : σ} {record : Record} {answer : Outcome} {xs : List Exchange}
      (hx : d.put s record = some (answer, s₁)) (hxs : Answers s₁ xs s') :
      Answers s (.put ⟨record, answer⟩ :: xs) s'

/-- A listing that goes on with a token comes to an end: to a page without a token, or to a fault. -/
inductive Ends : σ → Option String → Prop where
  | failed {s s' : σ} {token : Option String} {fault : Fault}
      (h : d.list s token = some (.error fault, s')) : Ends s token
  | last {s s' : σ} {token : Option String} {page : Page}
      (h : d.list s token = some (.ok page, s')) (hnext : page.next = none) : Ends s token
  | more {s s' : σ} {token : Option String} {page : Page} {next : String}
      (h : d.list s token = some (.ok page, s')) (hnext : page.next = some next)
      (hrest : Ends s' (some next)) : Ends s token

end Destination

namespace Cycle

variable {σ : Type} {d : Destination σ} {w : Timestamp}

/-! ### Runs -/

theorem run_ended (d : Destination σ) (result : Except Fault EmitOutcome) (i : Instruments) (s : σ)
    (n : Nat) : run d ⟨w, .ended result⟩ i s n = some (result, i, s) := by
  cases n <;> rfl

theorem run_listing (d : Destination σ) (l : Listing) (i : Instruments) (s : σ) (n : Nat) :
    run d ⟨w, .listing l⟩ i s (n + 1) =
      (d.list s l.token).bind fun (answer, s) ↦
        let next := (⟨w, .listing l⟩ : Cycle).listed answer i
        next.1.run d next.2 s n :=
  rfl

theorem run_writing (d : Destination σ) (p : Descriptor) (rest : List Descriptor) (listed : Nat)
    (i : Instruments) (s : σ) (n : Nat) :
    run d ⟨w, .writing (p :: rest) listed⟩ i s (n + 1) =
      (d.put s (Record.ofWatermark w p.lower)).bind fun (answer, s) ↦
        let next := (⟨w, .writing (p :: rest) listed⟩ : Cycle).wrote answer i
        next.1.run d next.2 s n :=
  rfl

/-- A cycle at a stage comes to its end against a destination, in exchanges that the destination
answers. -/
structure RunsTo (d : Destination σ) (w : Timestamp) (stage : CycleStage) (i : Instruments) (s : σ)
    (xs : List Exchange) (result : Except Fault EmitOutcome) (i' : Instruments) (s' : σ) : Prop where
  course : Course w stage xs (.ended result)
  answers : d.Answers s xs s'
  run : ∀ n, xs.length ≤ n → run d ⟨w, stage⟩ i s n = some (result, i', s')

/-- The cycle comes to its end. -/
def Halts (d : Destination σ) (w : Timestamp) (stage : CycleStage) (i : Instruments) (s : σ) : Prop :=
  ∃ xs result i' s', RunsTo d w stage i s xs result i' s'

/-- A cycle that has ended comes to its end without an exchange. -/
theorem halts_ended (result : Except Fault EmitOutcome) (i : Instruments) (s : σ) :
    Halts d w (.ended result) i s :=
  ⟨[], result, i, s, .nil _, .nil s, fun n _ ↦ run_ended d result i s n⟩

variable {i : Instruments} {s s₁ : σ}

/-- A listing comes to its end if the cycle does after the answer. -/
theorem Halts.of_list {l : Listing} {answer : Except Fault Page}
    (hlist : d.list s l.token = some (answer, s₁))
    (h : ∀ stage i, Goes w (.listing l) (.list ⟨l.token, answer⟩) stage → Halts d w stage i s₁) :
    Halts d w (.listing l) i s := by
  obtain ⟨stage, hfst, hgoes⟩ := goes_listed w i l answer
  obtain ⟨xs, result, i', s', hrun⟩ :=
    h stage ((⟨w, .listing l⟩ : Cycle).listed answer i).2 hgoes
  refine ⟨.list ⟨l.token, answer⟩ :: xs, result, i', s', .cons hgoes hrun.course,
    .list hlist hrun.answers, fun n hn ↦ ?_⟩
  obtain ⟨n, rfl⟩ : ∃ k, n = k + 1 := ⟨n - 1, by simp only [List.length_cons] at hn; omega⟩
  rw [run_listing, hlist, Option.bind_some]
  simp only [hfst]
  exact hrun.run n (Nat.le_of_succ_le_succ hn)

/-- A put comes to its end if the cycle does after the answer. -/
theorem Halts.of_put {p : Descriptor} {rest : List Descriptor} {listed : Nat} {answer : Outcome}
    (hput : d.put s (Record.ofWatermark w p.lower) = some (answer, s₁))
    (h : ∀ stage i, Goes w (.writing (p :: rest) listed)
      (.put ⟨Record.ofWatermark w p.lower, answer⟩) stage → Halts d w stage i s₁) :
    Halts d w (.writing (p :: rest) listed) i s := by
  obtain ⟨stage, hfst, hgoes⟩ := goes_wrote w i p rest listed answer
  obtain ⟨xs, result, i', s', hrun⟩ :=
    h stage ((⟨w, .writing (p :: rest) listed⟩ : Cycle).wrote answer i).2 hgoes
  refine ⟨.put ⟨Record.ofWatermark w p.lower, answer⟩ :: xs, result, i', s',
    .cons hgoes hrun.course, .put hput hrun.answers, fun n hn ↦ ?_⟩
  obtain ⟨n, rfl⟩ : ∃ k, n = k + 1 := ⟨n - 1, by simp only [List.length_cons] at hn; omega⟩
  rw [run_writing, hput, Option.bind_some]
  simp only [hfst]
  exact hrun.run n (Nat.le_of_succ_le_succ hn)

/-- With puts that are all answered, what is left to be written comes to an end. -/
theorem halts_onward (hput : ∀ s record, (d.put s record).isSome) (left : List Descriptor)
    (listed : Nat) (i : Instruments) (s : σ) : Halts d w (onward left listed) i s := by
  induction left generalizing i s with
  | nil => exact halts_ended _ i s
  | cons p rest ih =>
    obtain ⟨⟨answer, s₁⟩, hanswer⟩ := Option.isSome_iff_exists.mp (hput s (Record.ofWatermark w p.lower))
    refine Halts.of_put hanswer fun stage i hgoes ↦ ?_
    cases hgoes with
    | written => exact ih i s₁
    | unwritten => exact halts_ended _ i s₁

/-- So does a listing that comes to an end. -/
theorem halts_listing (hput : ∀ s record, (d.put s record).isSome) {token : Option String}
    (hends : d.Ends s token) (found : List Descriptor) (i : Instruments) :
    Halts d w (.listing ⟨found, token⟩) i s := by
  induction hends generalizing found i with
  | failed h =>
    refine Halts.of_list h fun stage i hgoes ↦ ?_
    cases hgoes with
    | unlisted => exact halts_ended _ i _
  | last h hnext =>
    refine Halts.of_list h fun stage i hgoes ↦ ?_
    cases hgoes with
    | paged hsome => exact absurd (hsome.symm.trans hnext) (by simp)
    | listed => exact halts_onward hput _ _ i _
  | more h hnext _ ih =>
    refine Halts.of_list h fun stage i hgoes ↦ ?_
    cases hgoes with
    | paged hsome =>
      rw [← Option.some.inj (hnext.symm.trans hsome)]
      exact ih _ i
    | listed hnone => exact absurd (hnone.symm.trans hnext) (by simp)

end Cycle

end Tidemark
