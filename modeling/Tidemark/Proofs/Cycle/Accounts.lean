import Tidemark.Proofs.Cycle.Exchanges

/-!
# The account of a cycle

What a cycle asked for from its start to its end, and what came of it, is told without its machine:
`Account` says which tokens were listed with, which records were put, and how the result follows from the
first fault. Every cycle that runs from its start to its end has such an account, `Course.account`:

```
lists:  none, next of the 1st, next of the 2nd, ...     all but the last with a next
puts:   the partitions found, in order                  none before the listing is complete
result: no fault ─> emitted        throttled ─> skipped        other fault ─> that fault
```

On the way to its end a cycle stands by what it has asked for so far (`Standing`), and each exchange keeps
it so. What the emitter books of a cycle that was due is read off its account,
`Emitter.maybeEmit_accounts`.
-/

namespace Tidemark

/-- The token that an answer to a listing gives. -/
def nextOf : Except Fault Page → Option String
  | .ok page => page.next
  | .error _ => none

/-- The partitions that an answer to a listing gives. -/
def partitionsOf : Except Fault Page → List Descriptor
  | .ok page => page.partitions
  | .error _ => []

/-- The fault of an answer. -/
def faultOf? {α : Type} : Except Fault α → Option Fault
  | .ok _ => none
  | .error fault => some fault

/-- The partitions found in a listing. -/
def foundIn (lists : List ListCall) : List Descriptor :=
  lists.flatMap fun call ↦ partitionsOf call.answer

/-- The first fault among the answers to a listing and to the puts after it. -/
def firstFault? (lists : List ListCall) (puts : List PutCall) : Option Fault :=
  (lists.findSome? fun call ↦ faultOf? call.answer).or
    (puts.findSome? fun call ↦ faultOf? call.answer)

/-- A listing that was read to its end. -/
def IsComplete (lists : List ListCall) : Prop :=
  ∃ call page, lists.getLast? = some call ∧ call.answer = .ok page ∧ page.next = none

/-- The first page was asked for without a token, and each later one with the token of the one before. -/
structure Asked (lists : List ListCall) : Prop where
  tokens : lists.map ListCall.token = none :: lists.dropLast.map fun call ↦ nextOf call.answer
  continues : ∀ call ∈ lists.dropLast, (nextOf call.answer).isSome

namespace Cycle

/-- What a cycle with a watermark asked for from its start to its end, and its result. -/
structure Account (w : Timestamp) (lists : List ListCall) (puts : List PutCall)
    (result : Except Fault EmitOutcome) : Prop where
  asked : Asked lists
  /-- Nothing is put before the listing is complete. -/
  complete : puts ≠ [] → IsComplete lists
  /-- The partitions that were found are written to in their order. -/
  records : puts.map PutCall.record <+: (foundIn lists).map fun d ↦ Record.ofWatermark w d.lower
  /-- Nothing is put after a fault. -/
  stops : ∀ call ∈ puts.dropLast, faultOf? call.answer = none
  result_eq : result = match firstFault? lists puts with
    | none => .ok (.emitted (foundIn lists).length)
    | some fault => if fault.isThrottled then .ok .skipped else .error fault
  all : firstFault? lists puts = none → IsComplete lists ∧ puts.length = (foundIn lists).length

/-! ### On the way -/

/-- All pages so far gave a token, and the last one is the one to go on with. -/
structure Paged (lists : List ListCall) (token : Option String) : Prop where
  tokens : lists.map ListCall.token ++ [token] = none :: lists.map fun call ↦ nextOf call.answer
  continues : ∀ call ∈ lists, (nextOf call.answer).isSome

/-- The listing was read to its end, and what it found was written to up to what is left. -/
structure Marked (w : Timestamp) (lists : List ListCall) (puts : List PutCall)
    (left : List Descriptor) : Prop where
  asked : Asked lists
  complete : IsComplete lists
  records : ∃ done, foundIn lists = done ++ left ∧
    puts.map PutCall.record = done.map fun d ↦ Record.ofWatermark w d.lower
  listed : lists.findSome? (fun call ↦ faultOf? call.answer) = none
  written : puts.findSome? (fun call ↦ faultOf? call.answer) = none

/-- What a stage says of the exchanges so far. -/
def Standing (w : Timestamp) (lists : List ListCall) (puts : List PutCall) : CycleStage → Prop
  | .listing l => puts = [] ∧ Paged lists l.token ∧ l.found = foundIn lists
  | .writing left listed => Marked w lists puts left ∧ listed = (foundIn lists).length
  | .ended result => Account w lists puts result

theorem standing_start (w : Timestamp) : Standing w [] [] (.listing {}) :=
  ⟨rfl, ⟨rfl, by simp⟩, rfl⟩

section Listing

variable {lists : List ListCall} {token : Option String}

/-- A listing that goes on has found what it found before and what it is answered. -/
theorem foundIn_concat (call : ListCall) :
    foundIn (lists ++ [call]) = foundIn lists ++ partitionsOf call.answer := by
  simp [foundIn]

/-- A listing that goes on has met no fault. -/
theorem Paged.fault (h : Paged lists token) :
    lists.findSome? (fun call ↦ faultOf? call.answer) = none := by
  rw [List.findSome?_eq_none_iff]
  intro call hcall
  have hnext := h.continues call hcall
  cases hanswer : call.answer with
  | ok page => rfl
  | error fault => simp [hanswer, nextOf] at hnext

/-- Whatever the next answer is, it was asked for with the token before it. -/
theorem Paged.asked (h : Paged lists token) (answer : Except Fault Page) :
    Asked (lists ++ [⟨token, answer⟩]) := by
  constructor
  · rw [List.map_append, List.dropLast_concat]
    exact h.tokens
  · rw [List.dropLast_concat]
    exact h.continues

theorem Paged.concat (h : Paged lists token) {page : Page} {next : String}
    (hnext : page.next = some next) : Paged (lists ++ [⟨token, .ok page⟩]) (some next) := by
  constructor
  · rw [List.map_append, List.map_append]
    show lists.map ListCall.token ++ [token] ++ [some next] = none :: (_ ++ [page.next])
    rw [h.tokens, hnext, List.cons_append]
  · intro call hcall
    rcases List.mem_append.mp hcall with hcall | hcall
    · exact h.continues call hcall
    · rw [List.mem_singleton.mp hcall]
      exact Option.isSome_iff_exists.mpr ⟨next, hnext⟩

/-- A listing whose last page has come is read to its end. -/
theorem Paged.marked (w : Timestamp) (h : Paged lists token) {page : Page} (hnext : page.next = none) :
    Marked w (lists ++ [⟨token, .ok page⟩]) [] (foundIn (lists ++ [⟨token, .ok page⟩])) where
  asked := h.asked _
  complete := ⟨_, page, List.getLast?_concat, rfl, hnext⟩
  records := ⟨[], rfl, rfl⟩
  listed := by
    rw [List.findSome?_append, h.fault]
    rfl
  written := rfl

/-- A fault in place of a page ends the cycle. -/
theorem Paged.account (w : Timestamp) (h : Paged lists token) (fault : Fault) :
    Account w (lists ++ [⟨token, .error fault⟩]) [] (verdict fault) := by
  have hfault : firstFault? (lists ++ [⟨token, .error fault⟩]) [] = some fault := by
    rw [firstFault?, List.findSome?_append, h.fault]
    rfl
  refine ⟨h.asked _, fun hne ↦ absurd rfl hne, List.nil_prefix, by simp, ?_, ?_⟩
  · rw [hfault]
    rfl
  · rw [hfault]
    exact fun hnone ↦ absurd hnone (by simp)

end Listing

section Writing

variable {w : Timestamp} {lists : List ListCall} {puts : List PutCall}

/-- What was written to the end is accounted for. -/
theorem Marked.standing {left : List Descriptor} (h : Marked w lists puts left) :
    Standing w lists puts (onward left (foundIn lists).length) := by
  cases left with
  | cons d rest => exact ⟨h, rfl⟩
  | nil =>
    obtain ⟨done, hfound, hrecords⟩ := h.records
    rw [List.append_nil] at hfound
    have hfault : firstFault? lists puts = none := by
      rw [firstFault?, h.listed, h.written]
      rfl
    have hwritten := List.findSome?_eq_none_iff.mp h.written
    refine ⟨h.asked, fun _ ↦ h.complete, ?_, ?_, ?_, fun _ ↦ ⟨h.complete, ?_⟩⟩
    · have hall : puts.map PutCall.record = (foundIn lists).map fun d ↦ Record.ofWatermark w d.lower := by
        rw [hrecords, hfound]
      exact hall ▸ List.prefix_refl _
    · exact fun call hcall ↦ hwritten call (List.dropLast_subset _ hcall)
    · rw [hfault]
    · have hlength := congrArg List.length hrecords
      rw [List.length_map, List.length_map, ← hfound] at hlength
      exact hlength

variable {d : Descriptor} {rest : List Descriptor}

/-- A put that is acknowledged leaves one partition less to be written to. -/
theorem Marked.concat (h : Marked w lists puts (d :: rest)) (ack : Ack) :
    Marked w lists (puts ++ [⟨Record.ofWatermark w d.lower, .ok ack⟩]) rest where
  asked := h.asked
  complete := h.complete
  records := by
    obtain ⟨done, hfound, hrecords⟩ := h.records
    refine ⟨done ++ [d], ?_, ?_⟩
    · rw [hfound, List.append_assoc, List.singleton_append]
    · rw [List.map_append, List.map_append, hrecords]
      rfl
  listed := h.listed
  written := by
    rw [List.findSome?_append, h.written]
    rfl

/-- A fault in place of an acknowledgement ends the cycle. -/
theorem Marked.account (h : Marked w lists puts (d :: rest)) (fault : Fault) :
    Account w lists (puts ++ [⟨Record.ofWatermark w d.lower, .error fault⟩]) (verdict fault) := by
  obtain ⟨done, hfound, hrecords⟩ := h.records
  have hfault :
      firstFault? lists (puts ++ [⟨Record.ofWatermark w d.lower, .error fault⟩]) = some fault := by
    rw [firstFault?, h.listed, List.findSome?_append, h.written]
    rfl
  refine ⟨h.asked, fun _ ↦ h.complete, ?_, ?_, ?_, ?_⟩
  · refine ⟨rest.map fun d ↦ Record.ofWatermark w d.lower, ?_⟩
    rw [List.map_append, hrecords, hfound, List.map_append, List.append_assoc]
    rfl
  · rw [List.dropLast_concat]
    exact List.findSome?_eq_none_iff.mp h.written
  · rw [hfault]
    rfl
  · rw [hfault]
    exact fun hnone ↦ absurd hnone (by simp)

end Writing

/-! ### From the start to the end -/

variable {w : Timestamp} {lists : List ListCall} {puts : List PutCall} {stage next : CycleStage}

/-- An exchange is added to those that a stage stands by. -/
theorem Goes.standing {x : Exchange} (hx : Goes w stage x next) (h : Standing w lists puts stage) :
    (∃ call, x = .list call ∧ puts = [] ∧ Standing w (lists ++ [call]) [] next) ∨
      ∃ call, x = .put call ∧ Standing w lists (puts ++ [call]) next := by
  cases hx with
  | paged hnext =>
    obtain ⟨hputs, hpaged, hfound⟩ := h
    refine Or.inl ⟨_, rfl, hputs, rfl, hpaged.concat hnext, ?_⟩
    rw [foundIn_concat, hfound]
    rfl
  | @listed l page hnext =>
    obtain ⟨hputs, hpaged, hfound⟩ := h
    have hall : l.found ++ page.partitions = foundIn (lists ++ [⟨l.token, .ok page⟩]) := by
      rw [foundIn_concat, hfound]
      rfl
    rw [hall]
    exact Or.inl ⟨_, rfl, hputs, (hpaged.marked w hnext).standing⟩
  | unlisted =>
    obtain ⟨hputs, hpaged, -⟩ := h
    exact Or.inl ⟨_, rfl, hputs, hpaged.account w _⟩
  | written =>
    obtain ⟨hmarked, rfl⟩ := h
    exact Or.inr ⟨_, rfl, (hmarked.concat _).standing⟩
  | unwritten =>
    obtain ⟨hmarked, rfl⟩ := h
    exact Or.inr ⟨_, rfl, hmarked.account _⟩

/-- The exchanges of a course are listings and then puts. -/
theorem Course.standing {xs : List Exchange} (hxs : Course w stage xs next)
    (h : Standing w lists puts stage) :
    ∃ lists' puts', lists.map .list ++ puts.map .put ++ xs =
        lists'.map Exchange.list ++ puts'.map Exchange.put ∧ Standing w lists' puts' next := by
  induction hxs generalizing lists puts with
  | nil => exact ⟨lists, puts, List.append_nil _, h⟩
  | cons hx _ ih =>
    rcases hx.standing h with ⟨call, rfl, rfl, hnext⟩ | ⟨call, rfl, hnext⟩
    · obtain ⟨lists', puts', hxs, hlast⟩ := ih hnext
      refine ⟨lists', puts', ?_, hlast⟩
      rw [← hxs]
      simp
    · obtain ⟨lists', puts', hxs, hlast⟩ := ih hnext
      refine ⟨lists', puts', ?_, hlast⟩
      rw [← hxs]
      simp

/-- A cycle that ran from its start to its end is accounted for. -/
theorem Course.account {xs : List Exchange} {result : Except Fault EmitOutcome}
    (hxs : Course w (.listing {}) xs (.ended result)) :
    ∃ lists puts, xs = lists.map Exchange.list ++ puts.map Exchange.put ∧
      Account w lists puts result :=
  hxs.standing (standing_start w)

end Cycle

/-! ### What is booked -/

namespace EmitOutcome

/-- The partitions that a cycle counts as written to. -/
def partitions : EmitOutcome → Nat
  | .emitted partitions => partitions
  | .skipped => 0
  | .disabled => 0

/-- How many cycles were skipped. -/
def skips : EmitOutcome → Nat
  | .emitted _ => 0
  | .skipped => 1
  | .disabled => 0

end EmitOutcome

namespace Emitter

/-- Whatever a cycle ended with, it is booked in the same way. -/
theorem complete_eq (e : Emitter) (now : Instant) (w : Timestamp) (outcome : EmitOutcome)
    (i : Instruments) :
    e.complete now w outcome i =
      ({ e with
          eventsSince := 0
          lastCycle := some now
          lastWatermark := some w
          recordsEmitted := e.recordsEmitted + outcome.partitions
          cyclesSkipped := e.cyclesSkipped + outcome.skips },
        { i with metrics := { i.metrics with watermark := w.millis } }) := by
  cases outcome <;> rfl

variable {σ : Type} (d : Destination σ) (e : Emitter) (tracker : Tracker) {now : Instant}
  (next : Timestamp) (i : Instruments) (s : σ)

/-- A cycle that is due is accounted for and booked, unless a fault that is no throttling comes first:
then the emitter is as it was. A disabled one asks the destination for nothing. -/
theorem maybeEmit_accounts (hdue : e.isDue now = true) (hends : d.Ends s none)
    (hput : ∀ s record, (d.put s record).isSome) :
    let w := compute tracker next
    let booked (outcome : EmitOutcome) (s : σ) : Emitter :=
      { e with
        eventsSince := 0
        lastCycle := some (d.now s)
        lastWatermark := some w
        recordsEmitted := e.recordsEmitted + outcome.partitions
        cyclesSkipped := e.cyclesSkipped + outcome.skips }
    (e.config.enabled = true →
      ∃ lists puts result i' s',
        d.Answers s (lists.map .list ++ puts.map .put) s' ∧ Cycle.Account w lists puts result ∧
          ∀ n, lists.length + puts.length ≤ n →
            e.maybeEmit d tracker now next i s n = some (match result with
              | .ok outcome => (.ok (some (w, outcome)), booked outcome s', i', s')
              | .error fault => (.error fault, e, i', s'))) ∧
    (e.config.enabled = false →
      ∃ i', ∀ n, e.maybeEmit d tracker now next i s n =
        some (.ok (some (w, .disabled)), booked .disabled s, i', s)) := by
  intro w booked
  constructor
  · intro henabled
    obtain ⟨xs, result, i', s', hrun⟩ := Cycle.halts_listing (w := w) hput hends [] i
    obtain ⟨lists, puts, rfl, haccount⟩ := hrun.course.account
    have hlength : (lists.map Exchange.list ++ puts.map Exchange.put).length =
        lists.length + puts.length := by
      rw [List.length_append, List.length_map, List.length_map]
    have hcycle : ∀ n, lists.length + puts.length ≤ n →
        (Cycle.start w).run d i s n = some (result, i', s') :=
      fun n hn ↦ hrun.run n (hlength ▸ hn)
    cases result with
    | ok outcome =>
      refine ⟨lists, puts, _, (e.complete (d.now s') w outcome i').2, s', hrun.answers, haccount,
        fun n hn ↦ ?_⟩
      have hrun := hcycle n hn
      simp only [w] at hrun
      simp [maybeEmit, hdue, henabled, hrun, complete_eq, booked, w]
    | error fault =>
      refine ⟨lists, puts, _, i', s', hrun.answers, haccount, fun n hn ↦ ?_⟩
      have hrun := hcycle n hn
      simp only [w] at hrun
      simp [maybeEmit, hdue, henabled, hrun]
  · intro hdisabled
    refine ⟨(e.complete (d.now s) w .disabled i).2, fun n ↦ ?_⟩
    simp [maybeEmit, hdue, hdisabled, complete_eq, booked, w]

/-- Two pages of one partition each; from the fourth call on the destination throttles. -/
def twoPages : Destination Nat where
  list s token :=
    match token with
    | none => some (.ok ⟨[⟨"a", "0"⟩], some "b"⟩, s + 1)
    | some _ => some (.ok ⟨[⟨"b", "1"⟩], none⟩, s + 1)
  put s _ :=
    if s < 3 then some (.ok ⟨"a", none⟩, s + 1)
    else some (.error (.throttled .injectedPut), s + 1)
  now s := Instant.start.after (.ofSeconds s)

/-- The cycle is skipped at the put to the second partition. -/
theorem maybeEmit_accounts_twoPages :
    let e : Emitter := { config := {}, eventsSince := 5, recordsEmitted := 8 }
    let w := (default : Timestamp).pred
    e.isDue .start = true ∧ twoPages.Ends 0 none ∧ (∀ s record, (twoPages.put s record).isSome) ∧
      ∃ lists puts s', twoPages.Answers 0 (lists.map .list ++ puts.map .put) s' ∧
        Cycle.Account w lists puts (.ok .skipped) := by
  intro e w
  have hdue : e.isDue .start = true := by decide
  have hends : twoPages.Ends 0 none := .more rfl rfl (.last rfl rfl)
  have hput : ∀ s record, (twoPages.put s record).isSome := by
    intro s record
    simp only [twoPages]
    split <;> rfl
  obtain ⟨lists, puts, result, i', s', hanswers, haccount, hrun⟩ :=
    (maybeEmit_accounts twoPages e {} default {} 0 hdue hends hput).1 rfl
  have hfour : ∀ n, (e.maybeEmit twoPages {} .start default {} 0 (n + 4)).map (·.1) =
      some (.ok (some (w, .skipped))) := by
    rintro (_ | n) <;> rfl
  have hskipped := hfour (lists.length + puts.length)
  rw [hrun _ (Nat.le_add_right _ 4)] at hskipped
  refine ⟨hdue, hends, hput, lists, puts, s', hanswers, ?_⟩
  cases result with
  | error fault => cases hskipped
  | ok outcome =>
    cases hskipped
    exact haccount

end Emitter

end Tidemark
