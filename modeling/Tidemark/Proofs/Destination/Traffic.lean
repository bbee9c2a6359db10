import Tidemark.Proofs.Destination.Calls

/-!
# A stream among its callers

`Traffic` is a stream in memory with a history: what it answered to whom, which calls wrote a record, which
acknowledgements are under way, and where a flush stands. An `Act` is one thing that happens, and a course is
any list of acts (`Traffic.run`). So calls come in any order, a delayed acknowledgement arrives at any time
after its record was submitted, and everything may happen while a flush waits:

```
submit, put, list, release,      a call of the stream, from its start to its end
releaseAll, reshard, inject
arrive                           a delayed acknowledgement arrives
flush                            a flush is called, unless another one is under way
look                             the flush gets to run
abandon                          the flush is given up
```

A flush has two things to wait for. First there has to be a moment at which no delayed acknowledgement is
under way; it need not be one at which the flush gets to run. Then no acknowledgement may be held when it gets
to run:

```
idle --flush--> delayed before cleared --look, if cleared--> held before --look, if none is held--> idle
```

What an act comes to is told once, by `move_act`.
-/

namespace Tidemark.InMemory

/-- Who has a record written. Puts and submissions are numbered, each in the order of the calls. -/
inductive Caller where
  | put (number : Nat)
  | submission (handle : Nat)
  deriving DecidableEq

/-- A call that wrote its record, with the partitions that it found. -/
structure Writing where
  caller : Caller
  record : Record
  partitions : List Partition

/-- Where a flush stands; `before` is how many handles were given out before it was called. -/
inductive Flush where
  | idle
  /-- It waits for the delayed acknowledgements. It is cleared when there has been a moment without any. -/
  | delayed (before : Nat) (cleared : Bool)
  /-- It waits for the held ones. -/
  | held (before : Nat)

/-- An acknowledgement has arrived, and it was the last one under way or it was not. -/
def Flush.arrived (f : Flush) (last : Bool) : Flush :=
  match f with
  | delayed before cleared => .delayed before (cleared || last)
  | _ => f

/-- Without a last acknowledgement a flush stands where it did. -/
theorem Flush.arrived_false (f : Flush) : f.arrived false = f := by
  cases f with
  | delayed before cleared => exact congrArg _ (Bool.or_false cleared)
  | _ => rfl

structure Traffic where
  stream : InMemory
  /-- How many handles were given out. -/
  submitted : Nat := 0
  /-- How many puts were made. -/
  puts : Nat := 0
  /-- The acknowledgements that are under way, with their handles. -/
  delayed : List (Nat × Ack) := []
  /-- What puts and handles came to, the first first. -/
  answers : List (Caller × Outcome) := []
  /-- The calls that wrote a record, the first first. -/
  writings : List Writing := []
  flush : Flush := .idle
  /-- For each flush that was answered, how many handles were given out before it was called. -/
  flushed : List Nat := []

inductive Act where
  | submit (record : Record)
  | put (record : Record)
  | list (token : Option String)
  | release (index : Nat) (success : Bool)
  | releaseAll
  | reshard (partitions : Nat)
  | inject (kind : Injection) (count : Nat)
  | arrive (index : Nat)
  | flush
  | look
  | abandon

/-- The act is a call with this record. -/
def Act.Hands (a : Act) (record : Record) : Prop :=
  a = .submit record ∨ a = .put record

namespace Traffic

def start (partitions pageSize : Nat) (policy : AckPolicy) : Traffic :=
  { stream := ((create partitions).withPageSize pageSize).withAckPolicy policy }

/-- Somebody has an answer. -/
def answer (t : Traffic) (caller : Caller) (outcome : Outcome) : Traffic :=
  { t with answers := t.answers ++ [(caller, outcome)] }

/-- One more call of this kind was made. -/
def counted (t : Traffic) : Caller → Traffic
  | .put _ => { t with puts := t.puts + 1 }
  | .submission _ => { t with submitted := t.submitted + 1 }

/-- A call with a record leaves the stream so. If the log has grown, the call has written. -/
def called (t : Traffic) (caller : Caller) (record : Record) (stream : InMemory) : Traffic :=
  { t.counted caller with
    stream
    writings :=
      if t.stream.log.size < stream.log.size then t.writings ++ [⟨caller, record, t.stream.partitions⟩]
      else t.writings }

def act (t : Traffic) : Act → Traffic
  | .submit record =>
    let (submission, stream) := t.stream.submit t.submitted record
    let called := t.called (.submission t.submitted) record stream
    match submission with
    | .settled outcome => called.answer (.submission t.submitted) outcome
    | .delayed _ ack => { called with delayed := t.delayed ++ [(t.submitted, ack)] }
    | .held => called
  | .put record =>
    let (outcome, stream) := t.stream.put record
    (t.called (.put t.puts) record stream).answer (.put t.puts) outcome
  | .list token => { t with stream := (t.stream.list token).2 }
  | .release index success =>
    match t.stream.release index success with
    | (none, stream) => { t with stream }
    | (some (handle, outcome), stream) => ({ t with stream }).answer (.submission handle) outcome
  | .releaseAll =>
    let (outcomes, stream) := t.stream.releaseAll
    { t with
      stream
      answers := t.answers ++ outcomes.map fun x ↦ (.submission x.1, x.2) }
  | .reshard n => { t with stream := t.stream.reshard n }
  | .inject kind n => { t with stream := t.stream.inject kind n }
  | .arrive index =>
    match t.delayed[index]? with
    | none => t
    | some (handle, ack) =>
      let delayed := t.delayed.eraseIdx index
      ({ t with delayed, flush := t.flush.arrived delayed.isEmpty }).answer (.submission handle) (.ok ack)
  | .flush =>
    match t.flush with
    | .idle => { t with flush := .delayed t.submitted t.delayed.isEmpty }
    | _ => t
  | .look =>
    match t.flush with
    | .delayed before true => { t with flush := .held before }
    | .held before =>
      if t.stream.held.isEmpty then { t with flush := .idle, flushed := t.flushed ++ [before] } else t
    | _ => t
  | .abandon => { t with flush := .idle }

def run (t : Traffic) (acts : List Act) : Traffic :=
  acts.foldl act t

/-! ### What an act comes to -/

/-- The number of the caller is the next one of its kind. -/
def IsNext (t : Traffic) : Caller → Prop
  | .put n => n = t.puts
  | .submission handle => handle = t.submitted

/-- The traffic after a call that wrote its record, but for the answer. -/
def wrote (t : Traffic) (caller : Caller) (record : Record) (stream : InMemory) : Traffic :=
  { t.counted caller with
    stream
    writings := t.writings ++ [⟨caller, record, t.stream.partitions⟩] }

/-- What may come of an act. -/
inductive Move (t : Traffic) (a : Act) : Traffic → Prop
  | still (stream : InMemory) (hstill : t.stream.Still stream) : Move t a { t with stream }
  | reshard (n : Nat) (hact : a = .reshard n) : Move t a { t with stream := t.stream.reshard n }
  | refused (caller : Caller) (hnext : t.IsNext caller) (fault : Fault) (stream : InMemory)
      (hstill : t.stream.Still stream) :
      Move t a (({ t.counted caller with stream }).answer caller (.error fault))
  | written (caller : Caller) (hnext : t.IsNext caller) (record : Record) (e : LogEntry) (stream : InMemory)
      (hwrites : t.stream.Writes stream record e) (hheld : stream.held = t.stream.held) (hact : a.Hands record) :
      Move t a ((t.wrote caller record stream).answer caller (.ok e.ack))
  | delayed (record : Record) (e : LogEntry) (stream : InMemory)
      (hwrites : t.stream.Writes stream record e) (hheld : stream.held = t.stream.held) (d : Span)
      (hpolicy : t.stream.ackPolicy = .delayed d) (hact : a.Hands record) :
      Move t a { t.wrote (.submission t.submitted) record stream with
        delayed := t.delayed ++ [(t.submitted, e.ack)] }
  | held (record : Record) (e : LogEntry) (stream : InMemory) (hwrites : t.stream.Writes stream record e)
      (hheld : stream.held = t.stream.held ++ [⟨t.submitted, e.ack⟩])
      (hpolicy : t.stream.ackPolicy = .manual) (hact : a.Hands record) :
      Move t a (t.wrote (.submission t.submitted) record stream)
  | release (index : Nat) (success : Bool) (x : HeldAck) (hget : t.stream.held[index]? = some x) :
      Move t a (({ t with stream := { t.stream with held := t.stream.held.eraseIdx index } }).answer
        (.submission x.handle) (releasedAs x.ack success))
  | releaseAll :
      Move t a { t with
        stream := { t.stream with held := [] }
        answers := t.answers ++ t.stream.held.map fun x ↦ (.submission x.handle, .ok x.ack) }
  | arrive (index handle : Nat) (ack : Ack) (hget : t.delayed[index]? = some (handle, ack)) :
      Move t a (({ t with
        delayed := t.delayed.eraseIdx index
        flush := t.flush.arrived (t.delayed.eraseIdx index).isEmpty }).answer (.submission handle) (.ok ack))
  | flush (hflush : t.flush = .idle) : Move t a { t with flush := .delayed t.submitted t.delayed.isEmpty }
  | cleared (before : Nat) (hflush : t.flush = .delayed before true) : Move t a { t with flush := .held before }
  | flushed (before : Nat) (hflush : t.flush = .held before) (hheld : t.stream.held = []) :
      Move t a { t with flush := .idle, flushed := t.flushed ++ [before] }
  | abandon : Move t a { t with flush := .idle }

section Counted

variable (t : Traffic) (caller : Caller)

@[simp] theorem delayed_counted : (t.counted caller).delayed = t.delayed := by
  cases caller <;> rfl

@[simp] theorem answers_counted : (t.counted caller).answers = t.answers := by
  cases caller <;> rfl

@[simp] theorem writings_counted : (t.counted caller).writings = t.writings := by
  cases caller <;> rfl

@[simp] theorem flush_counted : (t.counted caller).flush = t.flush := by
  cases caller <;> rfl

@[simp] theorem flushed_counted : (t.counted caller).flushed = t.flushed := by
  cases caller <;> rfl

end Counted

variable {t : Traffic} {caller : Caller} {record : Record} {stream : InMemory}

/-- A call that leaves the log alone has written nothing. -/
theorem called_of_still (h : t.stream.Still stream) :
    t.called caller record stream = { t.counted caller with stream } := by
  rw [called, h.log, if_neg (Nat.lt_irrefl _)]
  cases caller <;> rfl

/-- A call after which the log has grown has written its record. -/
theorem called_of_writes {e : LogEntry} (h : t.stream.Writes stream record e) :
    t.called caller record stream = t.wrote caller record stream := by
  rw [called, h.log, Array.size_push, if_pos (Nat.lt_succ_self _), wrote]

theorem move_self (t : Traffic) (a : Act) : t.Move a t :=
  .still t.stream ⟨rfl, rfl, rfl, rfl, rfl, rfl, rfl⟩

theorem move_act (t : Traffic) (a : Act) : t.Move a (t.act a) := by
  cases a with
  | submit record =>
    rw [act]
    generalize hsubmit : t.stream.submit t.submitted record = x
    have hcases := t.stream.submits_submit t.submitted record
    rw [hsubmit] at hcases
    cases hcases with
    | refused fault stream hstill =>
      dsimp only
      rw [called_of_still hstill]
      exact .refused (.submission t.submitted) rfl fault stream hstill
    | immediate e stream hwrites hheld =>
      dsimp only
      rw [called_of_writes hwrites]
      exact .written (.submission t.submitted) rfl record e stream hwrites hheld (Or.inl rfl)
    | delayed e stream hwrites hheld _ d hpolicy =>
      dsimp only
      rw [called_of_writes hwrites]
      exact .delayed record e stream hwrites hheld d hpolicy (Or.inl rfl)
    | held e stream hwrites hheld _ hpolicy =>
      dsimp only
      rw [called_of_writes hwrites]
      exact .held record e stream hwrites hheld hpolicy (Or.inl rfl)
  | put record =>
    rw [act]
    generalize hput : t.stream.put record = x
    have hcases := t.stream.puts_put record
    rw [hput] at hcases
    cases hcases with
    | refused fault stream hstill =>
      dsimp only
      rw [called_of_still hstill]
      exact .refused (.put t.puts) rfl fault stream hstill
    | written e stream hwrites hheld =>
      dsimp only
      rw [called_of_writes hwrites]
      exact .written (.put t.puts) rfl record e stream hwrites hheld (Or.inr rfl)
  | list token => exact .still _ (t.stream.still_list token)
  | release index success =>
    rw [act]
    rcases t.stream.release_cases index success with ⟨-, hrelease⟩ | ⟨x, hget, hrelease⟩
    · rw [hrelease]
      exact t.move_self _
    · rw [hrelease]
      exact .release index success x hget
  | releaseAll =>
    rw [act, InMemory.releaseAll]
    dsimp only
    rw [List.map_map]
    exact .releaseAll
  | reshard n => exact .reshard n rfl
  | inject kind n => exact .still _ ⟨rfl, rfl, rfl, rfl, rfl, rfl, rfl⟩
  | arrive index =>
    rw [act]
    cases hget : t.delayed[index]? with
    | none => exact t.move_self _
    | some x => exact .arrive index x.1 x.2 hget
  | flush =>
    rw [act]
    split
    · exact .flush ‹_›
    · exact t.move_self _
  | look =>
    rw [act]
    split
    · exact .cleared _ ‹_›
    · split
      · rename_i hheld
        exact .flushed _ ‹_› (List.isEmpty_iff.1 hheld)
      · exact t.move_self _
    · exact t.move_self _
  | abandon => exact .abandon

theorem run_append (t : Traffic) (acts more : List Act) : t.run (acts ++ more) = (t.run acts).run more :=
  List.foldl_append

/-- What is kept by the moves of some acts is kept by the course of these acts. -/
theorem of_moves {P : Traffic → Prop} {acts : List Act}
    (hmove : ∀ {t t' : Traffic} {a : Act}, a ∈ acts → t.Move a t' → P t → P t') (hstart : P t) :
    P (t.run acts) := by
  induction acts generalizing t with
  | nil => exact hstart
  | cons a rest ih =>
    exact ih (fun ha ↦ hmove (List.mem_cons_of_mem a ha)) (hmove List.mem_cons_self (t.move_act a) hstart)

end Traffic

end Tidemark.InMemory
