import Tidemark.Proofs.Rehearsal.Waiting
import Tidemark.Proofs.Retry.Course
import Tidemark.Rehearsal.Sharding

/-!
# Streams that are waited for

Whoever waits for a stream asks about it again and again. An answer is conclusive unless it says that the stream
is being created or updated, and the first conclusive answer decides; if there is none among thirty-one, the last
of these does:

```
CREATING   UPDATING   CREATING   ACTIVE                          ready
CREATING   a refusal                                             its fault
CREATING   CREATING   ...        CREATING (the thirty-first)     still CREATING
```

To wait is to retry (`waiting`): an answer is a failure unless it says that the stream is active, and the failure
passes if the stream is pending. There are thirty delays. So the calls end with the answer that `Concludes` the
wait, of which there is exactly one (`exists_concludes`, `Concludes.unique`). The world of a rehearsal in which
somebody waits `Follows` the retry from request to request (`Follows.again`), up to that answer
(`Follows.activate`). So what holds of the retry holds of a rehearsal that connects to a stream
(`first_conclusive_answer_decides`).
-/

namespace Tidemark.Shards

/-- An answer to the question about a stream: a refusal, or a description with its status if there is one. -/
abbrev Description := Except Refusal (Option String)

namespace Description

def IsActive (answer : Description) : Prop :=
  answer = .ok (some "ACTIVE")

def IsPending (answer : Description) : Prop :=
  answer = .ok (some "CREATING") ∨ answer = .ok (some "UPDATING")

/-- What an answer means for somebody who wants to write. -/
def readiness : Description → Readiness
  | .ok (some status) => Shards.readiness status
  | .ok none => .unusable
  | .error _ => .unusable

/-- The fault of somebody who got an answer and cannot wait for another one. -/
def fault (streamName : String) : Description → StreamFault
  | .error refusal => .ofRefusal refusal
  | .ok none => .service ("no description for stream " ++ streamName)
  | .ok (some status) =>
    if Shards.readiness status = .pending then
      .service ("stream " ++ streamName ++ " did not become active, still " ++ status)
    else .service ("stream " ++ streamName ++ " is " ++ status ++ ", cannot write to it")

/-- What comes of an answer after which no other one is waited for. -/
def verdict (streamName : String) (answer : Description) : Except StreamFault Unit :=
  if answer.readiness = .ready then .ok () else .error (answer.fault streamName)

variable {answer : Description}

/-- Only an active stream is ready. -/
theorem readiness_eq_ready_iff : answer.readiness = .ready ↔ answer.IsActive := by
  rw [IsActive]
  fun_cases readiness answer with
  | case1 status =>
    rw [Shards.readiness]
    split
    · simp_all
    · split <;> simp_all
  | case2 => simp
  | case3 => simp

/-- Only a stream that is pending is asked about again. -/
theorem readiness_eq_pending_iff : answer.readiness = .pending ↔ answer.IsPending := by
  rw [IsPending]
  fun_cases readiness answer with
  | case1 status =>
    rw [Shards.readiness]
    split
    · simp_all
    · split <;> simp_all
  | case2 => simp
  | case3 => simp

theorem not_isPending_of_isActive (h : answer.IsActive) : ¬ answer.IsPending := by
  rw [← readiness_eq_pending_iff, readiness_eq_ready_iff.2 h]
  decide

/-- The verdict is good for an active stream only. -/
theorem verdict_eq_ok_iff {streamName : String} : answer.verdict streamName = .ok () ↔ answer.IsActive := by
  rw [verdict, ← readiness_eq_ready_iff]
  split <;> simp_all

theorem verdict_of_not_isActive (streamName : String) (h : ¬ answer.IsActive) :
    answer.verdict streamName = .error (answer.fault streamName) :=
  if_neg fun hready ↦ h (readiness_eq_ready_iff.1 hready)

end Description

namespace Activation

variable {a : Activation} {draw : Binary64} {answer : Description}

/-- After an answer that is the last one, its verdict is what comes of the wait. -/
theorem answered_of_last (h : ¬ answer.IsPending ∨ (a.backoff.next draw).1 = none) :
    answer.verdict a.streamName = .ok () ∧ a.answered draw answer = .ready ∨
      ∃ fault, answer.verdict a.streamName = .error fault ∧ a.answered draw answer = .failed fault := by
  rw [← Description.readiness_eq_pending_iff] at h
  rw [Description.verdict]
  fun_cases Description.readiness answer with
  | case1 status =>
    rw [Description.readiness] at h
    cases hready : readiness status with
    | ready => simp [answered, hready]
    | unusable => simp [answered, hready, Description.fault]
    | pending =>
      have hnone := h.resolve_left (not_not_intro hready)
      generalize hnext : a.backoff.next draw = x at hnone
      obtain ⟨d, backoff⟩ := x
      obtain rfl : d = none := hnone
      simp [answered, hready, Description.fault, hnext]
  | case2 => simp [answered, Description.fault]
  | case3 refusal => simp [answered, Description.fault]

/-- A stream that is pending is asked about again after a delay, if there is one. -/
theorem answered_of_isPending (h : answer.IsPending) {d : Span} {backoff : Backoff}
    (hnext : a.backoff.next draw = (some d, backoff)) :
    ∃ status, a.answered draw answer = .again status d { a with backoff } := by
  rcases h with rfl | rfl
  · exact ⟨"CREATING", by simp [answered, readiness, hnext]⟩
  · exact ⟨"UPDATING", by simp [answered, readiness, hnext]⟩

end Activation

/-! ### Waiting as a retry -/

/-- The delays that there are before a stream is asked about. -/
def untried : Backoff × ℕ :=
  ((Activation.start "").backoff, 0)

/-- To wait for a stream is to retry. Each answer takes its time, and is a failure unless it says that the stream
is active. -/
def waiting (answers : ℕ → Span × Description) (draws : ℕ → Binary64) :
    Retry Description Unit (Backoff × ℕ) where
  retryable answer := answer.readiness = .pending
  next := Backoff.drawn draws
  operation n := ((answers n).1, if (answers n).2.readiness = .ready then .ok () else .error (answers n).2)

/-- An answer is the last one that is waited for: the first that is conclusive, or the thirty-first. -/
structure Concludes (answers : ℕ → Description) (n : ℕ) : Prop where
  le : n ≤ Activation.waitAttempts
  pending : ∀ m < n, (answers m).IsPending
  last : (answers n).IsPending → n = Activation.waitAttempts

/-- Some answer is the last one. -/
theorem exists_concludes (answers : ℕ → Description) : ∃ n, Concludes answers n := by
  classical
  by_cases h : ∃ n, n ≤ Activation.waitAttempts ∧ ¬ (answers n).IsPending
  · obtain ⟨hle, hconclusive⟩ := Nat.find_spec h
    refine ⟨Nat.find h, hle, fun m hm ↦ ?_, fun hpending ↦ absurd hpending hconclusive⟩
    exact not_not.1 fun hnot ↦ Nat.find_min h hm ⟨Nat.le_of_lt (Nat.lt_of_lt_of_le hm hle), hnot⟩
  · refine ⟨Activation.waitAttempts, Nat.le_refl _, fun m hm ↦ ?_, fun _ ↦ rfl⟩
    exact not_not.1 fun hnot ↦ h ⟨m, Nat.le_of_lt hm, hnot⟩

/-- Only one answer is the last one. -/
theorem Concludes.unique {answers : ℕ → Description} {m n : ℕ} (hm : Concludes answers m)
    (hn : Concludes answers n) : m = n := by
  rcases Nat.lt_trichotomy m n with hlt | heq | hlt
  · exact absurd (hm.last (hn.pending m hlt)) (Nat.ne_of_lt (Nat.lt_of_lt_of_le hlt hn.le))
  · exact heq
  · exact absurd (hn.last (hm.pending n hlt)) (Nat.ne_of_lt (Nat.lt_of_lt_of_le hlt hm.le))

section Waiting

variable {answers : ℕ → Span × Description} {draws : ℕ → Binary64} {n : ℕ}

/-- Waiting ends early with an answer that is not pending. -/
theorem decides_waiting_iff : (waiting answers draws).Decides n ↔ ¬ (answers n).2.IsPending := by
  rw [← Description.readiness_eq_pending_iff, Retry.Decides, waiting]
  cases h : (answers n).2.readiness <;> simp [h]

/-- There are as many delays as there are attempts to wait. -/
theorem delay?_waiting_eq_none_iff :
    (waiting answers draws).delay? untried n = none ↔ Activation.waitAttempts ≤ n := by
  have hmost : untried.1.maxAttempts = some Activation.waitAttempts := rfl
  rw [Retry.delay?_drawn_eq_none_iff rfl hmost (by decide)]
  show Activation.waitAttempts ≤ 0 + n ↔ _
  rw [Nat.zero_add]

/-- The wait stops at the answer that concludes it. -/
theorem Concludes.stops (h : Concludes (fun j ↦ (answers j).2) n) : (waiting answers draws).Stops untried n := by
  rw [Retry.Stops, decides_waiting_iff, delay?_waiting_eq_none_iff]
  by_cases hpending : (answers n).2.IsPending
  · exact Or.inr (Nat.le_of_eq (h.last hpending).symm)
  · exact Or.inl hpending

theorem Concludes.goesOn (h : Concludes (fun j ↦ (answers j).2) n) {j : ℕ} (hj : j < n) :
    ¬ (waiting answers draws).Stops untried j := by
  rw [Retry.Stops, decides_waiting_iff, delay?_waiting_eq_none_iff, not_or, not_not]
  exact ⟨h.pending j hj, Nat.not_le.2 (Nat.lt_of_lt_of_le hj h.le)⟩

end Waiting

/-- What comes of waiting for a stream. The requests are told by when they were made and when they were answered.
There are thirty-one at most, and the first conclusive answer decides. Between two requests there is a sleep, and
none after the last. -/
structure Awaits (streamName : String) (answers : ℕ → Description) (delays : ℕ → Option Span)
    (requests : List (Instant × Instant)) (result : Except StreamFault Unit) (now : Instant) : Prop where
  bounded : requests.length ≤ 31
  ok_iff : result = .ok () ↔ ∃ n < 31, (answers n).IsActive ∧ ∀ m < n, (answers m).IsPending
  conclusive : ∀ n < 31, (∀ m < n, (answers m).IsPending) → ¬ (answers n).IsPending →
    requests.length = n + 1 ∧ (¬ (answers n).IsActive → result = .error ((answers n).fault streamName))
  exhausted : (∀ n < 31, (answers n).IsPending) →
    requests.length = 31 ∧ result = .error ((answers 30).fault streamName)
  sleeps : ∀ j x y, requests[j]? = some x → requests[j + 1]? = some y →
    ∃ d, delays j = some d ∧ (x.2.after (x.2.slept d)).IsNextMilli y.1
  ends : requests.getLast?.map (·.2) = some now

/-- The answer that concludes a wait decides all that comes of it but the times. -/
theorem Awaits.of_concludes {streamName : String} {answers : ℕ → Description} {delays : ℕ → Option Span}
    {requests : List (Instant × Instant)} {now : Instant} {n : ℕ} (h : Concludes answers n)
    (hlength : requests.length = n + 1)
    (hsleeps : ∀ j x y, requests[j]? = some x → requests[j + 1]? = some y →
      ∃ d, delays j = some d ∧ (x.2.after (x.2.slept d)).IsNextMilli y.1)
    (hends : requests.getLast?.map (·.2) = some now) :
    Awaits streamName answers delays requests ((answers n).verdict streamName) now where
  bounded := hlength ▸ Nat.succ_le_succ h.le
  ok_iff := by
    rw [Description.verdict_eq_ok_iff]
    constructor
    · exact fun hactive ↦ ⟨n, Nat.lt_succ_of_le h.le, hactive, h.pending⟩
    · rintro ⟨m, hm, hactive, hpending⟩
      have hconcludes : Concludes answers m :=
        ⟨Nat.le_of_lt_succ hm, hpending, fun hp ↦ absurd hp (Description.not_isPending_of_isActive hactive)⟩
      exact h.unique hconcludes ▸ hactive
  conclusive := by
    intro m hm hpending hconclusive
    obtain rfl := h.unique ⟨Nat.le_of_lt_succ hm, hpending, fun hp ↦ absurd hp hconclusive⟩
    exact ⟨hlength, Description.verdict_of_not_isActive streamName⟩
  exhausted := by
    intro hpending
    obtain rfl := h.unique ⟨Nat.le_refl _, fun m hm ↦ hpending m (Nat.lt_succ_of_lt hm), fun _ ↦ rfl⟩
    refine ⟨hlength, Description.verdict_of_not_isActive streamName fun hactive ↦ ?_⟩
    exact Description.not_isPending_of_isActive hactive (hpending _ (Nat.lt_succ_self _))
  sleeps := hsleeps
  ends := hends

/-- However long the answers take and whatever is drawn, the requests up to the answer that concludes a wait are as
they should be. -/
theorem awaits_waiting (streamName : String) (answers : ℕ → Span × Description) (draws : ℕ → Binary64)
    (now : Instant) {n : ℕ} (h : Concludes (fun j ↦ (answers j).2) n) :
    let p := waiting answers draws
    let requests := (List.range (n + 1)).map fun j ↦ ((p.call now untried j).began, (p.call now untried j).ended)
    Awaits streamName (fun j ↦ (answers j).2) (p.delay? untried) requests ((answers n).2.verdict streamName)
      (p.call now untried n).ended := by
  intro p requests
  have hrequests :
      requests = ((List.range (n + 1)).map (p.call now untried)).map fun c ↦ (c.began, c.ended) := by
    rw [List.map_map]
    rfl
  refine .of_concludes h (by rw [List.length_map, List.length_range]) ?_ ?_
  · intro j x y hx hy
    have hpaced : p.Paced now untried ((List.range (n + 1)).map (p.call now untried)) :=
      Retry.paced_calls fun j hj hnone ↦ h.goesOn (Nat.lt_of_succ_lt_succ hj) (Or.inr hnone)
    rw [hrequests, List.getElem?_map, Option.map_eq_some_iff] at hx hy
    obtain ⟨c, hc, rfl⟩ := hx
    obtain ⟨c', hc', rfl⟩ := hy
    exact hpaced.next j c c' hc hc'
  · rw [List.getLast?_map, List.getLast?_range]
    rfl

/-- The fault of the last call is that of the answer. -/
theorem mapError_outcome (streamName : String) (answers : ℕ → Span × Description) (draws : ℕ → Binary64)
    (now : Instant) (n : ℕ) :
    ((waiting answers draws).call now untried n).outcome.mapError (Description.fault streamName) =
      (answers n).2.verdict streamName := by
  rw [Retry.call, waiting, Description.verdict]
  dsimp only
  split <;> rfl

end Tidemark.Shards

namespace Tidemark.Rehearsal

open Shards

/-- The n-th of some replies, of which the last one stays. -/
def replyAt {α : Type} (usual : α) : List α → ℕ → α
  | replies, 0 => (nextReply usual replies).1
  | replies, n + 1 => replyAt usual (nextReply usual replies).2 n

/-- What the service answers when it is asked about the stream for the n-th time. -/
def ServiceScript.describes (script : ServiceScript) : ℕ → Description :=
  replyAt (.ok (some "ACTIVE")) script.descriptions

/-- A reply that is listed is the one given. -/
theorem replyAt_eq_of_getElem? {α : Type} {usual x : α} {replies : List α} {n : ℕ} (h : replies[n]? = some x) :
    replyAt usual replies n = x := by
  induction n generalizing replies with
  | zero =>
    match replies with
    | [last] => exact Option.some.inj h
    | first :: second :: rest => exact Option.some.inj h
  | succ n ih =>
    match replies with
    | [last] => exact absurd h (by simp)
    | first :: second :: rest => exact ih h

/-- Any answers are those of a script, as far as they matter. -/
theorem exists_describes (answers : ℕ → Description) (k : ℕ) :
    ∃ script : ServiceScript, ∀ n < k, script.describes n = answers n := by
  refine ⟨{ descriptions := (List.range k).map answers }, fun n hn ↦ replyAt_eq_of_getElem? ?_⟩
  rw [List.getElem?_map, List.getElem?_range hn]
  rfl

namespace Sharding

variable {c : StreamConfig} {script : ServiceScript} {w : Sharding} {a : Activation} {n : ℕ}

variable (script) in
/-- A rehearsed wait, in which answers take no time and jitter is drawn as if there were none. -/
def waits : Retry Description Unit (Backoff × ℕ) :=
  waiting (fun n ↦ (Span.zero, script.describes n)) fun _ ↦ evenDraw

variable (script) in
/-- When a stream is asked about, counted from zero, if it is. -/
def asksAt (n : ℕ) : Instant :=
  ((waits script).call .start untried n).began

variable (c script) in
/-- The world has come so far in waiting for a stream. -/
structure Follows (n : ℕ) (w : Sharding) (a : Activation) : Prop where
  idle : w.agenda.tasks = []
  now : w.now = asksAt script n
  streamName : a.streamName = c.streamName
  backoff : a.backoff = ((waits script).delaysAfter untried n).1
  requests : w.state.requests.reverse = (List.range n).map fun j ↦ (asksAt script j, .describe c.streamName)
  answers : ∀ j, w.state.script.describes j = script.describes (n + j)
  producer : w.state.producer = Producer.absent

theorem follows_unconnected (c : StreamConfig) (script : ServiceScript) :
    Follows c script 0 (unconnected c script) (Activation.start c.streamName) where
  idle := rfl
  now := rfl
  streamName := rfl
  backoff := rfl
  requests := rfl
  answers j := by rw [Nat.zero_add]; rfl
  producer := rfl

/-- One more request stands last among those made. -/
theorem Follows.asked (h : Follows c script n w a) :
    (w.describe a.streamName).2.state.requests.reverse =
      (List.range (n + 1)).map fun j ↦ (asksAt script j, .describe c.streamName) := by
  show ((w.now, ServiceRequest.describe a.streamName) :: w.state.requests).reverse = _
  rw [List.reverse_cons, h.requests, h.now, h.streamName, List.range_succ, List.map_append]
  rfl

/-- A pending stream is asked about again when a sleep is over. -/
theorem Follows.again (h : Follows c script n w a) (hpending : (script.describes n).IsPending)
    (hleft : n < Activation.waitAttempts) :
    ∃ status d a', a.answered evenDraw (w.describe a.streamName).1 = .again status d a' ∧
      ∀ notice, Follows c script (n + 1) (World.sleep perform d ((w.describe a.streamName).2.note notice)) a' := by
  have hanswer : (w.describe a.streamName).1 = script.describes n := h.answers 0
  obtain ⟨d, hd⟩ := Option.ne_none_iff_exists'.1
    (mt delay?_waiting_eq_none_iff.1 (Nat.not_le.2 hleft) : (waits script).delay? untried n ≠ none)
  have hnext : a.backoff.next evenDraw = (some d, ((waits script).delaysAfter untried (n + 1)).1) := by
    rw [h.backoff]
    exact Prod.ext hd rfl
  obtain ⟨status, hagain⟩ := Activation.answered_of_isPending hpending hnext
  refine ⟨status, d, _, hanswer ▸ hagain, fun notice ↦ ?_⟩
  have hidle : ((w.describe a.streamName).2.note notice).agenda.tasks = [] := h.idle
  rw [World.sleep_of_idle hidle]
  exact {
    idle := rfl
    now := by
      show w.now.wake d = ((asksAt script n).after Span.zero).wake _
      rw [hd, h.now]
      rfl
    streamName := h.streamName
    backoff := rfl
    requests := h.asked
    answers := fun j ↦ (h.answers (j + 1)).trans (by rw [Nat.add_right_comm, Nat.add_assoc])
    producer := h.producer }

variable (c script) in
/-- What comes of a wait that the world has come to the end of. -/
structure Waited (m : ℕ) (x : Except StreamFault Unit × Sharding) : Prop where
  result : x.1 = (script.describes m).verdict c.streamName
  now : x.2.now = asksAt script m
  requests : x.2.state.requests.reverse =
    (List.range (m + 1)).map fun j ↦ (asksAt script j, .describe c.streamName)
  producer : x.2.state.producer = Producer.absent

/-- A world in which somebody waits comes to the answer that concludes it. -/
theorem Follows.activate {m k : ℕ} (h : Follows c script n w a) (hs : Concludes script.describes m)
    (hle : n ≤ m) (hk : m < n + k) : Waited c script m (w.activate a k) := by
  induction k generalizing w a n with
  | zero => exact absurd hle (Nat.not_le.2 hk)
  | succ k ih =>
    rw [Sharding.activate]
    dsimp only
    rcases Nat.lt_or_eq_of_le hle with hlt | rfl
    · obtain ⟨status, d, a', hagain, hfollows⟩ := h.again (hs.pending n hlt) (Nat.lt_of_lt_of_le hlt hs.le)
      rw [hagain]
      exact ih (hfollows _) hlt (by omega)
    · have hanswer : (w.describe a.streamName).1 = script.describes n := h.answers 0
      have hlast : ¬ (script.describes n).IsPending ∨ (a.backoff.next evenDraw).1 = none := by
        refine or_iff_not_imp_left.2 fun hpending ↦ ?_
        have hnone : (waits script).delay? untried n = none :=
          delay?_waiting_eq_none_iff.2 (Nat.le_of_eq (hs.last (not_not.1 hpending)).symm)
        rw [h.backoff]
        exact hnone
      rcases Activation.answered_of_last hlast with ⟨hverdict, hready⟩ | ⟨fault, hverdict, hfailed⟩
      · rw [hanswer, hready]
        exact ⟨(h.streamName ▸ hverdict).symm, h.now, h.asked, h.producer⟩
      · rw [hanswer, hfailed]
        exact ⟨(h.streamName ▸ hverdict).symm, h.now, h.asked, h.producer⟩

/-- Whoever connects waits as a retry does, with the producer started at its end if the stream is active. -/
theorem waited_connect (hc : c.validate = .ok ()) (script : ServiceScript) :
    ∃ m, Concludes script.describes m ∧ ∃ x : Except StreamFault Unit × Sharding, Waited c script m x ∧
      (connect c script).1 = x.1 ∧ (connect c script).2.now = x.2.now ∧
      (connect c script).2.state.requests = x.2.state.requests ∧
      (x.1 = .ok () → (connect c script).2.state.producer = Producer.start c) ∧
      (x.1 ≠ .ok () → (connect c script).2.state.producer = Producer.absent) := by
  obtain ⟨m, hm⟩ := exists_concludes script.describes
  have hwithin : m < 0 + (Activation.waitAttempts + 2) := by
    have hle := hm.le
    omega
  have hwaited := (follows_unconnected c script).activate hm (Nat.zero_le m) hwithin
  refine ⟨m, hm, _, hwaited, ?_⟩
  rw [connect, hc]
  dsimp only
  generalize (unconnected c script).activate _ _ = x at hwaited ⊢
  obtain ⟨result, w⟩ := x
  cases result with
  | ok _ => exact ⟨rfl, rfl, rfl, fun _ ↦ rfl, fun h ↦ absurd rfl h⟩
  | error fault => exact ⟨rfl, rfl, rfl, nofun, fun _ ↦ hwaited.producer⟩

/-- Waiting for a stream is bounded, and decided by the first conclusive answer. That is so whatever the answers
are, however long they take, and whatever is drawn for the delays. Whoever connects to a stream waits for it so,
once the configuration is found valid, and makes no request if it is not. The producer is started after the stream
is found to be active, and not otherwise. Any thirty-one answers are those of a script. -/
theorem first_conclusive_answer_decides :
    (∀ (streamName : String) (answers : ℕ → Span × Description) (draws : ℕ → Binary64) (now : Instant),
      let run (n : ℕ) := (waiting answers draws).run n { now, delays := untried }
      (∀ n ≥ 31, run n = run 31) ∧ ∃ result, (run 31).result = some result ∧
        Awaits streamName (fun n ↦ (answers n).2) ((waiting answers draws).delay? untried)
          ((run 31).calls.map fun call ↦ (call.began, call.ended))
          (result.mapError (Description.fault streamName)) (run 31).now) ∧
    (∀ answers : ℕ → Description, ∃ script : ServiceScript, ∀ n < 31, script.describes n = answers n) ∧
    ∀ (c : StreamConfig) (script : ServiceScript),
      let result := (connect c script).1
      let w := (connect c script).2
      let requests := w.state.requests.reverse
      (∀ fault, c.validate = .error fault →
        result = .error fault ∧ requests = [] ∧ w.state.producer = Producer.absent) ∧
      (c.validate = .ok () →
        Awaits c.streamName script.describes ((waits script).delay? untried)
            (requests.map fun x ↦ (x.1, x.1)) result w.now ∧
          (∀ x ∈ requests, x.2 = .describe c.streamName) ∧
          (result = .ok () → w.state.producer = Producer.start c) ∧
          (result ≠ .ok () → w.state.producer = Producer.absent)) := by
  refine ⟨fun streamName answers draws now ↦ ?_, fun answers ↦ exists_describes answers 31,
    fun c script ↦ ⟨fun fault hc ↦ ?_, fun hc ↦ ?_⟩⟩
  · intro run
    obtain ⟨n, hn⟩ := exists_concludes fun j ↦ (answers j).2
    have hstops : (waiting answers draws).Stops untried n := hn.stops
    obtain ⟨left, hstep, -⟩ := Retry.step_before_of_stops now hstops
    have hrun (k : ℕ) (hk : 31 ≤ k) : run k = _ :=
      (Retry.run_of_stops (fun j hj ↦ hn.goesOn hj) hstops (Nat.lt_of_le_of_lt hn.le hk)).trans hstep
    have hlast := hrun 31 (Nat.le_refl _)
    refine ⟨fun k hk ↦ (hrun k hk).trans hlast.symm, _, congrArg Retrial.result hlast, ?_⟩
    rw [hlast, mapError_outcome, List.map_map]
    exact awaits_waiting streamName answers draws now hn
  · rw [connect, hc]
    exact ⟨rfl, rfl, rfl⟩
  · obtain ⟨m, hm, x, hwaited, hresult, hnow, hrequests, hstarted, habsent⟩ := waited_connect hc script
    have hawaits : Awaits c.streamName _ _ _ _ _ := awaits_waiting c.streamName
      (fun n ↦ (Span.zero, script.describes n)) (fun _ ↦ evenDraw) .start hm
    refine ⟨?_, ?_, hresult ▸ hstarted, hresult ▸ habsent⟩
    · rw [hresult, hnow, hrequests, hwaited.result, hwaited.now, hwaited.requests, List.map_map]
      exact hawaits
    · rw [hrequests, hwaited.requests]
      intro x hx
      obtain ⟨j, -, rfl⟩ := List.mem_map.1 hx
      rfl

end Sharding

end Tidemark.Rehearsal
