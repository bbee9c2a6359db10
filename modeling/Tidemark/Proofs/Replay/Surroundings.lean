import Tidemark.Proofs.Replay.Veiled

/-!
# A replay in its surroundings

`Surroundings` are the world around a replay, but for the handles of what it submits: what the source
answers, what a destination answers to listings and puts, how long each of them takes, when a sleep ends, and
when the replay is cancelled. They settle a course of the replay up to its drain, together with the handles
that resolve before each answer:

```
            land               serve               land               serve
 replay ──────────> asking ─────────> replay ──────────> asking ─────────> ...
         acks 0             answer 0           acks 1             answer 1
```

Nothing that a course goes through is moved by the handles: the veiled courses are the same
(`veiled_asking_eq`), and whatever is seen of an answer is seen through the veil (`sight?_veiled`).
-/

namespace Tidemark

/-- The world around a replay, but for the handles of what it submits. An answer may depend on the instants of
all calls of its kind so far, the first first. -/
structure Surroundings where
  /-- What the source answers to a pull, and when. -/
  pull : List Instant → Except Fault (Option Event) × Instant
  /-- What the destination answers to a request for a page, and when. -/
  list : List Instant → Except Fault Page × Instant
  /-- What becomes of a record that is put, and when. -/
  put : List Instant → Outcome × Instant
  /-- When a sleep ends that begins at an instant. -/
  wake : Instant → Span → Instant
  cancelledAt : Option Instant

/-- How far a replay has come in its surroundings. -/
structure Course where
  replay : Replay
  /-- Everything that has happened to the replay. -/
  log : List Happening := []
  now : Instant := Instant.start
  /-- The instants of the calls so far, of each kind. -/
  pulls : List Instant := []
  lists : List Instant := []
  puts : List Instant := []

namespace Course

/-- The course without what the handles change. -/
def veiled (c : Course) : Course :=
  { c with replay := c.replay.veiled, log := [] }

/-- Books the call that the replay waits for. -/
def ask (c : Course) : Course :=
  match c.replay.request with
  | .pull => { c with pulls := c.pulls ++ [c.now] }
  | .list _ => { c with lists := c.lists ++ [c.now] }
  | .put _ => { c with puts := c.puts ++ [c.now] }
  | _ => c

/-- The course after an answer to what the replay waits for. -/
def take (c : Course) (now : Instant) (cancelled : Bool) (a : ReplayAnswer) : Course :=
  { c.ask with
    replay := (c.replay.answer now cancelled a).1
    log := c.log ++ [.answered now cancelled a]
    now }

/-- Handles that resolve, as the completions of their sends. -/
def landing (acks : List (Nat × Outcome)) : List Happening :=
  acks.map fun (id, outcome) ↦ .completed id outcome

/-- The course after the completions of some sends. -/
def land (c : Course) (acks : List (Nat × Outcome)) : Course :=
  { c with replay := c.replay.after (landing acks), log := c.log ++ landing acks }

end Course

namespace Surroundings

variable (s : Surroundings)

def isCancelled (now : Instant) : Bool :=
  match s.cancelledAt with
  | some t => t ≤ now
  | none => false

/-- A wait that is over when it is answered or when the replay is cancelled, whichever comes first. -/
def cut (now due : Instant) (a : ReplayAnswer) : Instant × Bool × ReplayAnswer :=
  match s.cancelledAt with
  | some t => if t ≤ due then (if now ≤ t then t else now, true, a) else (due, false, a)
  | none => (due, false, a)

/-- The answer to what the replay waits for; none once the loop has ended. Listings and puts are not cut
short. -/
def answer? (c : Course) : Option (Instant × Bool × ReplayAnswer) :=
  match c.replay.request with
  | .pull =>
    let (answer, due) := s.pull (c.pulls ++ [c.now])
    some (s.cut c.now due (.pulled answer))
  | .sleep d => some (s.cut c.now (s.wake c.now d) .slept)
  | .list _ =>
    let (answer, due) := s.list (c.lists ++ [c.now])
    some (due, s.isCancelled due, .listed answer)
  | .put _ =>
    let (answer, due) := s.put (c.puts ++ [c.now])
    some (due, s.isCancelled due, .wrote answer)
  | _ => none

/-- The course after the next answer, if there is one. -/
def serve (c : Course) : Course :=
  match s.answer? c with
  | some (now, cancelled, a) => c.take now cancelled a
  | none => c

/-- The course of a replay after so many answers, if these handles resolve before each of them. -/
def course (r : Replay) (acks : Nat → List (Nat × Outcome)) : Nat → Course
  | 0 => { replay := r }
  | n + 1 => s.serve ((course r acks n).land (acks n))

/-- The course when the answer of a number is due. -/
def asking (r : Replay) (acks : Nat → List (Nat × Outcome)) (n : Nat) : Course :=
  (s.course r acks n).land (acks n)

/-- What is seen of the next answer. -/
def sight? (c : Course) : Option Replay.Sight :=
  (s.answer? c).map fun (now, cancelled, a) ↦ c.replay.sight now cancelled a

/-- The watermark of the cycle that begins with the next answer. -/
def opened? (c : Course) : Option Timestamp :=
  (s.answer? c).bind fun (now, cancelled, a) ↦ c.replay.opened? (.answered now cancelled a)

/-! ### What is seen through the veil -/

/-- The request of a replay, seen through the veil, is one of the same kind. -/
theorem request_veiled (r : Replay) :
    r.veiled.request = r.request ∨
      ∃ record record', r.request = .put record ∧ r.veiled.request = .put record' := by
  cases hs : r.stage with
  | emitting cycle pending checkedAt =>
    have hs' : r.veiled.stage = .emitting cycle.veiled pending checkedAt := by rw [Replay.veiled, hs]; rfl
    have hstage : cycle.veiled.stage = cycle.stage := rfl
    cases hcycle : cycle.stage with
    | writing left listed =>
      rw [hcycle] at hstage
      cases left with
      | nil => exact Or.inl (by simp only [Replay.request, hs, hs', Cycle.request?, hcycle, hstage])
      | cons d rest =>
        refine Or.inr ⟨Record.ofWatermark cycle.watermark d.lower, Record.ofWatermark default d.lower, ?_, ?_⟩
        · simp only [Replay.request, hs, Cycle.request?, hcycle]
        · simp only [Replay.request, hs', Cycle.request?, hstage]
          rfl
    | _ =>
      rw [hcycle] at hstage
      exact Or.inl (by simp only [Replay.request, hs, hs', Cycle.request?, hcycle, hstage])
  | _ =>
    have hs' : r.veiled.stage = r.stage := by rw [Replay.veiled, hs]; rfl
    exact Or.inl (by rw [Replay.request, Replay.request, hs'])

/-- The surroundings answer without regard to what is hidden. -/
theorem answer?_veiled (c : Course) : s.answer? c.veiled = s.answer? c := by
  rcases request_veiled c.replay with hsame | ⟨record, record', hput, hput'⟩
  · have hrequest : c.veiled.replay.request = c.replay.request := hsame
    rw [answer?, answer?, hrequest]
    rfl
  · have hput' : c.veiled.replay.request = .put record' := hput'
    rw [answer?, answer?, hput, hput']
    rfl

theorem ask_veiled (c : Course) : c.veiled.ask.veiled = c.ask.veiled := by
  have hveiled := c.replay.veiled_veiled
  rcases request_veiled c.replay with hsame | ⟨record, record', hput, hput'⟩
  · have hrequest : c.veiled.replay.request = c.replay.request := hsame
    rw [Course.ask, Course.ask, hrequest]
    split <;> simp only [Course.veiled, hveiled]
  · have hput' : c.veiled.replay.request = .put record' := hput'
    rw [Course.ask, Course.ask, hput, hput']
    simp only [Course.veiled, hveiled]

/-- The replay waits for an answer as long as its loop goes on. -/
theorem isLooping_of_answer? {c : Course} {x : Instant × Bool × ReplayAnswer} (h : s.answer? c = some x) :
    c.replay.IsLooping := by
  cases hs : c.replay.stage with
  | flushing ending => simp [answer?, Replay.request, hs] at h
  | settling ending => simp [answer?, Replay.request, hs] at h
  | ended result => simp [answer?, Replay.request, hs] at h
  | _ => simp [Replay.IsLooping, hs]

/-- An answer is taken the same behind the veil. -/
theorem veiled_take {c : Course} (hr : c.replay.IsLooping) (now : Instant) (cancelled : Bool)
    (a : ReplayAnswer) : (c.veiled.take now cancelled a).veiled = (c.take now cancelled a).veiled := by
  have hask := ask_veiled c
  have hreplay : (c.replay.answer now cancelled a).1.veiled = (c.replay.veiled.answer now cancelled a).1.veiled :=
    congrArg Prod.fst (Replay.veil_answer now cancelled c.replay hr a)
  show (⟨(c.replay.veiled.answer now cancelled a).1.veiled, [], now, c.veiled.ask.veiled.pulls,
      c.veiled.ask.veiled.lists, c.veiled.ask.veiled.puts⟩ : Course) =
    ⟨(c.replay.answer now cancelled a).1.veiled, [], now, c.ask.veiled.pulls, c.ask.veiled.lists,
      c.ask.veiled.puts⟩
  rw [hask, hreplay]

/-- A course goes on the same behind the veil. -/
theorem veiled_serve (c : Course) : (s.serve c.veiled).veiled = (s.serve c).veiled := by
  rw [serve, serve, answer?_veiled]
  cases ha : s.answer? c with
  | none => simp only [Course.veiled, c.replay.veiled_veiled]
  | some x => exact veiled_take (s.isLooping_of_answer? ha) _ _ _

/-- What is seen of the next answer is not hidden. -/
theorem sight?_veiled (c : Course) : s.sight? c.veiled = s.sight? c := by
  rw [sight?, sight?, answer?_veiled]
  cases ha : s.answer? c with
  | none => rfl
  | some x => exact congrArg some (Replay.sight_veiled (s.isLooping_of_answer? ha) _ _ _)

/-! ### Handles move nothing -/

/-- The replay does not wait for the completions of its sends. -/
def Unwaiting (r : Replay) : Prop :=
  ∀ ending, r.stage ≠ .settling ending

/-- While the loop goes on, no answer makes it wait for completions. -/
theorem unwaiting_answer {r : Replay} (hr : r.IsLooping) (now : Instant) (cancelled : Bool)
    (a : ReplayAnswer) : Unwaiting (r.answer now cancelled a).1 := by
  have hmove := r.move_step (.answered now cancelled a)
  rw [Replay.step] at hmove
  intro ending hs
  generalize hx : r.answer now cancelled a = x at hmove hs
  cases hmove with
  | ignored _ _ =>
    have hs : r.stage = .settling ending := hs
    simp [Replay.IsLooping, hs] at hr
  | launched _ _ hl => simp [hl.stage] at hs
  | ended hst _ => simp [Replay.IsLooping, hst] at hr
  | _ => simp at hs

/-- Completions leave a replay that does not wait for them alike. -/
theorem alike_land {r : Replay} (hr : Unwaiting r) (acks : List (Nat × Outcome)) :
    (r.after (Course.landing acks)).Alike r ∧ Unwaiting (r.after (Course.landing acks)) := by
  induction acks generalizing r with
  | nil => exact ⟨rfl, hr⟩
  | cons ack acks ih =>
    have halike := Replay.alike_complete hr ack.1 ack.2
    have hunwaiting : Unwaiting (r.complete ack.1 ack.2) := by
      intro ending
      rw [Replay.stage_complete hr]
      exact hr ending
    obtain ⟨hrest, hrest'⟩ := ih hunwaiting
    exact ⟨hrest.trans halike, hrest'⟩

/-- Handles that resolve change only what is hidden. -/
theorem veiled_land {c : Course} (hc : Unwaiting c.replay) (acks : List (Nat × Outcome)) :
    (c.land acks).veiled = c.veiled := by
  have halike : (c.replay.after (Course.landing acks)).veiled = c.replay.veiled := (alike_land hc acks).1
  simp only [Course.veiled, Course.land, halike]

/-- A replay that does not wait for completions does not with the next answer. -/
theorem unwaiting_serve {c : Course} (hc : Unwaiting c.replay) : Unwaiting (s.serve c).replay := by
  rw [serve]
  cases ha : s.answer? c with
  | none => exact hc
  | some x => exact unwaiting_answer (s.isLooping_of_answer? ha) _ _ _

theorem unwaiting_course {r : Replay} (hr : Unwaiting r) (acks : Nat → List (Nat × Outcome)) (n : Nat) :
    Unwaiting (s.course r acks n).replay := by
  induction n with
  | zero => exact hr
  | succ n ih => exact s.unwaiting_serve (alike_land ih (acks n)).2

/-- The handles move nothing that is not hidden. -/
theorem veiled_course_eq {r : Replay} (hr : Unwaiting r) (acks acks' : Nat → List (Nat × Outcome)) (n : Nat) :
    (s.course r acks n).veiled = (s.course r acks' n).veiled := by
  induction n with
  | zero => rfl
  | succ n ih =>
    rw [course, course, ← veiled_serve, veiled_land (s.unwaiting_course hr acks n), ih,
      ← veiled_land (s.unwaiting_course hr acks' n) (acks' n), veiled_serve]

/-- Whatever the handles do, the courses are the same behind the veil when an answer is due. -/
theorem veiled_asking_eq {r : Replay} (hr : Unwaiting r) (acks acks' : Nat → List (Nat × Outcome)) (n : Nat) :
    (s.asking r acks n).veiled = (s.asking r acks' n).veiled := by
  rw [asking, asking, veiled_land (s.unwaiting_course hr acks n), veiled_land (s.unwaiting_course hr acks' n)]
  exact s.veiled_course_eq hr acks acks' n

theorem alike_asking {r : Replay} (hr : Unwaiting r) (acks acks' : Nat → List (Nat × Outcome)) (n : Nat) :
    (s.asking r acks n).replay.Alike (s.asking r acks' n).replay := by
  have h := congrArg Course.replay (s.veiled_asking_eq hr acks acks' n)
  exact h

theorem answer?_eq {r : Replay} (hr : Unwaiting r) (acks acks' : Nat → List (Nat × Outcome)) (n : Nat) :
    s.answer? (s.asking r acks n) = s.answer? (s.asking r acks' n) := by
  rw [← answer?_veiled, s.veiled_asking_eq hr acks acks' n, answer?_veiled]

theorem sight?_eq {r : Replay} (hr : Unwaiting r) (acks acks' : Nat → List (Nat × Outcome)) (n : Nat) :
    s.sight? (s.asking r acks n) = s.sight? (s.asking r acks' n) := by
  rw [← sight?_veiled, s.veiled_asking_eq hr acks acks' n, sight?_veiled]

end Surroundings

end Tidemark
