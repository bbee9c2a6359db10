import Tidemark.Time.Span

/-!
# Rehearsing with a clock of its own

A rehearsal runs without the time of the world. Its clock stands still while there is anything to do, and
then moves to the next moment at which somebody wants to wake:

```
lead waits ─> ready tasks run, first woken first ─> nothing ready ─> the clock moves ─> ...
     └── returns as soon as what it waits for holds, or at its limit
```

The lead is the one sequence of steps that is rehearsed. It is looked at before the clock moves and after
every burst of tasks; at a moment that wakes the lead and some tasks, the lead comes first. Tasks wake at
whole milliseconds, in the order of their times and of their going to sleep.
-/

namespace Tidemark.Rehearsal

/-- The clock, the tasks that are ready, the first woken first, and those that sleep, the next first. -/
structure Agenda (τ : Type) where
  now : Instant := Instant.start
  ready : List τ := []
  asleep : List (Instant × τ) := []

namespace Agenda

variable {τ : Type}

/-- When a sleep of a given length ends. -/
def wakeTime (a : Agenda τ) (d : Span) : Instant :=
  a.now.wake d

/-- Makes a task ready, after those that are. -/
def wake (a : Agenda τ) (t : τ) : Agenda τ :=
  { a with ready := a.ready ++ [t] }

/-- Puts a sleeper after all that wake no later. -/
def insertSleeper (due : Instant) (t : τ) : List (Instant × τ) → List (Instant × τ)
  | [] => [(due, t)]
  | (other, u) :: rest =>
    if due < other then (due, t) :: (other, u) :: rest
    else (other, u) :: insertSleeper due t rest

/-- Puts a task to sleep until a moment. -/
def sleepUntil (a : Agenda τ) (due : Instant) (t : τ) : Agenda τ :=
  { a with asleep := insertSleeper due t a.asleep }

/-- Takes the first task that is ready. -/
def pop? (a : Agenda τ) : Option (τ × Agenda τ) :=
  match a.ready with
  | [] => none
  | t :: rest => some (t, { a with ready := rest })

/-- The next moment at which a task wakes. -/
def nextWake? (a : Agenda τ) : Option Instant :=
  a.asleep.head?.map (·.1)

/-- Moves the clock, and wakes the tasks whose time has come. -/
def moveTo (a : Agenda τ) (now : Instant) : Agenda τ :=
  { now
    ready := a.ready ++ (a.asleep.takeWhile (·.1 ≤ now)).map (·.2)
    asleep := a.asleep.dropWhile (·.1 ≤ now) }

end Agenda

/-- A state, and the tasks that change it. -/
structure World (σ τ : Type) where
  state : σ
  agenda : Agenda τ := {}

namespace World

variable {σ τ : Type}

def now (w : World σ τ) : Instant :=
  w.agenda.now

/-- How many tasks run before the lead is looked at. -/
def burst : Nat := 61

/-- Runs tasks that are ready, up to a number of them. -/
def runReady (perform : τ → World σ τ → World σ τ) : Nat → World σ τ → World σ τ
  | 0, w => w
  | n + 1, w =>
    match w.agenda.pop? with
    | none => w
    | some (t, agenda) => runReady perform n (perform t { w with agenda })

/-- Lets tasks run and the clock move until a condition holds or the limit is reached; says whether the
condition holds then. -/
def waitRounds (perform : τ → World σ τ → World σ τ) (holds : World σ τ → Bool) (limit : Instant) :
    Nat → World σ τ → Bool × World σ τ
  | 0, w => (holds w, w)
  | n + 1, w =>
    let w := runReady perform burst w
    if holds w then (true, w)
    else if !w.agenda.ready.isEmpty then waitRounds perform holds limit n w
    else
      let next := match w.agenda.nextWake? with
        | some t => if t < limit then t else limit
        | none => limit
      let w := { w with agenda := w.agenda.moveTo next }
      if next < limit then waitRounds perform holds limit n w else (holds w, w)

/-- More rounds than any wait takes: the limit comes first. -/
def rounds : Nat := 10 ^ 15

/-- The lead waits for a condition, up to a limit. Nothing happens if the condition holds already. -/
def waitFor (perform : τ → World σ τ → World σ τ) (holds : World σ τ → Bool) (limit : Instant)
    (w : World σ τ) : Bool × World σ τ :=
  if holds w then (true, w) else waitRounds perform holds limit rounds w

/-- The lead waits for a moment. -/
def waitUntil (perform : τ → World σ τ → World σ τ) (due : Instant) (w : World σ τ) : World σ τ :=
  (w.waitFor perform (fun w => due ≤ w.now) due).2

/-- The lead sleeps. -/
def sleep (perform : τ → World σ τ → World σ τ) (d : Span) (w : World σ τ) : World σ τ :=
  w.waitUntil perform (w.agenda.wakeTime d)

/-- How long the lead waits for something before it gives up. -/
def patience : Span := Span.ofSeconds 100000000

/-- The moment at which the lead gives up. -/
def deadline (w : World σ τ) : Instant :=
  w.agenda.wakeTime patience

end World

end Tidemark.Rehearsal
