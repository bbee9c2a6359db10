import Tidemark.Rehearsal.Dispatching
import Tidemark.Replay
import Tidemark.Source.Lines
import Tidemark.Source.Listed

/-!
# Rehearsals of a replay

A whole replay against a stage: what it asks for is answered by a source and by the stage, while
acknowledgements arrive, cues change the stream and the replay is perhaps cancelled. A pull and a sleep end
early when that happens; calls of the destination do not.
-/

namespace Tidemark.Rehearsal

/-- What a scripted source yields next, after a delay. -/
structure ScriptedPull where
  delay : Option Nat := none
  answer : Except Fault (Option Event)

/-- Where events come from. -/
inductive EventSource where
  | listed (events : List Event)
  | lines (source : LineSource)
  | scripted (pulls : List ScriptedPull)

namespace EventSource

/-- The delay before the next pull is answered, the answer, and what is left. -/
def pull : EventSource → Option Nat × Except Fault (Option Event) × EventSource
  | listed [] => (none, .ok none, listed [])
  | listed (event :: rest) => (none, .ok (some event), listed rest)
  | lines source =>
    let (answer, source) := source.pull
    (none, answer, lines source)
  | scripted [] => (none, .ok none, scripted [])
  | scripted (first :: rest) => (first.delay, first.answer, scripted rest)

/-- What so many pulls answer; delays do not matter. -/
def pulls (s : EventSource) : Nat → List (Except Fault (Option Event))
  | 0 => []
  | n + 1 =>
    let (_, answer, s) := s.pull
    answer :: s.pulls n

end EventSource

/-- A replay on its stage. -/
structure Replaying where
  stage : Stage
  source : EventSource
  replay : Replay

namespace Replaying

/-- Takes notice of one ending. The completions of a replay are never aborted. -/
def absorbOne (r : Replay) : Ending → Replay
  | .completed id outcome => (r.step (.completed id outcome)).1
  | .aborted _ => r

/-- Takes notice of everything that ended on the stage. -/
def absorb (r : Replaying) (stage : Stage) : Replaying :=
  let (endings, stage) := stage.takeEndings
  { r with stage, replay := endings.foldl absorbOne r.replay }

/-- Answers the request of the replay, and dispatches the event that it sends. -/
def answer (r : Replaying) (a : ReplayAnswer) : Replaying :=
  let (replay, sent) := r.replay.step (.answered r.stage.now r.stage.state.cancelled a)
  let stage := match sent with
    | some send => r.stage.dispatch (Record.ofEvent send.event)
    | none => r.stage
  { r with replay, stage }

/-- Waits until a moment or until the replay is cancelled, at most until the limit. -/
def waitOpen (s : Stage) (due limit : Instant) : Bool × Stage :=
  World.waitFor Stage.perform (fun w => due ≤ w.now || w.state.cancelled)
    (if due < limit then due else limit) s

/-- Answers the request of the replay after such a wait, unless the limit was hit first. -/
def answerAfter (r : Replaying) (due limit : Instant) (a : ReplayAnswer) : Bool × Replaying :=
  match waitOpen r.stage due limit with
  | (true, stage) => (true, (r.absorb stage).answer a)
  | (false, stage) => (false, r.absorb stage)

/-- Pulls from the source, unless the replay is cancelled. -/
def pull (r : Replaying) (limit : Instant) : Bool × Replaying :=
  if r.stage.state.cancelled then (true, r.answer (.pulled (.ok none)))
  else
    let (delay, answer, source) := r.source.pull
    let r := { r with source }
    match delay with
    | none => (true, r.answer (.pulled answer))
    | some ms => r.answerAfter (r.stage.agenda.wakeTime (Span.ofMillis ms)) limit (.pulled answer)

/-- Answers the request of the replay with what a call gave, unless the limit was hit first or the call crashed. -/
def called {α : Type} (r : Replaying) (wrap : α → ReplayAnswer) :
    Option α × Stage → Bool × Replaying
  | (some a, stage) => (true, (r.absorb stage).answer (wrap a))
  | (none, stage) => (false, r.absorb stage)

/-- Serves the request of the replay; says whether it goes on. It does not at its end, nor when the limit
was hit first or a call crashed. -/
def serve (r : Replaying) (limit : Instant) : Bool × Replaying :=
  match r.replay.request with
  | .nothing => (false, r)
  | .pull => r.pull limit
  | .sleep d => r.answerAfter (r.stage.agenda.wakeTime d) limit .slept
  | .list token => r.called .listed (r.stage.list token limit)
  | .put record => r.called .wrote (r.stage.put record limit)
  | .flush => r.called .flushed (r.stage.flush limit)
  | .settle =>
    let (settled, stage) := r.stage.settle limit
    (settled, r.absorb stage)

/-- Serves requests until there is none or the limit is hit, within so many requests. -/
def play (limit : Instant) : Nat → Replaying → Replaying
  | 0, r => r
  | n + 1, r =>
    match r.serve limit with
    | (false, r) => r
    | (true, r) => play limit n r

/-- More requests than a replay makes before its limit. -/
def manyRequests : Nat := 10 ^ 15

/-- Plays the replay to its end; one that does not end is left where it was. -/
def run (r : Replaying) : Replaying :=
  play r.stage.deadline manyRequests r

/-- How the replay ended; none if it did not. -/
def result? (r : Replaying) : Option (Except Fault Summary) :=
  match r.replay.stage with
  | .ended result => some result
  | _ => none

end Replaying

end Tidemark.Rehearsal
