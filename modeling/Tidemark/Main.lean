import Tidemark.CommandLine.Usage
import Tidemark.Rehearsal.Replaying

/-!
# The program

Reads the command line and rehearses the replay of a local file: its events go to a stream in memory, at
the times at which they would be sent. The journal goes to the standard error output, the metrics at the end
to the standard output. The services themselves are out of reach from here.
-/

namespace Tidemark

/-- Rehearses the replay of the content of a file. -/
def rehearseFile (a : CommandLine.Arguments) (content : ByteArray) : Rehearsal.Replaying :=
  Rehearsal.Replaying.run
    { stage := Rehearsal.Stage.ofStream (InMemory.create 1) {}
      source := .lines (LineSource.ofContent content a.timestampField)
      replay := Replay.start a.replayConfig {} {} }

/-- An entry of the journal as a line. -/
def journalLine (n : Notice) : String :=
  n.level.name ++ " " ++ n.message

/-- Plays a local file and prints what happened. -/
def playFile (a : CommandLine.Arguments) (path : String) : IO UInt32 := do
  let content ← IO.FS.readBinFile path
  let played := rehearseFile a content
  for n in played.replay.instruments.entries .info do
    IO.eprintln (journalLine n)
  match played.result? with
  | some (.ok _) =>
    IO.print played.replay.instruments.metrics.exposition
    return 0
  | some (.error fault) =>
    IO.eprintln fault.message
    return 1
  | none => return 1

end Tidemark

/-- Runs the program. -/
def main (words : List String) : IO UInt32 := do
  match Tidemark.CommandLine.read words with
  | .error fault =>
    if fault.exitCode = 0 then IO.print fault.text else IO.eprint fault.text
    return fault.exitCode.toUInt32
  | .ok a =>
    match a.inputFile with
    | some path => Tidemark.playFile a path
    | none =>
      IO.eprintln "only a local file can be replayed from here, see --input-file"
      return 1
