import Tidemark.Proofs.Replay.Played

/-!
# What lines give

A line is read without regard to the others (`LineReading.of`). The others count in two places: the fault of
an undecodable line bears the number of the line, and an event the number of events before it. So what some
lines give is told in two steps.

```
lines  --readings-->  faults, and events without numbers  --numbered-->  faults and events
```

A file yields these one after the other and then nothing (`LineSource.pull_eq`, `feed_lines`).
-/

namespace Tidemark

/-! ### One line -/

/-- What a line gives by itself. -/
inductive LineReading where
  | notUtf8 (fault : Text.Utf8Fault)
  | blank
  | event (time : Timestamp) (payload : ByteArray)
  | undecodable (fault : LineFault)

/-- A fault, or an event without its number. -/
abbrev Reading := Except Fault (Timestamp × ByteArray)

/-- How the faults of lines are reported. -/
structure Blame where
  notUtf8 : Text.Utf8Fault → Fault
  /-- The report bears the number of the line. -/
  undecodable : Nat → LineFault → Fault

namespace LineReading

/-- Reads a line that is UTF-8. -/
def ofText (field text : String) : LineReading :=
  match (({ field } : Decoder).decode text).1 with
  | .error fault => .undecodable fault
  | .ok none => .blank
  | .ok (some e) => .event e.timestamp e.payload

def of (field : String) (line : List UInt8) : LineReading :=
  match Text.decodeUtf8 line with
  | .error fault => .notUtf8 fault
  | .ok text => ofText field text

/-- A line that is not UTF-8 is not counted. -/
def isCounted : LineReading → Bool
  | notUtf8 _ => false
  | _ => true

/-- What the line is reported as after so many counted lines. -/
def report? (blame : Blame) (count : Nat) : LineReading → Option Reading
  | notUtf8 fault => some (.error (blame.notUtf8 fault))
  | blank => none
  | event time payload => some (.ok (time, payload))
  | undecodable fault => some (.error (blame.undecodable (count + 1) fault))

end LineReading

namespace Decoder

/-- Gives an event its number. -/
def number (d : Decoder) : Reading → Except Fault Event × Decoder
  | .error fault => (.error fault, d)
  | .ok (time, payload) =>
    (.ok (Event.ofPayload time payload d.nextSequence), { d with nextSequence := d.nextSequence + 1 })

@[simp] theorem field_number (d : Decoder) (r : Reading) : (d.number r).2.field = d.field := by
  rcases r with _ | ⟨_, _⟩ <;> rfl

/-- All decoders read a line alike. Only the number of the event is the decoder's own. -/
theorem decode_eq (d : Decoder) (text : String) :
    d.decode text =
      match LineReading.ofText d.field text with
      | .undecodable fault => (.error fault, d)
      | .event time payload =>
        (.ok (some (Event.ofPayload time payload d.nextSequence)),
          { d with nextSequence := d.nextSequence + 1 })
      | _ => (.ok none, d) := by
  unfold LineReading.ofText decode
  dsimp only
  by_cases hblank : (Text.trim text.toList).isEmpty
  · simp only [hblank, if_true]
  · simp only [hblank, Bool.false_eq_true, if_false]
    cases timeOfLine d.field (String.ofList (Text.trim text.toList)) <;> rfl

/-- What a decoder makes of a line, and the reading of the line. -/
inductive Meets (d : Decoder) (line : List UInt8) : Prop
  | notUtf8 (fault : Text.Utf8Fault) (hutf : Text.decodeUtf8 line = .error fault)
      (hof : LineReading.of d.field line = .notUtf8 fault)
  | blank (text : String) (hutf : Text.decodeUtf8 line = .ok text) (hdecode : d.decode text = (.ok none, d))
      (hof : LineReading.of d.field line = .blank)
  | event (text : String) (hutf : Text.decodeUtf8 line = .ok text) (time : Timestamp) (payload : ByteArray)
      (hdecode : d.decode text = (.ok (some (Event.ofPayload time payload d.nextSequence)),
        { d with nextSequence := d.nextSequence + 1 }))
      (hof : LineReading.of d.field line = .event time payload)
  | undecodable (text : String) (hutf : Text.decodeUtf8 line = .ok text) (fault : LineFault)
      (hdecode : d.decode text = (.error fault, d)) (hof : LineReading.of d.field line = .undecodable fault)

/-- What a decoder makes of a line is the reading of the line, with the number of the decoder. -/
theorem meets (d : Decoder) (line : List UInt8) : d.Meets line := by
  cases hutf : Text.decodeUtf8 line with
  | error fault => exact .notUtf8 fault hutf (by rw [LineReading.of, hutf])
  | ok text =>
    have hof : LineReading.of d.field line = .ofText d.field text := by rw [LineReading.of, hutf]
    have hdecode := d.decode_eq text
    rw [← hof] at hdecode
    cases hreading : LineReading.of d.field line with
    | notUtf8 fault =>
      rw [hreading, LineReading.ofText] at hof
      split at hof <;> exact LineReading.noConfusion hof
    | blank => exact .blank text hutf (by rw [hdecode, hreading]) hreading
    | event time payload => exact .event text hutf time payload (by rw [hdecode, hreading]) hreading
    | undecodable fault => exact .undecodable text hutf fault (by rw [hdecode, hreading]) hreading

end Decoder

/-! ### Some lines -/

/-- How many of the lines are counted. -/
def counted (field : String) (lines : List (List UInt8)) : Nat :=
  lines.countP fun line => (LineReading.of field line).isCounted

/-- What the lines give after so many counted ones. -/
def readings (blame : Blame) (field : String) (count : Nat) : List (List UInt8) → List Reading
  | [] => []
  | line :: rest =>
    ((LineReading.of field line).report? blame count).toList
      ++ readings blame field (count + counted field [line]) rest

/-- Gives all events their numbers. -/
def numbered (d : Decoder) : List Reading → List (Except Fault Event)
  | [] => []
  | r :: rest => (d.number r).1 :: numbered (d.number r).2 rest

section Readings

variable {blame : Blame} {field : String}

theorem counted_cons (line : List UInt8) (rest : List (List UInt8)) :
    counted field (line :: rest) = counted field [line] + counted field rest := by
  rw [← List.singleton_append, counted, List.countP_append, ← counted, ← counted]

/-- What the first line gives is put before what the others give. -/
theorem readings_cons {line : List UInt8} {reading : LineReading} (h : LineReading.of field line = reading)
    (count : Nat) (rest : List (List UInt8)) :
    readings blame field count (line :: rest) =
      (reading.report? blame count).toList
        ++ readings blame field (count + if reading.isCounted then 1 else 0) rest := by
  rw [readings, counted, List.countP_singleton, h]

/-- Each reading is the report of one line, made after the lines before it. -/
theorem exists_of_mem_readings {count : Nat} {lines : List (List UInt8)} {r : Reading}
    (h : r ∈ readings blame field count lines) :
    ∃ before line after, lines = before ++ line :: after ∧
      (LineReading.of field line).report? blame (count + counted field before) = some r := by
  induction lines generalizing count with
  | nil => exact absurd h List.not_mem_nil
  | cons line rest ih =>
    rcases List.mem_append.1 h with hline | hrest
    · exact ⟨[], line, rest, rfl, Option.mem_toList.1 hline⟩
    · obtain ⟨before, later, after, rfl, hreport⟩ := ih hrest
      refine ⟨line :: before, later, after, rfl, ?_⟩
      rw [counted_cons, ← Nat.add_assoc]
      exact hreport

/-- The events of a source are numbered through. -/
theorem sequences_numbered (d : Decoder) (rs : List Reading) :
    ((numbered d rs).filterMap Except.toOption).map Event.sequence =
      List.range' d.nextSequence ((numbered d rs).filterMap Except.toOption).length := by
  induction rs generalizing d with
  | nil => rfl
  | cons r rest ih =>
    rw [numbered]
    rcases r with fault | ⟨time, payload⟩
    · exact ih d
    · exact congrArg (d.nextSequence :: ·) (ih { d with nextSequence := d.nextSequence + 1 })

end Readings

/-! ### Yielding results one by one -/

/-- The answers of a source that yields some results and then nothing. -/
def Feed.ofResults (results : List (Except Fault Event)) : Feed := fun n =>
  match results[n]? with
  | some r => r.map some
  | none => .ok none

/-- The answers after the first one are those of the results after the first. -/
theorem Feed.ofResults_succ (results : List (Except Fault Event)) (n : Nat) :
    ofResults results (n + 1) = ofResults results.tail n := by
  cases results <;> rfl

namespace LineSource

/-- The reports of a file name only the line. -/
def blame : Blame where
  notUtf8 fault := .source (.notUtf8 fault)
  undecodable number fault := .source (.line number fault)

/-- The results that are left. -/
def results (s : LineSource) : List (Except Fault Event) :=
  numbered s.decoder (readings blame s.decoder.field s.lineNumber s.lines)

/-- A pull gives the first of the results that are left, and leaves the others. -/
theorem pullFrom_eq (d : Decoder) (count : Nat) (lines : List (List UInt8)) :
    (pullFrom d count lines).1 = Feed.ofResults (results ⟨lines, d, count⟩) 0 ∧
      (pullFrom d count lines).2.results = (results ⟨lines, d, count⟩).tail := by
  induction lines generalizing count with
  | nil => exact ⟨rfl, rfl⟩
  | cons line rest ih =>
    unfold results
    cases d.meets line with
    | notUtf8 fault hutf hof =>
      simp only [pullFrom, hutf, readings_cons hof]
      exact ⟨rfl, rfl⟩
    | blank text hutf hdecode hof =>
      simp only [pullFrom, hutf, hdecode, readings_cons hof]
      exact ih (count + 1)
    | event text hutf time payload hdecode hof =>
      simp only [pullFrom, hutf, hdecode, readings_cons hof]
      exact ⟨rfl, rfl⟩
    | undecodable text hutf fault hdecode hof =>
      simp only [pullFrom, hutf, hdecode, readings_cons hof]
      exact ⟨rfl, rfl⟩

theorem pull_eq (s : LineSource) :
    s.pull.1 = Feed.ofResults s.results 0 ∧ s.pull.2.results = s.results.tail :=
  pullFrom_eq s.decoder s.lineNumber s.lines

end LineSource

/-- A file answers its pulls with its results. -/
theorem feed_lines (s : LineSource) :
    (Rehearsal.EventSource.lines s).feed = Feed.ofResults s.results := by
  funext n
  induction n generalizing s with
  | zero => exact s.pull_eq.1
  | succ n ih =>
    rw [Feed.ofResults_succ, ← s.pull_eq.2]
    exact ih s.pull.2

end Tidemark
