import Tidemark.Proofs.Objects.Keys
import Tidemark.Proofs.Source.LineEnds

/-!
# Objects as one file

A source of objects holds the object that it reads and the keys of those to come. What is left of it are the
readings of the one and then of the others, the events numbered through (`ObjectSource.results`). A pull takes
the first of these results and leaves the rest, over the borders of the objects (`pull_yields`). So the pulls
give the readings of all objects in the order of their keys (`feed_eq`).

The readings differ from those of one file only in the words of the faults, which name the object and count
its lines. The file is that of the contents, each with a line end (`held_joined`).
-/

namespace Tidemark.Objects

/-- Each object can be asked for, and is read to its end. -/
def Serves (fetch : String → Except Refusal ObjectBody) (content : String → ByteArray)
    (keys : List String) : Prop :=
  ∀ key ∈ keys, key ≠ "" ∧ fetch key = .ok { content := content key }

/-- The reports of an object name it, and its own count of lines. -/
def objectBlame (bucket key : String) : Blame where
  notUtf8 fault := (StoreFault.reading bucket key fault.message).toFault
  undecodable := ObjectSource.lineFault bucket key

/-- What an object gives by itself. -/
def objectReadings (bucket field : String) (content : String → ByteArray) (key : String) : List Reading :=
  readings (objectBlame bucket key) field 0 (physicalLines [] (content key).toList)

namespace ObjectSource

variable {fetch : String → Except Refusal ObjectBody} {content : String → ByteArray} {bucket : String}

/-- What is left of the object being read. -/
def leftOpen (bucket field : String) : Option OpenObject → List Reading
  | none => []
  | some o => readings (objectBlame bucket o.key) field o.lineNumber o.lines

/-- The results that are left. -/
def results (content : String → ByteArray) (s : ObjectSource) : List (Except Fault Event) :=
  numbered s.decoder
    (leftOpen s.bucket s.decoder.field s.current
      ++ s.keys.flatMap (objectReadings s.bucket s.decoder.field content))

/-- No object breaks off, neither the one that is read nor those to come. -/
structure Whole (fetch : String → Except Refusal ObjectBody) (content : String → ByteArray)
    (s : ObjectSource) : Prop where
  current : ∀ o, s.current = some o → o.breaks = false
  serves : Serves fetch content s.keys

/-- The answer is the first of the results, and the source is left with the others. -/
structure Yields (fetch : String → Except Refusal ObjectBody) (content : String → ByteArray)
    (results : List (Except Fault Event)) (answer : Except Fault (Option Event)) (s : ObjectSource) :
    Prop where
  answer_eq : answer = Feed.ofResults results 0
  results_eq : s.results content = results.tail
  whole : s.Whole fetch content

/-- An object that is read on either gives its first reading or comes to its end. -/
theorem readLines_cases (bucket : String) {o : OpenObject} (hbreaks : o.breaks = false) (d : Decoder)
    (count : Nat) (lines : List (List UInt8)) :
    (readings (objectBlame bucket o.key) d.field count lines = [] ∧
        readLines bucket o d count lines = .atEnd d) ∨
      ∃ r later, later.breaks = false ∧
        readings (objectBlame bucket o.key) d.field count lines =
          r :: leftOpen bucket d.field (some later) ∧
        readLines bucket o d count lines = .yielded (d.number r).1 later (d.number r).2 := by
  induction lines generalizing count with
  | nil => exact Or.inl ⟨rfl, by rw [readLines, hbreaks]; rfl⟩
  | cons line rest ih =>
    cases d.meets line with
    | notUtf8 fault hutf hof =>
      refine Or.inr ⟨.error _, { o with lines := rest, lineNumber := count }, hbreaks,
        readings_cons hof _ _, ?_⟩
      simp only [readLines, hutf]
      rfl
    | blank text hutf hdecode hof =>
      simp only [readLines, hutf, hdecode, readings_cons hof]
      exact ih (count + 1)
    | event text hutf time payload hdecode hof =>
      refine Or.inr ⟨.ok (time, payload), { o with lines := rest, lineNumber := count + 1 }, hbreaks,
        readings_cons hof _ _, ?_⟩
      simp only [readLines, hutf, hdecode]
      rfl
    | undecodable text hutf fault hdecode hof =>
      refine Or.inr ⟨.error _, { o with lines := rest, lineNumber := count + 1 }, hbreaks,
        readings_cons hof _ _, ?_⟩
      simp only [readLines, hutf, hdecode]
      rfl

/-- A reading of an object is the first of the results, and what is left of the object comes next. -/
theorem yields_of_reading {keys : List String} (hserves : Serves fetch content keys) (d : Decoder)
    (r : Reading) {o : OpenObject} (hbreaks : o.breaks = false) :
    Yields fetch content
      (numbered d
        (r :: leftOpen bucket d.field (some o) ++ keys.flatMap (objectReadings bucket d.field content)))
      ((d.number r).1.map some) { bucket, keys, current := some o, decoder := (d.number r).2 } where
  answer_eq := rfl
  results_eq := by
    simp only [results, Decoder.field_number, List.cons_append, numbered, List.tail_cons]
  whole :=
    { current := fun _ ho ↦ Option.some.inj ho ▸ hbreaks
      serves := hserves }

/-- The first of some objects is opened, read, and left with the others. -/
theorem openNext_yields {keys : List String} (hserves : Serves fetch content keys) (d : Decoder) :
    Yields fetch content (numbered d (keys.flatMap (objectReadings bucket d.field content)))
      (openNext bucket fetch d keys).1 (openNext bucket fetch d keys).2.2 := by
  induction keys with
  | nil => exact ⟨rfl, rfl, nofun, nofun⟩
  | cons key rest ih =>
    have hrest : Serves fetch content rest := fun k hk ↦ hserves k (List.mem_cons_of_mem _ hk)
    obtain ⟨hkey, hfetch⟩ := hserves key List.mem_cons_self
    have hopen : openObject fetch key = .ok (OpenObject.ofBody key { content := content key }) := by
      rw [openObject, if_neg (by simpa using hkey), hfetch]
    have hlines : (OpenObject.ofBody key { content := content key }).lines =
        physicalLines [] (content key).toList := rfl
    rw [openNext, hopen, List.flatMap_cons]
    simp only [hlines]
    rcases readLines_cases bucket (o := .ofBody key { content := content key }) rfl d 0
      (physicalLines [] (content key).toList) with ⟨hnone, hread⟩ | ⟨r, later, hbreaks, hsome, hread⟩
    · have hreadings : objectReadings bucket d.field content key = [] := hnone
      simp only [hread, hreadings, List.nil_append]
      exact ih hrest
    · have hreadings : objectReadings bucket d.field content key =
          r :: leftOpen bucket d.field (some later) := hsome
      simp only [hread, hreadings]
      exact yields_of_reading hrest d r hbreaks

theorem pull_yields {s : ObjectSource} (h : s.Whole fetch content) :
    Yields fetch content (s.results content) (s.pull fetch).1 (s.pull fetch).2.2 := by
  obtain ⟨bucket, keys, current, d⟩ := s
  cases current with
  | none => exact openNext_yields h.serves d
  | some o =>
    rw [pull, results]
    rcases readLines_cases bucket (h.current o rfl) d o.lineNumber o.lines with
      ⟨hnone, hread⟩ | ⟨r, later, hbreaks, hsome, hread⟩
    · simp only [hread, leftOpen, hnone, List.nil_append]
      exact openNext_yields h.serves d
    · simp only [hread, leftOpen, hsome]
      exact yields_of_reading h.serves d r hbreaks

/-- The answers to all pulls. -/
def feed (fetch : String → Except Refusal ObjectBody) : ObjectSource → Feed
  | s, 0 => (s.pull fetch).1
  | s, n + 1 => feed fetch (s.pull fetch).2.2 n

/-- A source whose objects are served answers its pulls with their results. -/
theorem feed_eq {s : ObjectSource} (h : s.Whole fetch content) :
    s.feed fetch = Feed.ofResults (s.results content) := by
  funext n
  induction n generalizing s with
  | zero => exact (pull_yields h).answer_eq
  | succ n ih =>
    rw [Feed.ofResults_succ, ← (pull_yields h).results_eq]
    exact ih (pull_yields h).whole

end ObjectSource

/-- What the objects give in the order of the keys, the events numbered through. -/
def objectResults (c : StoreConfig) (content : String → ByteArray) (keys : List String) :
    List (Except Fault Event) :=
  numbered { field := c.timestampField } (keys.flatMap (objectReadings c.bucket c.timestampField content))

variable {fetch : String → Except Refusal ObjectBody} {content : String → ByteArray} {keys : List String}

theorem feed_start (c : StoreConfig) (hserves : Serves fetch content keys) :
    (ObjectSource.start c keys).feed fetch = Feed.ofResults (objectResults c content keys) :=
  ObjectSource.feed_eq ⟨nofun, hserves⟩

/-- Apart from the words of the faults the objects give what their contents give as one file, each with a
line end after it. -/
theorem toOption_objectResults (c : StoreConfig) {texts : List ByteArray}
    (h : List.Forall₂ IsEnded (keys.map content) texts) :
    (objectResults c content keys).map Except.toOption =
      (LineSource.ofContent (joined texts) c.timestampField).results.map Except.toOption := by
  refine map_toOption_numbered ?_ _
  rw [List.map_flatMap, map_toOption_readings]
  simp only [objectReadings, map_toOption_readings]
  exact (held_joined h ▸ List.flatMap_map ..).symm

/-- A fault in an object is that of one of its lines. It names the object, and the number of an undecodable
line is its own among the counted lines of the object. -/
theorem fault_of_mem_objectReadings {bucket field key : String} {content : String → ByteArray} {fault : Fault}
    (h : .error fault ∈ objectReadings bucket field content key) :
    ∃ before line after, physicalLines [] (content key).toList = before ++ line :: after ∧
      ((∃ f, LineReading.of field line = .notUtf8 f ∧
          fault = (StoreFault.reading bucket key f.message).toFault) ∨
        ∃ f, LineReading.of field line = .undecodable f ∧
          fault = .source (.objectLine bucket key (counted field before + 1) f)) := by
  obtain ⟨before, line, after, hlines, hreport⟩ := exists_of_mem_readings h
  refine ⟨before, line, after, hlines, ?_⟩
  cases hof : LineReading.of field line with
  | notUtf8 f =>
    rw [hof] at hreport
    cases hreport
    exact Or.inl ⟨f, rfl, rfl⟩
  | blank => exact nomatch hof ▸ hreport
  | event time payload => exact nomatch hof ▸ hreport
  | undecodable f =>
    rw [hof, Nat.zero_add] at hreport
    cases hreport
    exact Or.inr ⟨f, rfl, rfl⟩

end Tidemark.Objects

namespace Tidemark.Rehearsal

open Objects

theorem pullObjects_eq (script : StoreScript) (s : ObjectSource) (i : Instruments) (n : Nat) :
    (pullObjects script s i n).1 = (List.range n).map (s.feed script.fetch) := by
  induction n generalizing s i with
  | zero => rfl
  | succ n ih =>
    rw [List.range_succ_eq_map, List.map_cons, List.map_map, pullObjects]
    exact congrArg (s.feed script.fetch 0 :: ·) (ih _ _)

/-- A store that serves its objects and lists them in few pages is read in the order of the keys. -/
theorem rehearseStore_results {c : StoreConfig} (hvalid : c.fault? = none) {script : StoreScript}
    {pages : List ObjectPage} (hlistings : script.listings = pages.map .ok) (hfew : pages.length ≤ manyPages)
    {objects : List Listed} (hpages : Lists pages objects) {content : String → ByteArray}
    (hserves : Serves script.fetch content (objects.filterMap Listed.key?)) (n : Nat) :
    (rehearseStore c script n).results =
      .ok ((List.range n).map
        (Feed.ofResults (objectResults c content (sortKeys (objects.filterMap Listed.key?))))) := by
  have hconfig : c.validate = .ok () := by rw [StoreConfig.validate, hvalid]
  have hserved : Serves script.fetch content (sortKeys (objects.filterMap Listed.key?)) :=
    fun key hkey ↦ hserves key ((sortKeys_perm _).mem_iff.1 hkey)
  rw [← feed_start c hserved, ← sortKeys_congr hpages.keys]
  simp only [rehearseStore, hconfig, hlistings, listKeys_eq none hpages.linked hfew]
  rw [pullObjects_eq]

/-- The source of the keys yields what a file of the contents does. -/
structure ReadsAsOneFile (c : StoreConfig) (fetch : String → Except Refusal ObjectBody)
    (content : String → ByteArray) (keys : List String) : Prop where
  /-- The pulls give the results of the objects in the order of the keys, and then nothing. -/
  feed : ∀ n, (ObjectSource.start c keys).feed fetch n = Feed.ofResults (objectResults c content keys) n
  /-- They give the same events as the pulls of the file, and faults where these do. -/
  file : ∀ texts, List.Forall₂ IsEnded (keys.map content) texts → ∀ n,
    ((ObjectSource.start c keys).feed fetch n).toOption =
      ((EventSource.lines (.ofContent (joined texts) c.timestampField)).feed n).toOption
  /-- The events are numbered over the borders of the objects. -/
  sequences : ((objectResults c content keys).filterMap Except.toOption).map Event.sequence =
    List.range ((objectResults c content keys).filterMap Except.toOption).length
  /-- A fault in an object names it, and counts its lines. -/
  faults : ∀ key ∈ keys, ∀ fault, .error fault ∈ objectReadings c.bucket c.timestampField content key →
    ∃ before line after, physicalLines [] (content key).toList = before ++ line :: after ∧
      ((∃ f, LineReading.of c.timestampField line = .notUtf8 f ∧
          fault = (StoreFault.reading c.bucket key f.message).toFault) ∨
        ∃ f, LineReading.of c.timestampField line = .undecodable f ∧
          fault = .source (.objectLine c.bucket key (counted c.timestampField before + 1) f))

/-- Two files of a folder, the later one first and the folder between them. -/
def someTrips : List Listed :=
  [⟨some "trips/b", some 10⟩, ⟨some "trips/", some 0⟩, ⟨some "trips/a", some 22⟩]

def tripPages : List ObjectPage :=
  [⟨someTrips.take 2, some "page-2"⟩, ⟨someTrips.drop 2, none⟩]

/-- The first file has a blank line, a line without a time and no line end. -/
def tripsOf (key : String) : ByteArray :=
  (if key = "trips/a" then "\x7b\"ts\": 1\x7d\n\n\x7b\"fare\": 3\x7d" else "\x7b\"ts\": 2\x7d\n").toUTF8

def fetchTrips (key : String) : Except Refusal ObjectBody :=
  .ok { content := tripsOf key }

def tripStore : StoreConfig :=
  { bucket := "taxi", keyStart := "trips/", timestampField := "ts" }

/-- The fault names the first object and its third line. -/
example : (objectResults tripStore tripsOf ["trips/a", "trips/b"]).map (fun r => match r with
      | .ok e => toString e.sequence
      | .error fault => fault.detail) =
    ["0", "s3://taxi/trips/a line 3: missing timestamp field ts", "1"] := by
  decide +kernel

end Tidemark.Rehearsal
