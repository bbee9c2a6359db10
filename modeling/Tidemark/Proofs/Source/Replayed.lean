import Tidemark.Proofs.Source.Yields

/-!
# What a file yields can be read again

The payloads of the events of a file, joined by line feeds, are a file that yields the same events
(`replays_unchanged`). It needs two things of a payload, which both follow from its being a line without the
white space around it:

```
it is a line of the joined file    no line feed in it, no return at its end, not empty    (isLine_payload)
it is read as the same event       trimming it again changes nothing                          (of_payload)
```

The events are numbered through in both files, so the numbers do not depend on the faults and the blank lines
that only the first one has (`numbered_events`).
-/

namespace Tidemark

/-! ### A payload as a line -/

namespace Text

/-- What has no white space at its ends is not changed by trimming. -/
theorem trim_eq_self {cs : List Char} (hfirst : ∀ c ∈ cs.head?, isBlank c = false)
    (hlast : ∀ c ∈ cs.getLast?, isBlank c = false) : trim cs = cs := by
  rw [trim, trimLeft_eq_self hfirst, trimLeft_eq_self (by rwa [List.head?_reverse]), List.reverse_reverse]

theorem trim_trim (cs : List Char) : trim (trim cs) = trim cs :=
  trim_eq_self (isTrimmed_trim cs).first (isTrimmed_trim cs).last

/-- The bytes of a trimmed text are among those of the text. -/
theorem IsTrimmed.mem_bytes {text core : String} (h : IsTrimmed text.toList core.toList) {b : UInt8}
    (hb : b ∈ bytes core) : b ∈ bytes text := by
  obtain ⟨front, back, htext, -, -⟩ := h.around
  rw [bytes_eq] at hb ⊢
  rw [htext, List.flatMap_append, List.flatMap_append]
  exact List.mem_append_left _ (List.mem_append_right _ hb)

/-- A trimmed text does not end in the byte of a carriage return. -/
theorem IsTrimmed.getLast?_bytes {text core : String} (h : IsTrimmed text.toList core.toList) :
    (bytes core).getLast? ≠ some 13 := by
  intro hlast
  obtain ⟨l, hl⟩ := List.getLast?_eq_some_iff.1 hlast
  obtain ⟨s, -, rfl⟩ := bytes_eq_append_return.1 hl
  exact absurd (h.last '\r' (by simp [String.toList_push])) (by decide)

/-- Only the empty text has no bytes. -/
theorem bytes_eq_nil_iff {t : String} : bytes t = [] ↔ t = "" := by
  rw [bytes_eq, ← String.toList_inj]
  cases t.toList with
  | nil => simp
  | cons c cs => simp [String.utf8EncodeChar_ne_nil]

end Text

namespace LineReading

variable {field : String} {line : List UInt8} {time : Timestamp} {payload : ByteArray}

/-- A line is an event if it is a text with a time in what is left of it without the white space around it,
and that is the payload. -/
theorem of_eq_event_iff :
    of field line = .event time payload ↔
      ∃ text core, Text.decodeUtf8 line = .ok text ∧ Text.trim text.toList = core.toList ∧ core ≠ "" ∧
        Decoder.timeOfLine field core = .ok time ∧ core.toUTF8 = payload := by
  have hcore {cs : List Char} (h : ¬ cs.isEmpty) : String.ofList cs ≠ "" := fun he ↦ by
    rw [← String.toList_inj, String.toList_ofList] at he
    exact h (List.isEmpty_iff.2 he)
  constructor
  · intro h
    rw [of] at h
    cases hutf : Text.decodeUtf8 line with
    | error fault =>
      rw [hutf] at h
      cases h
    | ok text =>
      rw [hutf] at h
      simp only [ofText, Decoder.decode] at h
      by_cases hblank : (Text.trim text.toList).isEmpty
      · rw [if_pos hblank] at h
        cases h
      · rw [if_neg hblank] at h
        refine ⟨text, String.ofList (Text.trim text.toList), rfl, (String.toList_ofList).symm, hcore hblank, ?_⟩
        cases htime : Decoder.timeOfLine field (String.ofList (Text.trim text.toList)) with
        | error fault =>
          rw [htime] at h
          cases h
        | ok t =>
          rw [htime] at h
          cases h
          exact ⟨rfl, rfl⟩
  · rintro ⟨text, core, hutf, htrim, hne, htime, rfl⟩
    have hblank : ¬ core.toList.isEmpty := fun he ↦ hne (String.toList_inj.1 (List.isEmpty_iff.1 he))
    rw [of, hutf]
    simp only [ofText, Decoder.decode, htrim, if_neg hblank, String.ofList_toList, htime]
    rfl

/-- The payload of a line is read as the same event. -/
theorem of_payload (h : of field line = .event time payload) :
    of field payload.toList = .event time payload := by
  obtain ⟨text, core, -, htrim, hne, htime, rfl⟩ := of_eq_event_iff.1 h
  refine of_eq_event_iff.2 ⟨core, core, ?_, ?_, hne, htime, rfl⟩
  · rw [LineSource.decodeUtf8_eq_ok_iff_bytes, Text.toList_eq]
    rfl
  · rw [← htrim, Text.trim_trim]

end LineReading

/-- Between line feeds the bytes are one line, with nothing of them belonging to its end. -/
structure IsLine (line : List UInt8) : Prop where
  ne_nil : line ≠ []
  feed : 10 ∉ line
  last : line.getLast? ≠ some 13

/-- The payload of a line is one. -/
theorem LineReading.isLine_payload {field : String} {line : List UInt8} {time : Timestamp} {payload : ByteArray}
    (h : of field line = .event time payload) (hfeed : 10 ∉ line) : IsLine payload.toList := by
  obtain ⟨text, core, hutf, htrim, hne, -, rfl⟩ := of_eq_event_iff.1 h
  have hcore : Text.IsTrimmed text.toList core.toList := htrim ▸ Text.isTrimmed_trim text.toList
  have hbytes : core.toUTF8.toList = Text.bytes core := Text.toList_eq _
  rw [hbytes]
  refine ⟨mt Text.bytes_eq_nil_iff.1 hne, fun hmem ↦ hfeed ?_, hcore.getLast?_bytes⟩
  rw [← LineSource.decodeUtf8_eq_ok_iff_bytes.1 hutf]
  exact hcore.mem_bytes hmem

/-! ### The lines of a joined file -/

/-- A line feed is in no line. -/
theorem IsLines.feed_not_mem {content : List UInt8} {lines : List (List UInt8)} (h : IsLines content lines) :
    ∀ line ∈ lines, 10 ∉ line := by
  induction h with
  | nil => exact fun line hline ↦ absurd hline List.not_mem_nil
  | last line _ hfeed => exact List.forall_mem_singleton.2 hfeed
  | feed line hfeed _ _ ih => exact List.forall_mem_cons.2 ⟨hfeed, ih⟩
  | returnFeed line hfeed _ ih => exact List.forall_mem_cons.2 ⟨hfeed, ih⟩

/-- Texts with a line feed between each two of them. -/
def joinedByFeeds : List ByteArray → ByteArray
  | [] => .empty
  | [text] => text
  | text :: rest => text.push 10 ++ joinedByFeeds rest

/-- Lines that are joined by line feeds are the lines of what they are joined to. -/
theorem isLines_joinedByFeeds {texts : List ByteArray} (h : ∀ text ∈ texts, IsLine text.toList) :
    IsLines (joinedByFeeds texts).toList (texts.map ByteArray.toList) := by
  induction texts with
  | nil =>
    rw [joinedByFeeds, Text.toList_eq]
    exact .nil
  | cons text rest ih =>
    obtain ⟨htext, hrest⟩ := List.forall_mem_cons.1 h
    cases rest with
    | nil => exact .last _ htext.ne_nil htext.feed
    | cons next rest =>
      have hsplit : (joinedByFeeds (text :: next :: rest)).toList =
          text.toList ++ 10 :: (joinedByFeeds (next :: rest)).toList := by
        rw [joinedByFeeds, Text.toList_eq, Text.toList_eq, Text.toList_eq, ByteArray.data_append,
          ByteArray.data_push, Array.toList_append, Array.toList_push, List.append_assoc,
          List.singleton_append]
        exact List.cons_ne_nil next rest
      rw [hsplit]
      exact .feed _ htext.feed htext.last (ih hrest)

/-! ### The events of a joined file -/

/-- Numbering passes over the faults. -/
theorem numbered_events (d : Decoder) (rs : List Reading) :
    numbered d ((rs.filterMap Except.toOption).map .ok) = ((numbered d rs).filterMap Except.toOption).map .ok := by
  induction rs generalizing d with
  | nil => rfl
  | cons r rest ih =>
    rcases r with fault | ⟨time, payload⟩
    · exact ih d
    · exact congrArg (_ :: ·) (ih { d with nextSequence := d.nextSequence + 1 })

/-- Numbering leaves the payloads as they are. -/
theorem map_payload_numbered (d : Decoder) (rs : List Reading) :
    ((numbered d rs).filterMap Except.toOption).map Event.payload =
      (rs.filterMap Except.toOption).map Prod.snd := by
  induction rs generalizing d with
  | nil => rfl
  | cons r rest ih =>
    rcases r with fault | ⟨time, payload⟩
    · exact ih d
    · exact congrArg (payload :: ·) (ih { d with nextSequence := d.nextSequence + 1 })

section Readings

variable {blame : Blame} {field : String}

/-- An event among the readings is that of a line. -/
theorem exists_of_mem_events {count : Nat} {lines : List (List UInt8)} {e : Timestamp × ByteArray}
    (h : e ∈ (readings blame field count lines).filterMap Except.toOption) :
    ∃ line ∈ lines, LineReading.of field line = .event e.1 e.2 := by
  obtain ⟨r, hr, he⟩ := List.mem_filterMap.1 h
  obtain ⟨before, line, after, rfl, hreport⟩ := exists_of_mem_readings hr
  refine ⟨line, by simp, ?_⟩
  cases hof : LineReading.of field line <;> rw [hof] at hreport <;> cases hreport <;> cases he
  rfl

/-- Lines that are all events are read as these. -/
theorem readings_of_events {events : List (Timestamp × ByteArray)}
    (h : ∀ e ∈ events, LineReading.of field e.2.toList = .event e.1 e.2) (count : Nat) :
    readings blame field count (events.map fun e ↦ e.2.toList) = events.map .ok := by
  induction events generalizing count with
  | nil => rfl
  | cons e rest ih =>
    obtain ⟨he, hrest⟩ := List.forall_mem_cons.1 h
    rw [List.map_cons, readings_cons he, ih hrest]
    rfl

end Readings

namespace LineSource

/-- The results that are left are the answer to the next pull and what is left after it. -/
theorem results_eq (s : LineSource) :
    s.results = match s.pull.1 with
      | .error fault => .error fault :: s.pull.2.results
      | .ok none => []
      | .ok (some event) => .ok event :: s.pull.2.results := by
  obtain ⟨hfirst, hrest⟩ := s.pull_eq
  rw [hfirst, hrest]
  rcases s.results with _ | ⟨_ | _, _⟩ <;> rfl

/-- A file is pulled in one way only. -/
theorem pulls_iff {s : LineSource} {results : List (Except Fault Event)} :
    Pulls s results ↔ results = s.results := by
  constructor
  · intro h
    induction h with
    | done hpull => rw [results_eq, hpull]
    | fault hpull _ ih => rw [results_eq, hpull, ih]
    | event hpull _ ih => rw [results_eq, hpull, ih]
  · rintro rfl
    exact pulls_results s

/-- A file that is pulled on past its faults comes to an end, and in one way only. The payloads of the events
that it has yielded by then, with line feeds between them, are a file that yields exactly these events, and
no fault. -/
theorem replays_unchanged (content : ByteArray) (field : String) :
    ∃ results, (∀ others, Pulls (ofContent content field) others ↔ others = results) ∧
      ∀ again, Pulls (ofContent (joinedByFeeds ((events results).map Event.payload)) field) again ↔
        again = (events results).map .ok := by
  refine ⟨(ofContent content field).results, fun _ ↦ pulls_iff, fun again ↦ ?_⟩
  rw [pulls_iff]
  -- what the lines of the file hold, without numbers
  let rs := readings blame field 0 (physicalLines [] content.toList)
  let held := rs.filterMap Except.toOption
  have hlines : IsLines content.toList (physicalLines [] content.toList) := isLines_iff.2 rfl
  have hline : ∀ e ∈ held, ∃ line, 10 ∉ line ∧ LineReading.of field line = .event e.1 e.2 := by
    intro e he
    obtain ⟨line, hmem, hof⟩ := exists_of_mem_events he
    exact ⟨line, hlines.feed_not_mem line hmem, hof⟩
  have hpayloads : (events (ofContent content field).results).map Event.payload = held.map Prod.snd :=
    map_payload_numbered { field } rs
  have hjoined : physicalLines [] (joinedByFeeds (held.map Prod.snd)).toList =
      held.map fun e ↦ e.2.toList := by
    have hall : ∀ text ∈ held.map Prod.snd, IsLine text.toList := by
      intro text htext
      obtain ⟨e, he, rfl⟩ := List.mem_map.1 htext
      obtain ⟨line, hfeed, hof⟩ := hline e he
      exact LineReading.isLine_payload hof hfeed
    rw [← isLines_iff.1 (isLines_joinedByFeeds hall), List.map_map]
    rfl
  have hread : readings blame field 0 (held.map fun e ↦ e.2.toList) = held.map .ok := by
    refine readings_of_events (fun e he ↦ ?_) 0
    obtain ⟨line, -, hof⟩ := hline e he
    exact LineReading.of_payload hof
  have hagain : (ofContent (joinedByFeeds (held.map Prod.snd)) field).results = numbered { field } (held.map .ok) := by
    rw [← hread, ← hjoined]
    rfl
  rw [hpayloads, hagain, numbered_events]
  rfl

end LineSource

end Tidemark
