import Mathlib.Data.List.TakeWhile
import Tidemark.Proofs.Source.LineEnds
import Tidemark.Proofs.Text.Decoding

/-!
# What a file yields

A file is pulled past its faults until it has nothing left (`Pulls`). What it gives on the way is told without
the functions that compute it: what the lines of a content are (`IsLines`), what a single line gives
(`Gives`), and how the events are numbered through (`Yields`).

```
content  --IsLines-->  lines  --Yields-->  faults and events
```

A line that gives a fault or nothing takes no number, so the events have the numbers from zero on, and no two
of them have the same key (`Yields.keys_nodup`).
-/

namespace Tidemark

/-! ### The lines of a content -/

/-- The lines of a content: a line feed ends a line, with a carriage return before it or without, and what
follows the last line feed is a line unless it is empty. -/
inductive IsLines : List UInt8 → List (List UInt8) → Prop
  | nil : IsLines [] []
  | last (line : List UInt8) (hne : line ≠ []) (hfeed : 10 ∉ line) : IsLines line [line]
  | feed (line : List UInt8) (hfeed : 10 ∉ line) (hreturn : line.getLast? ≠ some 13) {rest : List UInt8}
      {lines : List (List UInt8)} (hrest : IsLines rest lines) : IsLines (line ++ 10 :: rest) (line :: lines)
  | returnFeed (line : List UInt8) (hfeed : 10 ∉ line) {rest : List UInt8} {lines : List (List UInt8)}
      (hrest : IsLines rest lines) : IsLines (line ++ 13 :: 10 :: rest) (line :: lines)

theorem dropReturn_append_return (line : List UInt8) : dropReturn (line ++ [13]) = line := by
  rw [dropReturn, if_pos List.getLast?_concat, List.dropLast_concat]

/-- A piece without a line feed is read as a whole. -/
theorem physicalLines_piece {piece : List UInt8} (hfeed : 10 ∉ piece) (current rest : List UInt8) :
    physicalLines current (piece ++ rest) = physicalLines (piece.reverse ++ current) rest := by
  induction piece generalizing current with
  | nil => rfl
  | cons b piece ih =>
    have hb : b ≠ 10 := fun h ↦ hfeed (h ▸ List.mem_cons_self)
    rw [List.cons_append, physicalLines, if_neg hb, ih fun h ↦ hfeed (List.mem_cons_of_mem _ h),
      List.reverse_cons, List.append_assoc, List.singleton_append]

theorem physicalLines_feed {piece : List UInt8} (hfeed : 10 ∉ piece) (rest : List UInt8) :
    physicalLines [] (piece ++ 10 :: rest) = dropReturn piece :: physicalLines [] rest := by
  rw [physicalLines_piece hfeed, List.append_nil, physicalLines, if_pos rfl, List.reverse_reverse]

/-- The physical lines of a content are its lines. -/
theorem isLines_physicalLines {current : List UInt8} (hfeed : 10 ∉ current) (content : List UInt8) :
    IsLines (current.reverse ++ content) (physicalLines current content) := by
  induction content generalizing current with
  | nil =>
    rw [List.append_nil, physicalLines]
    split
    · rename_i hempty
      rw [List.isEmpty_iff.1 hempty]
      exact .nil
    · rename_i hne
      refine .last _ (fun h ↦ hne ?_) (mt List.mem_reverse.1 hfeed)
      rw [List.reverse_eq_nil_iff.1 h]
      rfl
  | cons b rest ih =>
    rw [physicalLines]
    split
    · rename_i hb
      subst hb
      have hrest : IsLines rest (physicalLines [] rest) := ih List.not_mem_nil
      by_cases hreturn : current.reverse.getLast? = some 13
      · obtain ⟨line, hline⟩ := List.getLast?_eq_some_iff.1 hreturn
        have hpiece : 10 ∉ line := fun h ↦
          hfeed (List.mem_reverse.1 (hline ▸ List.mem_append_left [13] h))
        rw [hline, dropReturn_append_return, List.append_assoc]
        exact .returnFeed line hpiece hrest
      · rw [dropReturn, if_neg hreturn]
        exact .feed _ (mt List.mem_reverse.1 hfeed) hreturn hrest
    · rename_i hb
      have hcurrent : 10 ∉ b :: current := fun h ↦ (List.mem_cons.1 h).elim (fun h ↦ hb h.symm) hfeed
      have hlines := ih hcurrent
      rw [List.reverse_cons, List.append_assoc] at hlines
      exact hlines

/-- A content has its physical lines and no others. -/
theorem isLines_iff {content : List UInt8} {lines : List (List UInt8)} :
    IsLines content lines ↔ lines = physicalLines [] content := by
  constructor
  · intro h
    induction h with
    | nil => rfl
    | last line hne hfeed =>
      have hpiece := physicalLines_piece hfeed [] []
      rw [List.append_nil, List.append_nil, physicalLines, List.isEmpty_reverse, List.reverse_reverse] at hpiece
      rw [hpiece, if_neg (mt List.isEmpty_iff.1 hne)]
    | feed line hfeed hreturn _ ih => rw [physicalLines_feed hfeed, dropReturn, if_neg hreturn, ← ih]
    | returnFeed line hfeed _ ih =>
      have hpiece : 10 ∉ line ++ [13] := fun h ↦
        (List.mem_append.1 h).elim hfeed fun h ↦ absurd (List.mem_singleton.1 h) (by decide)
      have hsplit := physicalLines_feed hpiece
      rw [dropReturn_append_return] at hsplit
      rw [List.append_cons, hsplit, ← ih]
  · rintro rfl
    exact isLines_physicalLines List.not_mem_nil content

example : IsLines [97, 13, 10, 10, 98] [[97], [], [98]] :=
  isLines_iff.2 rfl

/-! ### White space at the ends of a line -/

namespace Text

/-- The characters without the white space at both ends. -/
structure IsTrimmed (cs core : List Char) : Prop where
  around : ∃ front back, cs = front ++ core ++ back ∧ (∀ c ∈ front, isBlank c = true) ∧
    ∀ c ∈ back, isBlank c = true
  first : ∀ c ∈ core.head?, isBlank c = false
  last : ∀ c ∈ core.getLast?, isBlank c = false

theorem isBlank_head?_trimLeft (cs : List Char) : ∀ c ∈ (trimLeft cs).head?, isBlank c = false := by
  intro c hc
  have hnot := List.head?_dropWhile_not isBlank cs
  rw [trimLeft] at hc
  rw [Option.mem_def.1 hc] at hnot
  simpa using hnot

/-- What is left of white space in front is the trimmed text and the white space behind it. -/
theorem trimLeft_eq_append (cs : List Char) :
    trimLeft cs = trim cs ++ ((trimLeft cs).reverse.takeWhile isBlank).reverse := by
  rw [trim, trimLeft.eq_1 (trimLeft cs).reverse, ← List.reverse_append, List.takeWhile_append_dropWhile,
    List.reverse_reverse]

/-- What is trimmed is what is left without white space at both ends. -/
theorem isTrimmed_trim (cs : List Char) : IsTrimmed cs (trim cs) where
  around := by
    refine ⟨cs.takeWhile isBlank, ((trimLeft cs).reverse.takeWhile isBlank).reverse, ?_, ?_, ?_⟩
    · rw [List.append_assoc, ← trimLeft_eq_append, trimLeft, List.takeWhile_append_dropWhile]
    · exact fun c hc ↦ List.mem_takeWhile_imp hc
    · exact fun c hc ↦ List.mem_takeWhile_imp (List.mem_reverse.1 hc)
  first := by
    intro c hc
    refine isBlank_head?_trimLeft cs c ?_
    rw [trimLeft_eq_append, List.head?_append, Option.mem_def.1 hc]
    rfl
  last := by
    intro c hc
    rw [trim, List.getLast?_reverse] at hc
    exact isBlank_head?_trimLeft _ c hc

/-- Nothing is left of white space alone. -/
theorem trim_eq_nil_iff {cs : List Char} : trim cs = [] ↔ ∀ c ∈ cs, isBlank c = true := by
  constructor
  · intro h
    obtain ⟨front, back, hcs, hfront, hback⟩ := (isTrimmed_trim cs).around
    rw [h, List.append_nil] at hcs
    rw [hcs]
    exact fun c hc ↦ (List.mem_append.1 hc).elim (hfront c) (hback c)
  · intro h
    rw [trim, trimLeft.eq_1 cs, List.dropWhile_eq_nil_iff.2 h]
    rfl

end Text

/-! ### What a single line gives -/

/-- The text is a JSON object with this time in the field. -/
def HasTime (field text : String) (t : Timestamp) : Prop :=
  ∃ object time, Json.read? text = some object ∧ object.member? field = some time ∧
    Decoder.time? time = some t

/-- A time is read off a line exactly if the line has it. -/
theorem timeOfLine_eq_ok_iff {field text : String} {t : Timestamp} :
    Decoder.timeOfLine field text = .ok t ↔ HasTime field text t := by
  rw [Decoder.timeOfLine, HasTime]
  cases hread : Json.read? text with
  | none => simp
  | some object =>
    cases hmember : object.member? field with
    | none => simp [hmember]
    | some time => cases htime : Decoder.time? time <;> simp [hmember, htime]

namespace LineSource

/-- What a line gives after so many events: nothing, a fault of the source, or an event. -/
inductive Gives (field : String) (count : Nat) (line : List UInt8) : Option (Except Fault Event) → Prop
  | blank (text : String) (hutf : Text.bytes text = line) (hblank : ∀ c ∈ text.toList, Text.isBlank c = true) :
      Gives field count line none
  | notUtf8 (fault : SourceFault) (hutf : ∀ text, Text.bytes text ≠ line) :
      Gives field count line (some (.error (.source fault)))
  | undecodable (fault : SourceFault) (text core : String) (hutf : Text.bytes text = line)
      (hcore : Text.IsTrimmed text.toList core.toList) (hne : core ≠ "") (htime : ∀ t, ¬ HasTime field core t) :
      Gives field count line (some (.error (.source fault)))
  | event (text core : String) (t : Timestamp) (hutf : Text.bytes text = line)
      (hcore : Text.IsTrimmed text.toList core.toList) (hne : core ≠ "") (htime : HasTime field core t) :
      Gives field count line (some (.ok (Event.ofPayload t core.toUTF8 count)))

/-- A list of bytes decodes if and only if it is the bytes of a text. -/
theorem decodeUtf8_eq_ok_iff_bytes {line : List UInt8} {text : String} :
    Text.decodeUtf8 line = .ok text ↔ Text.bytes text = line := by
  rw [Text.decodeUtf8_eq_ok_iff, and_iff_right_iff_imp]
  rintro rfl
  exact Text.firstFault?_bytes text 0 0

/-- What a line is reported as is what it gives. -/
theorem gives_report (d : Decoder) (count : Nat) (line : List UInt8) :
    Gives d.field d.nextSequence line
      (((LineReading.of d.field line).report? blame count).map fun r ↦ (d.number r).1) := by
  rw [LineReading.of]
  cases hutf : Text.decodeUtf8 line with
  | error fault =>
    refine .notUtf8 (.notUtf8 fault) fun text hbytes ↦ ?_
    rw [decodeUtf8_eq_ok_iff_bytes.2 hbytes] at hutf
    cases hutf
  | ok text =>
    have hbytes : Text.bytes text = line := decodeUtf8_eq_ok_iff_bytes.1 hutf
    dsimp only
    rw [LineReading.ofText, Decoder.decode]
    dsimp only
    by_cases hblank : (Text.trim text.toList).isEmpty
    · rw [if_pos hblank]
      exact .blank text hbytes (Text.trim_eq_nil_iff.1 (List.isEmpty_iff.1 hblank))
    · rw [if_neg hblank]
      have hcore : Text.IsTrimmed text.toList (String.ofList (Text.trim text.toList)).toList := by
        rw [String.toList_ofList]
        exact Text.isTrimmed_trim text.toList
      have hne : String.ofList (Text.trim text.toList) ≠ "" := fun h ↦ by
        rw [← String.toList_inj, String.toList_ofList] at h
        exact hblank (List.isEmpty_iff.2 h)
      cases htime : Decoder.timeOfLine d.field (String.ofList (Text.trim text.toList)) with
      | error fault =>
        refine .undecodable (.line (count + 1) fault) text _ hbytes hcore hne fun t ht ↦ ?_
        rw [timeOfLine_eq_ok_iff.2 ht] at htime
        cases htime
      | ok t => exact .event text _ t hbytes hcore hne (timeOfLine_eq_ok_iff.1 htime)

/-! ### What all lines give -/

/-- What a file yields for its lines after so many events. -/
inductive Yields (field : String) : Nat → List (List UInt8) → List (Except Fault Event) → Prop
  | nil (count : Nat) : Yields field count [] []
  | nothing {count : Nat} {line : List UInt8} {lines : List (List UInt8)} {results : List (Except Fault Event)}
      (hgives : Gives field count line none) (hrest : Yields field count lines results) :
      Yields field count (line :: lines) results
  | fault {count : Nat} {line : List UInt8} {lines : List (List UInt8)} {results : List (Except Fault Event)}
      {fault : Fault} (hgives : Gives field count line (some (.error fault)))
      (hrest : Yields field count lines results) :
      Yields field count (line :: lines) (.error fault :: results)
  | event {count : Nat} {line : List UInt8} {lines : List (List UInt8)} {results : List (Except Fault Event)}
      {event : Event} (hgives : Gives field count line (some (.ok event)))
      (hrest : Yields field (count + 1) lines results) :
      Yields field count (line :: lines) (.ok event :: results)

theorem yields_results (s : LineSource) : Yields s.decoder.field s.decoder.nextSequence s.lines s.results := by
  obtain ⟨lines, d, count⟩ := s
  rw [results]
  induction lines generalizing d count with
  | nil => exact .nil _
  | cons line rest ih =>
    have hgives := gives_report d count line
    cases hof : LineReading.of d.field line with
    | notUtf8 fault =>
      rw [hof] at hgives
      rw [readings_cons hof]
      exact .fault hgives (ih d count)
    | blank =>
      rw [hof] at hgives
      rw [readings_cons hof]
      exact .nothing hgives (ih d (count + 1))
    | event time payload =>
      rw [hof] at hgives
      rw [readings_cons hof]
      exact .event hgives (ih { d with nextSequence := d.nextSequence + 1 } (count + 1))
    | undecodable fault =>
      rw [hof] at hgives
      rw [readings_cons hof]
      exact .fault hgives (ih d (count + 1))

/-- The answers of a file that is pulled on past its faults until it has nothing left. -/
inductive Pulls : LineSource → List (Except Fault Event) → Prop
  | done {s s' : LineSource} (hpull : s.pull = (.ok none, s')) : Pulls s []
  | fault {s s' : LineSource} {fault : Fault} {results : List (Except Fault Event)}
      (hpull : s.pull = (.error fault, s')) (hrest : Pulls s' results) : Pulls s (.error fault :: results)
  | event {s s' : LineSource} {event : Event} {results : List (Except Fault Event)}
      (hpull : s.pull = (.ok (some event), s')) (hrest : Pulls s' results) : Pulls s (.ok event :: results)

/-- The pulls of a file end. -/
theorem pulls_results (s : LineSource) : Pulls s s.results := by
  generalize hresults : s.results = results
  induction results generalizing s with
  | nil =>
    have hpull := s.pull_eq.1
    rw [hresults] at hpull
    exact .done (Prod.ext hpull rfl)
  | cons result results ih =>
    obtain ⟨hpull, hrest⟩ := s.pull_eq
    rw [hresults] at hpull hrest
    cases result with
    | error fault => exact .fault (Prod.ext hpull rfl) (ih _ hrest)
    | ok event => exact .event (Prod.ext hpull rfl) (ih _ hrest)

/-! ### The keys of the events -/

/-- The events among the results. -/
def events (results : List (Except Fault Event)) : List Event :=
  results.filterMap Except.toOption

namespace Yields

variable {field : String} {count : Nat} {lines : List (List UInt8)} {results : List (Except Fault Event)}

/-- The events are numbered through. -/
theorem sequences (h : Yields field count lines results) :
    (events results).map Event.sequence = List.range' count (events results).length := by
  induction h with
  | nil => rfl
  | nothing _ _ ih => exact ih
  | fault _ _ ih => exact ih
  | event hgives _ ih =>
    cases hgives with
    | event => exact congrArg (_ :: ·) ih

theorem sequences_ascending (h : Yields field count lines results) :
    (events results).Pairwise fun e e' ↦ e.sequence < e'.sequence := by
  rw [← List.pairwise_map, h.sequences]
  exact List.pairwise_lt_range'

theorem keys_nodup (h : Yields field count lines results) : ((events results).map Event.key).Nodup := by
  refine List.pairwise_map.2 (h.sequences_ascending.imp fun hlt hkey ↦ ?_)
  exact Nat.ne_of_lt hlt (congrArg EventKey.sequence hkey)

/-- Where no time is before an earlier one, no key is before an earlier one either. -/
theorem keys_ascending (h : Yields field count lines results)
    (htimes : (events results).Pairwise fun e e' ↦ e.timestamp.millis ≤ e'.timestamp.millis) :
    ((events results).map Event.key).Pairwise fun k k' ↦ k.less k' = true := by
  refine List.pairwise_map.2 ((htimes.and h.sequences_ascending).imp fun ⟨htime, hsequence⟩ ↦ ?_)
  rw [EventKey.less, Bool.or_eq_true, Bool.and_eq_true]
  rcases Int.lt_or_eq_of_le htime with hlt | heq
  · exact Or.inl (decide_eq_true hlt)
  · exact Or.inr ⟨decide_eq_true heq, decide_eq_true hsequence⟩

end Yields

end LineSource

end Tidemark
