import Tidemark.Proofs.Source.Yields
import Tidemark.Proofs.Text.Numerals

/-!
# The line numbers in faults

A file counts the lines that it has read, and the fault of an undecodable line names its number. A line that is
not UTF-8 is read without being counted, so a fault names the line that it comes from if and only if all lines
before that one are UTF-8; otherwise it names an earlier one (`fault_counts_texts`):

```
          read as        counted as
ÿ         not UTF-8
x         undecodable    1             (fault_names_earlier_line)
```

All of it follows from how far the pulls have come (`Reads`): what was read is kept beside what is left, and the
count belongs to what was read.
-/

namespace Tidemark.LineSource

/-! ### The number in a message -/

/-- The message tells that something is wrong with the line of a number. -/
def NamesLine (message : String) (number : Nat) : Prop :=
  ∃ what, message = "Source Error - line " ++ toString number ++ ": " ++ what

theorem takeWhile_toDigits_append {c : Char} (hc : c.isDigit = false) (n : Nat) (rest : List Char) :
    (Nat.toDigits 10 n ++ c :: rest).takeWhile Char.isDigit = Nat.toDigits 10 n := by
  have hdigits : ∀ d ∈ Nat.toDigits 10 n, d.isDigit = true := fun d hd ↦
    Nat.isDigit_of_mem_toDigits (by decide) (by decide) hd
  rw [List.takeWhile_append_of_pos hdigits, List.takeWhile_cons_of_neg (by simp [hc]), List.append_nil]

/-- A message names one line at most. -/
theorem NamesLine.unique {message : String} {m n : Nat} (hm : NamesLine message m) (hn : NamesLine message n) :
    m = n := by
  obtain ⟨a, rfl⟩ := hm
  obtain ⟨b, hb⟩ := hn
  have hchars := congrArg String.toList hb
  have htext : ∀ k : Nat, (toString k).toList = Nat.toDigits 10 k := fun _ ↦ Nat.toList_repr
  have hcolon : ": ".toList = [':', ' '] := by decide
  simp only [String.toList_append, List.append_assoc, htext, hcolon, List.cons_append,
    List.append_cancel_left_eq] at hchars
  have hdigits := congrArg (List.takeWhile Char.isDigit) hchars
  rw [takeWhile_toDigits_append (by decide), takeWhile_toDigits_append (by decide)] at hdigits
  refine Text.eq_of_toString_eq (String.toList_inj.1 ?_)
  rw [htext, htext]
  exact hdigits

/-- The message of a fault names the line of its number. -/
theorem namesLine_message (number : Nat) (fault : LineFault) :
    NamesLine (Fault.source (.line number fault)).message number := by
  refine ⟨fault.message, ?_⟩
  show "Source Error - " ++ ("line " ++ toString number ++ ": " ++ fault.message) = _
  rw [← String.append_assoc, ← String.append_assoc, ← String.append_assoc]
  rfl

/-! ### Counted lines -/

/-- How many of the lines are UTF-8. -/
def texts (lines : List (List UInt8)) : Nat :=
  lines.countP fun line ↦ (Text.decodeUtf8 line).isOk

/-- A line is UTF-8 exactly if it is the bytes of a text. -/
theorem isOk_decodeUtf8_iff {line : List UInt8} :
    (Text.decodeUtf8 line).isOk = true ↔ ∃ text, Text.bytes text = line := by
  simp only [← decodeUtf8_eq_ok_iff_bytes]
  cases Text.decodeUtf8 line <;> simp [Except.isOk, Except.toBool]

theorem texts_cons {line : List UInt8} {text : String} (hutf : Text.decodeUtf8 line = .ok text)
    (lines : List (List UInt8)) : texts (line :: lines) = texts lines + 1 := by
  rw [texts, List.countP_cons, hutf]
  rfl

theorem texts_append (lines more : List (List UInt8)) : texts (lines ++ more) = texts lines + texts more :=
  List.countP_append

/-- All lines are counted if and only if all are UTF-8. -/
theorem texts_eq_length_iff {lines : List (List UInt8)} :
    texts lines = lines.length ↔ ∀ line ∈ lines, ∃ text, Text.bytes text = line := by
  simp only [texts, List.countP_eq_length, isOk_decodeUtf8_iff]

/-! ### What the pulls have read -/

/-- The fault of a line after so many counted ones. -/
inductive Stops (field : String) (count : Nat) (line : List UInt8) : Fault → Prop
  | notUtf8 (fault : Text.Utf8Fault) (hutf : Text.decodeUtf8 line = .error fault) :
      Stops field count line (.source (.notUtf8 fault))
  | undecodable (text : String) (fault : LineFault) (hutf : Text.decodeUtf8 line = .ok text)
      (hof : LineReading.of field line = .undecodable fault) :
      Stops field count line (.source (.line (count + 1) fault))

namespace Stops

variable {field : String} {count : Nat} {line : List UInt8} {fault : Fault}

/-- A line that stops a pull gives its fault. -/
theorem gives (h : Stops field count line fault) : Gives field 0 line (some (.error fault)) := by
  have hgives : Gives field 0 line (((LineReading.of field line).report? blame count).map fun r ↦
      (({ field } : Decoder).number r).1) := gives_report { field } count line
  cases h with
  | notUtf8 fault hutf =>
    rw [LineReading.of, hutf] at hgives
    exact hgives
  | undecodable text fault hutf hof =>
    rw [hof] at hgives
    exact hgives

/-- The message of a text that cannot be decoded names its number. -/
theorem namesLine_iff (h : Stops field count line fault) {text : String} (htext : Text.bytes text = line)
    (number : Nat) : NamesLine fault.message number ↔ number = count + 1 := by
  cases h with
  | notUtf8 fault hutf =>
    rw [decodeUtf8_eq_ok_iff_bytes.2 htext] at hutf
    exact nomatch hutf
  | undecodable _ fault _ _ =>
    have hnames := namesLine_message (count + 1) fault
    exact ⟨fun hnumber ↦ hnumber.unique hnames, fun hnumber ↦ hnumber ▸ hnames⟩

end Stops

/-- A pull has read some lines and has counted those of them that are UTF-8. If it gives a fault, that is the
fault of the last one. -/
structure Reads (s : LineSource) (result : Except Fault (Option Event)) (s' : LineSource)
    (read : List (List UInt8)) : Prop where
  lines : s.lines = read ++ s'.lines
  lineNumber : s'.lineNumber = s.lineNumber + texts read
  field : s'.decoder.field = s.decoder.field
  fault : ∀ fault, result = .error fault → ∃ passed line, read = passed ++ [line] ∧
    Stops s.decoder.field (s.lineNumber + texts passed) line fault

/-- A pull reads on to the first line that gives anything. -/
theorem reads_pullFrom (d : Decoder) (count : Nat) (lines : List (List UInt8)) :
    ∃ read, Reads ⟨lines, d, count⟩ (pullFrom d count lines).1 (pullFrom d count lines).2 read := by
  induction lines generalizing count with
  | nil => exact ⟨[], rfl, rfl, rfl, by simp [pullFrom]⟩
  | cons line rest ih =>
    cases d.meets line with
    | notUtf8 fault hutf hof =>
      simp only [pullFrom, hutf]
      refine ⟨[line], rfl, ?_, rfl, fun fault' hfault ↦ ⟨[], line, rfl, ?_⟩⟩
      · rw [texts, List.countP_singleton, hutf]
        rfl
      · cases hfault
        exact .notUtf8 fault hutf
    | blank text hutf hdecode hof =>
      obtain ⟨read, hreads⟩ := ih (count + 1)
      have hcount : ∀ read, count + 1 + texts read = count + texts (line :: read) := fun read ↦ by
        rw [texts_cons hutf, Nat.add_assoc, Nat.add_comm 1]
      simp only [pullFrom, hutf, hdecode]
      refine ⟨line :: read, congrArg (line :: ·) hreads.lines, ?_, hreads.field, fun fault hfault ↦ ?_⟩
      · exact hreads.lineNumber.trans (hcount read)
      · obtain ⟨passed, last, rfl, hstops⟩ := hreads.fault fault hfault
        refine ⟨line :: passed, last, rfl, ?_⟩
        rw [← hcount]
        exact hstops
    | event text hutf time payload hdecode hof =>
      simp only [pullFrom, hutf, hdecode]
      exact ⟨[line], rfl, by rw [texts_cons hutf]; rfl, rfl, by simp⟩
    | undecodable text hutf fault hdecode hof =>
      simp only [pullFrom, hutf, hdecode]
      refine ⟨[line], rfl, by rw [texts_cons hutf]; rfl, rfl, fun fault' hfault ↦ ⟨[], line, rfl, ?_⟩⟩
      cases hfault
      exact .undecodable text fault hutf hof

theorem reads_pull (s : LineSource) : ∃ read, Reads s s.pull.1 s.pull.2 read :=
  reads_pullFrom s.decoder s.lineNumber s.lines

/-- The source after so many pulls, whatever these gave. -/
def after (s : LineSource) : Nat → LineSource
  | 0 => s
  | n + 1 => (s.after n).pull.2

/-- After some pulls the lines of a content are those that were read and those that are left, and the texts
among the former are counted. -/
theorem read_after (content : ByteArray) (field : String) (n : Nat) :
    ∃ read, physicalLines [] content.toList = read ++ ((ofContent content field).after n).lines ∧
      ((ofContent content field).after n).lineNumber = texts read ∧
      ((ofContent content field).after n).decoder.field = field := by
  induction n with
  | zero => exact ⟨[], rfl, rfl, rfl⟩
  | succ n ih =>
    obtain ⟨read, hlines, hnumber, hfield⟩ := ih
    obtain ⟨more, hreads⟩ := reads_pull ((ofContent content field).after n)
    refine ⟨read ++ more, ?_, ?_, hreads.field.trans hfield⟩
    · rw [hlines, hreads.lines, List.append_assoc]
      rfl
    · rw [texts_append, ← hnumber]
      exact hreads.lineNumber

/-- A fault of the pull after so many others, traced back to the line that it comes from. -/
structure Traced (content : ByteArray) (field : String) (n : Nat) (fault : Fault) (before : List (List UInt8))
    (line : List UInt8) : Prop where
  /-- It is the last line that the pull has read. -/
  isLines : ∃ later, IsLines content.toList (before ++ line :: later) ∧
    ((ofContent content field).after (n + 1)).lines = later
  gives : Gives field 0 line (some (.error fault))
  /-- If the line is UTF-8, so that it is the decoding that failed, the message counts the texts up to it. -/
  names_iff : ∀ text, Text.bytes text = line → ∀ number,
    NamesLine fault.message number ↔ number = texts before + 1
  /-- This is the number of the line if and only if all lines before it are UTF-8. -/
  right_iff : ∀ text, Text.bytes text = line →
    (NamesLine fault.message (before.length + 1) ↔ ∀ line ∈ before, ∃ text, Text.bytes text = line)

/-- Whenever a pull gives a fault, its line is the last one that was read, and the message of a line that cannot
be decoded names the number that the line has among the lines that are UTF-8. -/
theorem fault_counts_texts (content : ByteArray) (field : String) {n : Nat} {fault : Fault}
    (hfault : ((ofContent content field).after n).pull.1 = .error fault) :
    ∃ before line, Traced content field n fault before line := by
  obtain ⟨read, hlines, hnumber, hfield⟩ := read_after content field n
  obtain ⟨more, hreads⟩ := reads_pull ((ofContent content field).after n)
  obtain ⟨passed, line, rfl, hstops⟩ := hreads.fault fault hfault
  rw [hfield, hnumber, ← texts_append] at hstops
  refine ⟨read ++ passed, line, ⟨_, ?_, rfl⟩, hstops.gives, fun _ ↦ hstops.namesLine_iff, fun _ htext ↦ ?_⟩
  · rw [isLines_iff, hlines, hreads.lines, List.append_assoc, List.append_assoc]
    rfl
  · rw [hstops.namesLine_iff htext, ← texts_eq_length_iff, Nat.add_right_cancel_iff]
    exact eq_comm

/-- A line that is not UTF-8, and one that is no JSON. -/
def unreadable : ByteArray :=
  ⟨#[0xFF, 10, 120, 10]⟩

/-- The first of the lines is not counted. -/
theorem after_unreadable : (ofContent unreadable "ts").after 1 = ⟨[[120]], { field := "ts" }, 0⟩ := by
  have hlines : ((ofContent unreadable "ts").after 1).lines = [[120]] := by decide +kernel
  have hdecoder : ((ofContent unreadable "ts").after 1).decoder = { field := "ts" } := by decide +kernel
  have hnumber : ((ofContent unreadable "ts").after 1).lineNumber = 0 := by decide +kernel
  rw [← hlines, ← hdecoder, ← hnumber]

theorem pull_unreadable :
    ((ofContent unreadable "ts").after 1).pull.1 = .error (.source (.line 1 .invalidJson)) := by
  rw [after_unreadable]
  rfl

theorem fault_counts_texts_unreadable :
    ((ofContent unreadable "ts").after 1).pull.1 = .error (.source (.line 1 .invalidJson)) ∧
      ∃ before line, Traced unreadable "ts" 1 (.source (.line 1 .invalidJson)) before line :=
  ⟨pull_unreadable, fault_counts_texts unreadable "ts" pull_unreadable⟩

/-- The fault comes from the second line and names the first one. -/
theorem fault_names_earlier_line :
    IsLines unreadable.toList [[0xFF], [120]] ∧ ((ofContent unreadable "ts").after 1).lines = [[120]] ∧
      ((ofContent unreadable "ts").after 2).lines = [] ∧
      ∃ fault, ((ofContent unreadable "ts").after 1).pull.1 = .error fault ∧
        NamesLine fault.message 1 ∧ ¬ NamesLine fault.message 2 := by
  have hnames := namesLine_message 1 .invalidJson
  have hlines : physicalLines [] unreadable.toList = [[0xFF], [120]] := by decide +kernel
  refine ⟨isLines_iff.2 hlines.symm, by rw [after_unreadable], by decide +kernel, _, pull_unreadable, hnames,
    fun h ↦ ?_⟩
  exact absurd (h.unique hnames) (by decide)

end Tidemark.LineSource
