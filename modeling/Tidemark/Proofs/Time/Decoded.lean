import Tidemark.Proofs.Json.Strings
import Tidemark.Proofs.Source.Replayed
import Tidemark.Proofs.Time.Stamps

/-!
# Lines that hold a written time

A line that holds a stamp in its field is decoded to an event of the milliseconds that the stamp tells, what is left
of a millisecond dropped towards the past (`decodes_stamp`). Whatever the forms of two stamps, the later one is not
decoded to the smaller timestamp.

The line may hold other members, and white space where JSON or the trimming of a line allows it (`HoldsText`).
-/

namespace Tidemark

/-- The line is an object whose member of the given name is the text. -/
def HoldsText (field line text : String) : Prop :=
  ∃ object, Json.read? (String.ofList (Text.trim line.toList)) = some object ∧
    object.member? field = some (.string text)

/-- An object of that member alone holds its text. -/
theorem holdsText_compact (field text : String) :
    HoldsText field (Json.Value.object [(field, .string text)]).compact text := by
  have htrim : Text.trim (Json.Value.object [(field, .string text)]).compact.toList =
      (Json.Value.object [(field, .string text)]).compact.toList := by
    rw [Json.toList_compact]
    refine Text.trim_eq_self ?_ ?_
    · simp
      decide
    · simp [List.getLast?_cons, List.getLast?_append]
      decide
  refine ⟨.object [(field, .string text)], ?_, List.lookup_cons_self⟩
  rw [htrim, String.ofList_toList]
  exact Json.read?_compact field text

namespace Decoder

/-- The line is decoded to an event of the timestamp. -/
def Decodes (d : Decoder) (line : String) (t : Timestamp) : Prop :=
  ∃ e, (d.decode line).1 = .ok (some e) ∧ e.timestamp = t

/-- A line is decoded to one timestamp. -/
theorem Decodes.unique {d : Decoder} {line : String} {s t : Timestamp} (hs : d.Decodes line s)
    (ht : d.Decodes line t) : s = t := by
  obtain ⟨e, he, rfl⟩ := hs
  obtain ⟨f, hf, rfl⟩ := ht
  rw [he] at hf
  exact congrArg Event.timestamp (Option.some.inj (Except.ok.inj hf))

/-- A line that holds a time that can be read is decoded to that time. -/
theorem decodes_of_holdsText {d : Decoder} {line text : String} {t : Timestamp} (hline : HoldsText d.field line text)
    (htext : Written.read? text = some t) : d.Decodes line t := by
  obtain ⟨object, hread, hmember⟩ := hline
  have htime : timeOfLine d.field (String.ofList (Text.trim line.toList)) = .ok t :=
    timeOfLine_eq_ok_iff.2 ⟨object, .string text, hread, hmember, htext⟩
  have hblank : (Text.trim line.toList).isEmpty = false := by
    cases hcs : Text.trim line.toList with
    | nil =>
      have hnone : Json.read? (String.ofList []) = none := rfl
      rw [hcs, hnone] at hread
      exact nomatch hread
    | cons c cs => rfl
  refine ⟨Event.ofPayload t (String.ofList (Text.trim line.toList)).toUTF8 d.nextSequence, ?_, rfl⟩
  rw [decode]
  simp only [hblank, htime]
  rfl

end Decoder

open Decoder

/-- Later instants have no smaller milliseconds: offsets are whole ones. -/
theorem Written.Stamp.millis_mono {v w : Written.Stamp} (h : v.instant ≤ w.instant) : v.millis ≤ w.millis := by
  simp only [instant, millis] at h ⊢
  omega

/-- **Written times are decoded to the millisecond.** A line that holds a stamp is decoded to the milliseconds on the
clocks of the stamp, rounded down, less the offset of these clocks; later stamps are not decoded to smaller
timestamps. -/
theorem decodes_stamp (w : Written.Stamp) (d : Decoder) {line : String} (hline : HoldsText d.field line w.text) :
    ∃ t, d.Decodes line t ∧ t.millis = w.civilNanos / 1000000 - w.zone.minutes * 60000 ∧
      ∀ (w' : Written.Stamp) (d' : Decoder) (line' : String) (t' : Timestamp), HoldsText d'.field line' w'.text →
        d'.Decodes line' t' → w.instant ≤ w'.instant → t ≤ t' := by
  obtain ⟨t, hread, hmillis⟩ := w.read?_text
  refine ⟨t, decodes_of_holdsText hline hread, hmillis, ?_⟩
  intro w' d' line' t' hline' hdecodes' hlater
  obtain ⟨s, hread', hmillis'⟩ := w'.read?_text
  have hs : t' = s := hdecodes'.unique (decodes_of_holdsText hline' hread')
  rw [Timestamp.le_iff, hs, hmillis, hmillis']
  exact Written.Stamp.millis_mono hlater

/-- The last millisecond of a leap day, on clocks that are behind. -/
def leapDay : Written.Stamp where
  year := 2000
  month := 2
  day := 29
  hour := 23
  minute := 59
  second := 59
  fraction := [9, 9, 9, 9]
  zone := .behind 1 30

def leapDayLine : String :=
  "\x7b\"ts\":\"2000-02-29T23:59:59.9999-01:30\"\x7d"

theorem holdsText_leapDayLine : HoldsText "ts" leapDayLine leapDay.text := by
  have hline : (Json.Value.object [("ts", .string leapDay.text)]).compact = leapDayLine := by decide +kernel
  exact hline ▸ holdsText_compact "ts" leapDay.text

/-- The fourth decimal is dropped, and an hour and a half are added for the clocks. -/
theorem decodes_stamp_leapDay :
    HoldsText "ts" leapDayLine leapDay.text ∧
      ∃ t, Decoder.Decodes ⟨"ts", 0⟩ leapDayLine t ∧ t.millis = 951874199999 ∧
        ∀ (w' : Written.Stamp) (d' : Decoder) (line' : String) (t' : Timestamp), HoldsText d'.field line' w'.text →
          d'.Decodes line' t' → leapDay.instant ≤ w'.instant → t ≤ t' := by
  obtain ⟨t, hdecodes, hmillis, hlater⟩ := decodes_stamp leapDay ⟨"ts", 0⟩ holdsText_leapDayLine
  rw [← leapDay.toMillis_dateTime] at hmillis
  exact ⟨holdsText_leapDayLine, t, hdecodes, hmillis.trans (by decide), hlater⟩

end Tidemark
