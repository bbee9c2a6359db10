import Tidemark.Proofs.Source.Readings
import Tidemark.Proofs.Text.ByteOrder

/-!
# Line ends

A line ends with a line feed, with a carriage return and a line feed, or with the content. The carriage
return is white space to the decoder and begins no sequence of UTF-8, so whether it belongs to the line makes
a difference only to the words of a fault (`held?_dropReturn`). Apart from these words, a content gives the
same with a line end after it as without (`held_ended`), and contents with line ends give together what they
give one by one (`held_joined`).
-/

namespace Tidemark

namespace Text

theorem toList_loop_eq (b : ByteArray) (i : Nat) (seen : List UInt8) :
    ByteArray.toList.loop b i seen = seen.reverse ++ b.data.toList.drop i := by
  fun_induction ByteArray.toList.loop b i seen with
  | case1 i seen h ih =>
    have hi : i < b.data.toList.length := h
    have hget : b.get! i = b.data.toList[i] := getElem!_pos b.data i h
    rw [ih, List.drop_eq_getElem_cons hi, List.reverse_cons, List.append_assoc, hget]
    rfl
  | case2 i seen h =>
    rw [List.drop_eq_nil_of_le (Nat.le_of_not_lt h), List.append_nil]

/-- The list of a byte array is that of its data. -/
theorem toList_eq (b : ByteArray) : b.toList = b.data.toList :=
  toList_loop_eq b 0 []

/-! ### A carriage return after a text -/

/-- Decoding undoes the encoding. -/
theorem decodeUtf8_eq_ok_iff {l : List UInt8} {t : String} :
    decodeUtf8 l = .ok t ↔ firstFault? .start 0 0 l = none ∧ bytes t = l := by
  rw [decodeUtf8]
  cases hfault : firstFault? .start 0 0 l with
  | some fault => simp only [reduceCtorEq, false_and]
  | none =>
    simp only [true_and]
    by_cases hvalid : (⟨l.toArray⟩ : ByteArray).IsValidUTF8
    · simp only [String.fromUTF8?, dif_pos hvalid, Except.ok.injEq]
      constructor
      · rintro rfl
        rfl
      · rintro rfl
        rfl
    · simp only [String.fromUTF8?, dif_neg hvalid, reduceCtorEq, false_iff]
      rintro rfl
      exact hvalid t.isValidUTF8

/-- A second byte is never that of a character. -/
def Utf8State.IsSound : Utf8State → Prop
  | .second low _ _ => 0x80 ≤ low
  | _ => True

theorem isSound_start : Utf8State.start.IsSound :=
  trivial

theorem isSound_continuing (seen further : Nat) : (Utf8State.continuing seen further).IsSound :=
  trivial

/-- A second byte is no carriage return. -/
theorem le_of_secondByte? {first low high : UInt8} {further : Nat}
    (h : secondByte? first = some (low, high, further)) : 0x80 ≤ low := by
  unfold secondByte? at h
  split_ifs at h <;> cases h <;> decide

/-- The scanner takes a carriage return only where a character may begin. -/
theorem firstFault?_append_return {state : Utf8State} (hstate : state.IsSound) (origin index : Nat)
    (l : List UInt8) :
    firstFault? state origin index (l ++ [13]) = none ↔ firstFault? state origin index l = none := by
  induction l generalizing state origin index with
  | nil =>
    cases state with
    | start => exact Iff.rfl
    | second low high further =>
      have hlow : ¬(low ≤ 13 && 13 ≤ high) = true := by
        rw [Bool.and_eq_true, decide_eq_true_eq]
        exact fun h ↦ absurd (UInt8.le_trans hstate h.1) (by decide)
      simp only [List.nil_append, firstFault?, if_neg hlow, reduceCtorEq]
    | continuing seen further => exact iff_of_false nofun nofun
  | cons b rest ih =>
    rw [List.cons_append]
    cases state with
    | start =>
      simp only [firstFault?]
      split
      · exact ih isSound_start _ _
      · split
        · exact Iff.rfl
        · rename_i hsecond
          refine ih ?_ _ _
          exact le_of_secondByte? hsecond
    | second low high further =>
      simp only [firstFault?]
      split
      · split
        · exact ih isSound_start _ _
        · exact ih (isSound_continuing _ _) _ _
      · exact Iff.rfl
    | continuing seen further =>
      simp only [firstFault?]
      split
      · split
        · exact ih isSound_start _ _
        · exact ih (isSound_continuing _ _) _ _
      · exact Iff.rfl

/-- A character that ends in the byte of a carriage return is one. -/
theorem encodeChar_eq_append_return {c : Char} {l : List UInt8}
    (h : String.utf8EncodeChar c = l ++ [13]) : l = [] ∧ c = '\r' := by
  -- the last byte of a longer sequence is at least 128
  have hlong (lead v k : Nat) : sequence lead v (k + 1) ≠ l ++ [13] := by
    rw [sequence]
    intro hlast
    have hbyte : UInt8.ofNat (128 + v % 64) = 13 := List.head_eq_of_cons_eq (List.append_inj_right' hlast rfl)
    have hnat : (128 + v % 64) % 256 = 13 := congrArg UInt8.toNat hbyte
    omega
  rcases encodeChar_cases c with ⟨hc, ec⟩ | ⟨-, -, ec⟩ | ⟨-, -, ec⟩ | ⟨-, -, ec⟩
  · rw [ec, sequence, Nat.zero_add, ← List.nil_append [_]] at h
    obtain ⟨hnil, hbyte⟩ := List.append_inj' h rfl
    have hnat : c.val.toNat % 256 = 13 := congrArg UInt8.toNat (List.head_eq_of_cons_eq hbyte)
    exact ⟨hnil.symm, Char.ext (UInt32.toNat_inj.1 ((Nat.mod_eq_of_lt (by omega)).symm.trans hnat))⟩
  · exact absurd (ec.symm.trans h) (hlong _ _ _)
  · exact absurd (ec.symm.trans h) (hlong _ _ _)
  · exact absurd (ec.symm.trans h) (hlong _ _ _)

/-- A text that ends in the byte of a carriage return ends in a carriage return. -/
theorem bytes_eq_append_return {t : String} {l : List UInt8} :
    bytes t = l ++ [13] ↔ ∃ s, bytes s = l ∧ t = s.push '\r' := by
  constructor
  · intro h
    rw [bytes_eq] at h
    rcases List.eq_nil_or_concat t.toList with hnil | ⟨cs, c, hcs⟩
    · rw [hnil] at h
      exact absurd h.symm (List.append_ne_nil_of_right_ne_nil _ (List.cons_ne_nil _ _))
    · obtain hnil | ⟨front, last, hlast⟩ := List.eq_nil_or_concat (String.utf8EncodeChar c)
      · exact absurd hnil String.utf8EncodeChar_ne_nil
      rw [List.concat_eq_append] at hcs hlast
      rw [hcs, List.flatMap_append, List.flatMap_singleton, hlast, ← List.append_assoc] at h
      obtain ⟨hfront, hbyte⟩ := List.append_inj' h rfl
      rw [hbyte] at hlast
      obtain ⟨rfl, rfl⟩ := encodeChar_eq_append_return hlast
      refine ⟨String.ofList cs, ?_, String.toList_inj.1 ?_⟩
      · rw [bytes_eq, String.toList_ofList, ← hfront, List.append_nil]
      · rw [hcs, String.toList_push, String.toList_ofList]
  · rintro ⟨s, rfl, rfl⟩
    rw [bytes_eq, bytes_eq, String.toList_push, List.flatMap_append]
    rfl

/-- A line with a carriage return at its end decodes to its text with one. -/
theorem decodeUtf8_append_return {l : List UInt8} {t : String} :
    decodeUtf8 (l ++ [13]) = .ok t ↔ ∃ s, decodeUtf8 l = .ok s ∧ t = s.push '\r' := by
  simp only [decodeUtf8_eq_ok_iff, bytes_eq_append_return,
    firstFault?_append_return isSound_start]
  constructor
  · rintro ⟨hfault, s, hs, rfl⟩
    exact ⟨s, ⟨hfault, hs⟩, rfl⟩
  · rintro ⟨s, ⟨hfault, hs⟩, rfl⟩
    exact ⟨hfault, s, hs, rfl⟩

theorem trim_append_blank {c : Char} (hc : isBlank c = true) (cs : List Char) :
    trim (cs ++ [c]) = trim cs := by
  unfold trim trimLeft
  rw [List.dropWhile_append]
  split
  · rename_i hempty
    rw [List.isEmpty_iff.1 hempty, List.dropWhile_cons_of_pos hc]
    rfl
  · rw [List.reverse_append, List.reverse_singleton, List.singleton_append, List.dropWhile_cons_of_pos hc]

end Text

/-! ### What a line holds -/

namespace LineReading

/-- What the line gives but for the words of a fault. -/
def held? : LineReading → Option (Option (Timestamp × ByteArray))
  | blank => none
  | event time payload => some (some (time, payload))
  | _ => some none

/-- What a line is reported as is what it holds, but for the words of a fault. -/
theorem toOption_report? (blame : Blame) (count : Nat) (r : LineReading) :
    (r.report? blame count).map Except.toOption = r.held? := by
  cases r <;> rfl

theorem of_nil (field : String) : of field [] = .blank := by
  have hutf : Text.decodeUtf8 [] = .ok "" := Text.decodeUtf8_eq_ok_iff.2 ⟨rfl, rfl⟩
  rw [of, hutf]
  rfl

/-- White space after a line makes no difference. -/
theorem ofText_push {c : Char} (hc : Text.isBlank c = true) (field text : String) :
    ofText field (text.push c) = ofText field text := by
  simp only [ofText, Decoder.decode, String.toList_push, Text.trim_append_blank hc]

/-- A carriage return at its end makes no difference to what a line holds. -/
theorem held?_append_return (field : String) (line : List UInt8) :
    (of field (line ++ [13])).held? = (of field line).held? := by
  cases hreturn : Text.decodeUtf8 (line ++ [13]) with
  | ok text =>
    obtain ⟨front, hfront, rfl⟩ := Text.decodeUtf8_append_return.1 hreturn
    simp only [of, hreturn, hfront, ofText_push (c := '\r') rfl]
  | error fault =>
    cases hline : Text.decodeUtf8 line with
    | ok text =>
      rw [Text.decodeUtf8_append_return.2 ⟨text, hline, rfl⟩] at hreturn
      cases hreturn
    | error fault => simp only [of, hreturn, hline, held?]

/-- Whether a carriage return belongs to the line or to its end makes no difference. -/
theorem held?_dropReturn (field : String) (line : List UInt8) :
    (of field (dropReturn line)).held? = (of field line).held? := by
  rw [dropReturn]
  split
  · rename_i hlast
    obtain ⟨front, rfl⟩ := List.getLast?_eq_some_iff.1 hlast
    rw [List.dropLast_concat, held?_append_return]
  · rfl

end LineReading

/-- What the lines hold. -/
def held (field : String) (lines : List (List UInt8)) : List (Option (Timestamp × ByteArray)) :=
  lines.filterMap fun line => (LineReading.of field line).held?

theorem held_cons (field : String) (line : List UInt8) (rest : List (List UInt8)) :
    held field (line :: rest) = (LineReading.of field line).held?.toList ++ held field rest := by
  rw [held, held, List.filterMap_cons]
  cases (LineReading.of field line).held? <;> rfl

theorem held_append (field : String) (before after : List (List UInt8)) :
    held field (before ++ after) = held field before ++ held field after :=
  List.filterMap_append

/-- What is read from the lines is what they hold. -/
theorem map_toOption_readings (blame : Blame) (field : String) (count : Nat) (lines : List (List UInt8)) :
    (readings blame field count lines).map Except.toOption = held field lines := by
  induction lines generalizing count with
  | nil => rfl
  | cons line rest ih =>
    rw [readings, List.map_append, ih, ← Option.toList_map, LineReading.toOption_report?, held_cons]

/-- The numbers of the events do not depend on the words of the faults. -/
theorem map_toOption_numbered {rs rs' : List Reading}
    (h : rs.map Except.toOption = rs'.map Except.toOption) (d : Decoder) :
    (numbered d rs).map Except.toOption = (numbered d rs').map Except.toOption := by
  induction rs generalizing d rs' with
  | nil => rw [List.map_eq_nil_iff.1 h.symm]
  | cons r rest ih =>
    obtain ⟨r', rest', rfl, hr, hrest⟩ := List.map_eq_cons_iff.1 h.symm
    have hsame : (d.number r).1.toOption = (d.number r').1.toOption ∧ (d.number r).2 = (d.number r').2 := by
      rcases r with _ | ⟨time, payload⟩ <;> rcases r' with _ | ⟨time', payload'⟩ <;> cases hr <;>
        exact ⟨rfl, rfl⟩
    rw [numbered, numbered, List.map_cons, List.map_cons, hsame.1, hsame.2, ih hrest.symm]

/-- Results that differ in the words of faults answer pulls with no other difference. -/
theorem Feed.toOption_ofResults {results results' : List (Except Fault Event)}
    (h : results.map Except.toOption = results'.map Except.toOption) (n : Nat) :
    (ofResults results n).toOption = (ofResults results' n).toOption := by
  have hmap (rs : List (Except Fault Event)) :
      (ofResults rs n).toOption = ((rs.map Except.toOption)[n]?.map (·.map some)).getD (some none) := by
    rw [ofResults, List.getElem?_map]
    rcases rs[n]? with _ | _ | _ <;> rfl
  rw [hmap, hmap, h]

/-! ### Contents one after the other -/

/-- A line feed ends a line, whatever follows. -/
theorem physicalLines_append_feed (current front rest : List UInt8) :
    physicalLines current (front ++ [10] ++ rest) =
      physicalLines current (front ++ [10]) ++ physicalLines [] rest := by
  induction front generalizing current with
  | nil => rfl
  | cons b front ih =>
    simp only [List.cons_append, physicalLines]
    split
    · rw [ih, List.cons_append]
    · exact ih _

/-- The last line may or may not be ended. -/
theorem held_append_feed (field : String) (current content : List UInt8) :
    held field (physicalLines current (content ++ [10])) = held field (physicalLines current content) := by
  induction content generalizing current with
  | nil =>
    have hone : physicalLines current [10] = [dropReturn current.reverse] := rfl
    rw [List.nil_append, hone, held_cons, LineReading.held?_dropReturn, physicalLines]
    split
    · rename_i hempty
      rw [List.isEmpty_iff.1 hempty, List.reverse_nil, LineReading.of_nil]
      rfl
    · rw [held_cons]
  | cons b rest ih =>
    simp only [List.cons_append, physicalLines]
    split
    · rw [held_cons, held_cons, ih]
    · exact ih _

/-- The text is the content with a line end after it, or the content itself when it ends in one. -/
def IsEnded (content text : ByteArray) : Prop :=
  text = content.push 10 ∨ text = content ∧ content.toList.getLast? = some 10

/-- The texts one after the other. -/
def joined (texts : List ByteArray) : ByteArray :=
  texts.foldr (· ++ ·) .empty

/-- The bytes of joined texts are those of the texts in their order. -/
theorem toList_joined (texts : List ByteArray) : (joined texts).toList = texts.flatMap ByteArray.toList := by
  induction texts with
  | nil => exact Text.toList_eq _
  | cons text rest ih =>
    rw [List.flatMap_cons, ← ih, joined, List.foldr_cons, ← joined, Text.toList_eq, Text.toList_eq,
      Text.toList_eq, ByteArray.data_append, Array.toList_append]

variable {field : String}

/-- A line end after a content makes no difference to what its lines hold. -/
theorem held_ended {content text : ByteArray} (h : IsEnded content text) :
    held field (physicalLines [] text.toList) = held field (physicalLines [] content.toList) := by
  rcases h with rfl | ⟨rfl, -⟩
  · rw [Text.toList_eq, ByteArray.data_push, Array.toList_push, ← Text.toList_eq, held_append_feed]
  · rfl

/-- What follows a text that is ended begins a line. -/
theorem physicalLines_append_ended {content text : ByteArray} (h : IsEnded content text)
    (rest : List UInt8) :
    physicalLines [] (text.toList ++ rest) = physicalLines [] text.toList ++ physicalLines [] rest := by
  have hfeed : ∃ front, text.toList = front ++ [10] := by
    rcases h with rfl | ⟨rfl, hlast⟩
    · exact ⟨content.data.toList, by rw [Text.toList_eq, ByteArray.data_push, Array.toList_push]⟩
    · exact List.getLast?_eq_some_iff.1 hlast
  obtain ⟨front, hfront⟩ := hfeed
  rw [hfront, physicalLines_append_feed]

/-- Ended texts hold together what the contents hold one by one. -/
theorem held_joined {contents texts : List ByteArray} (h : List.Forall₂ IsEnded contents texts) :
    held field (physicalLines [] (joined texts).toList) =
      contents.flatMap fun content => held field (physicalLines [] content.toList) := by
  rw [toList_joined]
  induction h with
  | nil => rfl
  | cons hended _ ih =>
    rw [List.flatMap_cons, List.flatMap_cons, physicalLines_append_ended hended, held_append, ih,
      held_ended hended]

end Tidemark
