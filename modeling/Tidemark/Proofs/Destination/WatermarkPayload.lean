import Tidemark.Destination.InMemory
import Tidemark.Proofs.Json.ReadBack

/-!
# What a watermark payload says

The payload of a watermark record is read back as its watermark,
`watermarkOfPayload?_watermarkPayload`, so two watermark records are the same record only if they carry
the same watermark (`Record.ofWatermark_inj`).
-/

namespace Tidemark

open Json

theorem fromUTF8?_toUTF8 (s : String) : String.fromUTF8? s.toUTF8 = some s := by
  simp only [String.fromUTF8?, String.toUTF8_eq_toByteArray, dif_pos s.isValidUTF8]
  rfl

/-- The text of a watermark payload. -/
def watermarkText (w : Timestamp) : String :=
  "\x7b\"type\":\"watermark\",\"watermark\":" ++ toString w.millis ++ "\x7d"

/-- A watermark payload is one object of two members. -/
theorem toList_watermarkText (w : Timestamp) :
    (watermarkText w).toList =
      '\x7b' :: '"' :: ("type".toList ++ '"' :: ':' :: '"' :: ("watermark".toList ++ '"' :: ',' :: '"' ::
        ("watermark".toList ++ '"' :: ':' :: ((toString w.millis).toList ++ ['\x7d'])))) := by
  have hhead : "\x7b\"type\":\"watermark\",\"watermark\":".toList =
      '\x7b' :: '"' :: ("type".toList ++ '"' :: ':' :: '"' :: ("watermark".toList ++ '"' :: ',' :: '"' ::
        ("watermark".toList ++ ['"', ':']))) := by decide
  have hend : "\x7d".toList = ['\x7d'] := by decide
  unfold watermarkText
  rw [String.toList_append, String.toList_append, hhead, hend]
  simp only [List.cons_append, List.append_assoc, List.nil_append]

/-- A member of an object that is followed by another one. -/
theorem readMembers?_next {key : List Char} (hkey : key.all isPlain = true) {depth fuel : Nat}
    {read : List (String × Value)} {cs rest : List Char} {c : Char} {v : Value}
    (hc : isSpace c = false) (hv : readValue? depth fuel (c :: cs) = some (v, ',' :: '"' :: rest)) :
    readMembers? depth read (fuel + 1) ('"' :: (key ++ '"' :: ':' :: c :: cs)) =
      readMembers? depth (insertMember (String.ofList key) v read) fuel ('"' :: rest) := by
  have hcolon : isSpace ':' = false := by decide
  have hcomma : isSpace ',' = false := by decide
  have hquote : isSpace '"' = false := by decide
  simp only [readMembers?, readText?_append hkey, skipSpace_cons hcolon, skipSpace_cons hc, hv,
    skipSpace_cons hcomma, skipSpace_cons hquote]

/-- The last member of an object. -/
theorem readMembers?_last {key : List Char} (hkey : key.all isPlain = true) {depth fuel : Nat}
    {read : List (String × Value)} {cs rest : List Char} {v : Value} (hcs : skipSpace cs = cs)
    (hv : readValue? depth fuel cs = some (v, '\x7d' :: rest)) :
    readMembers? depth read (fuel + 1) ('"' :: (key ++ '"' :: ':' :: cs)) =
      some (.object (insertMember (String.ofList key) v read), rest) := by
  have hcolon : isSpace ':' = false := by decide
  have hclose : isSpace '\x7d' = false := by decide
  simp only [readMembers?, readText?_append hkey, skipSpace_cons hcolon, hcs, hv,
    skipSpace_cons hclose]

/-- The text of a watermark payload is a JSON object of two members. -/
theorem read?_watermarkText (w : Timestamp) :
    Json.read? (watermarkText w) =
      some (.object [("type", .string "watermark"), ("watermark", .number (.integer w.millis))]) := by
  have htype : "type".toList.all isPlain = true := by decide
  have hwatermark : "watermark".toList.all isPlain = true := by decide
  have hlow := w.le_millis
  have hhigh := w.millis_le
  have hnumber : readNumber? ((toString w.millis).toList ++ ['\x7d']) =
      some (.integer w.millis, ['\x7d']) :=
    readNumber?_toString (by omega) (by omega) (by decide) (by decide)
  rw [Json.read?, toList_watermarkText]
  simp only [List.length_cons]
  generalize hfuel : 2 * _ + 2 = fuel
  -- four levels of fuel are used: the object, its two members and the last value
  obtain ⟨k, rfl⟩ : ∃ k, fuel = k + 4 := ⟨fuel - 4, by omega⟩
  obtain ⟨hspace, hvalue⟩ := readValue?_of_readNumber? hnumber (depthBound - 1) k
  have hstring : ∀ rest, readValue? (depthBound - 1) (k + 2) ('"' :: ("watermark".toList ++ '"' :: rest)) =
      some (.string "watermark", rest) := by
    intro rest
    simp only [readValue?, readText?_append hwatermark, Option.map_some, String.ofList_toList]
  have hobject : ∀ rest, readValue? depthBound (k + 4) ('\x7b' :: '"' :: rest) =
      readMembers? (depthBound - 1) [] (k + 3) ('"' :: rest) := by
    intro rest
    simp only [readValue?, skipSpace_cons (c := '"') (by decide)]
    rfl
  rw [skipSpace_cons (by decide), hobject, readMembers?_next htype (by decide) (hstring _),
    readMembers?_last hwatermark hspace hvalue, String.ofList_toList, String.ofList_toList]
  -- members are kept in the order of their names
  have horder : ¬ "watermark" < "type" ∧ "watermark" ≠ "type" := by decide
  simp [insertMember, horder, skipSpace]

/-- A watermark payload is read as its watermark. -/
theorem watermarkOfPayload?_watermarkPayload (w : Timestamp) :
    watermarkOfPayload? (watermarkPayload w) = some w := by
  have htext : String.fromUTF8? (watermarkPayload w) = some (watermarkText w) :=
    fromUTF8?_toUTF8 (watermarkText w)
  have hrange : Timestamp.ofInt? w.millis = some w := dif_pos ⟨w.le_millis, w.millis_le⟩
  simp [watermarkOfPayload?, htext, read?_watermarkText, Value.member?, List.lookup_cons, hrange]

/-- A watermark record tells its watermark. -/
theorem Record.ofWatermark_inj {v w : Timestamp} {a b : String}
    (h : Record.ofWatermark v a = Record.ofWatermark w b) : v = w := by
  have hpayload : watermarkPayload v = watermarkPayload w := congrArg Record.payload h
  have hread := congrArg watermarkOfPayload? hpayload
  rw [watermarkOfPayload?_watermarkPayload, watermarkOfPayload?_watermarkPayload] at hread
  exact Option.some.inj hread

end Tidemark
