import Tidemark.Proofs.Time.Decoded

/-!
# Timestamps written and read back

A timestamp of a year of four digits is written as a stamp with the offset zero and three decimals or none
(`WholeMillis.writeDateTime_eq`), which tells its milliseconds. So it is decoded from every line that holds what was
written, and no two of them are written alike (`decodes_write`).

```
  Timestamp  ──  write  ──▶  "1969-12-31T23:59:59.999+00:00"
      ▲                                  │
      └─────  decode of a line  ─────────┘
```

The way out splits milliseconds into a date and a time of day, the way back puts them together again; that the two
undo each other is `DateTime.toMillis_ofMillis`.
-/

namespace Tidemark

/-- Milliseconds from the start of 1970 to the start of a year. -/
def yearStart (year : Nat) : Int :=
  Date.counted year 1 1 * 86400000

/-- The timestamp lies in the year. -/
def Timestamp.InYear (t : Timestamp) (year : Nat) : Prop :=
  yearStart year ≤ t.millis ∧ t.millis < yearStart (year + 1)

namespace Written

/-! ### Digits with leading zeros -/

theorem numeral_zero (width : Nat) : numeral width 0 = List.replicate width '0' := by
  induction width with
  | zero => rfl
  | succ width ih =>
    rw [numeral, Nat.zero_div, ih, List.replicate_succ']
    rfl

/-- A numeral is the digits of its number, with zeros in front up to the width. -/
theorem numeral_eq {width n : Nat} (hwidth : 0 < width) (hn : n < 10 ^ width) :
    numeral width n = List.replicate (width - (Nat.toDigits 10 n).length) '0' ++ Nat.toDigits 10 n := by
  induction width generalizing n with
  | zero => exact absurd hwidth (by decide)
  | succ width ih =>
    by_cases hsmall : n < 10
    · rw [numeral, Nat.div_eq_of_lt hsmall, numeral_zero, Nat.toDigits_of_lt_base hsmall, Nat.mod_eq_of_lt hsmall]
      rfl
    · have hshort : n / 10 < 10 ^ width := by
        rw [pow_succ] at hn
        omega
      have hpos : 0 < width := by
        refine Nat.pos_of_ne_zero ?_
        rintro rfl
        omega
      rw [numeral, ih hpos hshort, Text.toDigits_eq_append (Nat.not_lt.1 hsmall), List.length_append,
        List.length_singleton, Nat.add_sub_add_right, List.append_assoc]

theorem toList_padded {width n : Nat} (hwidth : 0 < width) (hn : n < 10 ^ width) :
    (padded width n).toList = numeral width n := by
  have hchars : (toString n).toList = Nat.toDigits 10 n := Nat.toList_repr
  rw [numeral_eq hwidth hn, padded]
  simp only [hchars, String.toList_ofList]

end Written

/-! ### Splitting milliseconds -/

/-- The milliseconds of a date and time are split and put together again. -/
theorem DateTime.toMillis_ofMillis (millis : Int) : (ofMillis millis).toMillis = millis := by
  simp only [ofMillis, toMillis, TimeOfDay.millis, Date.toDays_ofDays]
  rw [Int.fdiv_eq_ediv_of_nonneg _ (by decide)]
  omega

theorem yearStart_eq (year : Nat) : yearStart year = Date.toDays ⟨year, 1, 1⟩ * 86400000 := by
  rw [yearStart, Date.toDays_eq_counted year (by decide) (by decide)]

/-- The date that the milliseconds of a timestamp are split into is in the year of the timestamp. -/
theorem Timestamp.InYear.year_eq {t : Timestamp} {year : Nat} (h : t.InYear year) :
    (DateTime.ofMillis t.millis).date.year = year := by
  obtain ⟨hstart, hend⟩ := h
  rw [yearStart_eq] at hstart hend
  let days := Int.fdiv t.millis 86400000
  have hdays : days = t.millis / 86400000 := Int.fdiv_eq_ediv_of_nonneg _ (by decide)
  have hlow : (year : Int) ≤ (Date.ofDays days).year :=
    Date.le_year (Date.valid_ofDays days) (by rw [Date.toDays_ofDays]; omega)
  have hhigh : (Date.ofDays days).year < (year + 1 : Nat) :=
    Date.year_lt (Date.valid_ofDays days) (by rw [Date.toDays_ofDays]; omega)
  show (Date.ofDays days).year = year
  omega

namespace Written

/-- The date exists in a year of four digits, and the time is one of whole milliseconds. -/
structure WholeMillis (t : DateTime) (year ms : Nat) : Prop where
  valid_date : t.date.Valid
  year_eq : t.date.year = year
  year_lt : year < 10000
  hour_lt : t.time.hour < 24
  minute_lt : t.time.minute < 60
  second_lt : t.time.second < 60
  ms_lt : ms < 1000
  nanos_eq : t.time.nanos = ms * 1000000

/-- The date of a timestamp in such a year exists, and its time is one of whole milliseconds. -/
theorem exists_wholeMillis {t : Timestamp} {year : Nat} (ht : t.InYear year) (hyear : year ≤ 9999) :
    ∃ ms, WholeMillis (DateTime.ofMillis t.millis) year ms := by
  have hrest : (t.millis - Int.fdiv t.millis 86400000 * 86400000).toNat < 86400000 := by
    rw [Int.fdiv_eq_ediv_of_nonneg _ (by decide)]
    omega
  refine ⟨(t.millis - Int.fdiv t.millis 86400000 * 86400000).toNat % 1000, Date.valid_ofDays _, ht.year_eq,
    Nat.lt_succ_of_le hyear, ?_, ?_, ?_, by omega, rfl⟩ <;>
    simp only [DateTime.ofMillis] <;> omega

/-! ### The stamp that is written -/

namespace WholeMillis

variable {t : DateTime} {year ms : Nat}

/-- The stamp of the date and time: three decimals unless they are all zero, and the offset zero. -/
def stamp (h : WholeMillis t year ms) : Stamp where
  year := ⟨year, h.year_lt⟩
  month := t.date.month
  day := t.date.day
  hour := ⟨t.time.hour, h.hour_lt⟩
  minute := ⟨t.time.minute, h.minute_lt⟩
  second := ⟨t.time.second, h.second_lt⟩
  fraction := if ms = 0 then [] else
    [⟨ms / 10 / 10 % 10, by omega⟩, ⟨ms / 10 % 10, by omega⟩, ⟨ms % 10, by omega⟩]
  zone := .ahead ⟨0, by decide⟩ ⟨0, by decide⟩
  valid_date := h.year_eq ▸ h.valid_date
  length_fraction := by split <;> simp

variable (h : WholeMillis t year ms)

theorem dateTime_stamp : h.stamp.dateTime = t := by
  have hms := h.ms_lt
  have hnanos : h.stamp.nanos = t.time.nanos := by
    rw [h.nanos_eq, Stamp.nanos, stamp]
    split <;> simp [Nat.ofDigits] <;> omega
  have hyear : ((⟨year, h.year_lt⟩ : Fin 10000).val : Int) = t.date.year := h.year_eq.symm
  simp only [Stamp.dateTime, hnanos]
  simp only [stamp, hyear]

/-- The decimals of the stamp are those that are written. -/
theorem decimals_stamp :
    (if t.time.nanos = 0 then "" else "." ++ padded 3 (t.time.nanos / 1000000)).toList = h.stamp.decimals := by
  have hpoint : ".".toList = ['.'] := by decide
  have hdigits : (padded 3 ms).toList = numeral 3 ms := toList_padded (by decide) h.ms_lt
  rw [h.nanos_eq]
  by_cases hzero : ms = 0
  · simp [Stamp.decimals, stamp, hzero]
  · simp [Stamp.decimals, stamp, hzero, hpoint, hdigits, numeral]

theorem writeDateTime_eq : writeDateTime t = h.stamp.text := by
  have hhyphen : "-".toList = ['-'] := by decide
  have hcolon : ":".toList = [':'] := by decide
  have hT : "T".toList = ['T'] := by decide
  have hzone : "+00:00".toList = (Zone.ahead ⟨0, by decide⟩ ⟨0, by decide⟩).text := by decide
  have hyear : 0 ≤ t.date.year ∧ t.date.year ≤ 9999 := by
    have := h.year_lt
    rw [h.year_eq]
    omega
  have hfour : (padded 4 t.date.year.toNat).toList = numeral 4 year := by
    rw [h.year_eq, Int.toNat_natCast]
    exact toList_padded (by decide) h.year_lt
  have htwo : ∀ n < 10 ^ 2, (padded 2 n).toList = numeral 2 n := fun n ↦ toList_padded (by decide)
  have hmonth := htwo t.date.month h.stamp.month_lt
  have hday := htwo t.date.day h.stamp.day_lt
  have hhour := htwo t.time.hour (h.hour_lt.trans (by decide))
  have hminute := htwo t.time.minute (h.minute_lt.trans (by decide))
  have hsecond := htwo t.time.second (h.second_lt.trans (by decide))
  rw [← String.toList_inj]
  simp only [writeDateTime, writeYear, if_pos hyear, String.toList_append, h.decimals_stamp, hhyphen, hcolon, hT,
    hzone, hfour, hmonth, hday, hhour, hminute, hsecond]
  simp [Stamp.text, Stamp.chars, Zone.separator, stamp]

end WholeMillis

/-- What is written for a timestamp of a year of four digits is read as that timestamp. -/
theorem read?_write {t : Timestamp} {year : Nat} (ht : t.InYear year) (hyear : year ≤ 9999) :
    read? (write t) = some t := by
  obtain ⟨ms, h⟩ := exists_wholeMillis ht hyear
  have hdates : Date.firstYear ≤ (DateTime.ofMillis t.millis).date.year ∧
      (DateTime.ofMillis t.millis).date.year ≤ Date.lastYear := by
    rw [ht.year_eq, Date.firstYear, Date.lastYear]
    omega
  have hwrite : write t = h.stamp.text := by
    rw [write, if_pos hdates, h.writeDateTime_eq]
  have hmillis : h.stamp.millis = t.millis := by
    rw [Stamp.millis, ← h.stamp.toMillis_dateTime, h.dateTime_stamp, DateTime.toMillis_ofMillis]
    exact Int.sub_zero _
  obtain ⟨s, hread, hs⟩ := h.stamp.read?_text
  rw [hwrite, hread, Timestamp.eq_of_millis (hs.trans hmillis)]

end Written

open Decoder

/-- **Written timestamps are decoded to themselves.** -/
theorem decodes_write {t : Timestamp} {year : Nat} (ht : t.InYear year) (hyear : year ≤ 9999) (d : Decoder) :
    HoldsText d.field (Json.Value.object [(d.field, .string (Written.write t))]).compact (Written.write t) ∧
      (∀ line, HoldsText d.field line (Written.write t) → d.Decodes line t) ∧
      ∀ (t' : Timestamp) (year' : Nat), t'.InYear year' → year' ≤ 9999 →
        Written.write t' = Written.write t → t' = t := by
  have hread := Written.read?_write ht hyear
  refine ⟨holdsText_compact d.field _, fun line hline ↦ decodes_of_holdsText hline hread, ?_⟩
  intro t' year' ht' hyear' hsame
  have hread' := Written.read?_write ht' hyear'
  rw [hsame, hread] at hread'
  exact (Option.some.inj hread').symm

/-- Half a day into the first leap day, and seven milliseconds. -/
def firstLeapDay : Timestamp :=
  ⟨-62162078399993, by decide, by decide⟩

theorem inYear_firstLeapDay : firstLeapDay.InYear 0 := by
  rw [Timestamp.InYear, yearStart_eq, yearStart_eq]
  decide

theorem write_firstLeapDay : Written.write firstLeapDay = "0000-02-29T12:00:00.007+00:00" := by
  decide +kernel

theorem decodes_write_firstLeapDay :
    firstLeapDay.InYear 0 ∧ 0 ≤ 9999 ∧
      HoldsText "ts" "\x7b\"ts\":\"0000-02-29T12:00:00.007+00:00\"\x7d" (Written.write firstLeapDay) ∧
      Decoder.Decodes ⟨"ts", 0⟩ "\x7b\"ts\":\"0000-02-29T12:00:00.007+00:00\"\x7d" firstLeapDay ∧
      ∀ (t' : Timestamp) (year' : Nat), t'.InYear year' → year' ≤ 9999 →
        Written.write t' = Written.write firstLeapDay → t' = firstLeapDay := by
  obtain ⟨hholds, hdecodes, hinj⟩ := decodes_write inYear_firstLeapDay (by decide) ⟨"ts", 0⟩
  have hline : (Json.Value.object [("ts", .string (Written.write firstLeapDay))]).compact =
      "\x7b\"ts\":\"0000-02-29T12:00:00.007+00:00\"\x7d" := by
    rw [write_firstLeapDay]
    decide +kernel
  rw [hline] at hholds
  exact ⟨inYear_firstLeapDay, by decide, hholds, hdecodes _ hholds, hinj⟩

end Tidemark
