import Mathlib.Data.List.Induction
import Mathlib.Data.Nat.Digits.Defs
import Mathlib.Tactic.NormNum
import Tidemark.Binary64.Basic
import Tidemark.Proofs.Time.Civil
import Tidemark.Time.Written

/-!
# Written dates and times read back

A stamp is a date and time as it is written: an existing date of the years from 0 to 9999, a time of day with at
most nine decimals and how it tells the offset (`Stamp`).

```
2015-01-01 00:00:01.5             Zone.unstated        2015-01-01T01:00:01.5+01:00    Zone.ahead 1 0
2015-01-01T00:00:01.5Z            Zone.utc             2014-12-31T19:30:01.5-04:30    Zone.behind 4 30
```

Each is read as the milliseconds of its date and time, what is left of a millisecond dropped, less its offset
(`read?_text`). Every part is read by a lemma of its own with the rest of the text still present, so that the
two readers are run through by rewriting.
-/

namespace Tidemark.Written

open Tidemark.Text

/-! ### Digits -/

/-- The last digits of a number, as many as the width says. -/
def numeral : Nat → Nat → List Char
  | 0, _ => []
  | width + 1, n => numeral width (n / 10) ++ [Nat.digitChar (n % 10)]

@[simp] theorem length_numeral (width n : Nat) : (numeral width n).length = width := by
  induction width generalizing n with
  | zero => rfl
  | succ width ih => simp [numeral, ih]

theorem isDigit_of_mem_numeral {width n : Nat} : ∀ c ∈ numeral width n, c.isDigit = true := by
  induction width generalizing n with
  | zero => simp [numeral]
  | succ width ih =>
    intro c hc
    rcases List.mem_append.1 hc with hc | hc
    · exact ih c hc
    · rw [List.mem_singleton.1 hc, Nat.isDigit_digitChar, decide_eq_true_eq]
      omega

theorem ofDigitChars_numeral {width n : Nat} (hn : n < 10 ^ width) :
    Nat.ofDigitChars 10 (numeral width n) 0 = n := by
  induction width generalizing n with
  | zero =>
    have hzero : n = 0 := by simpa using hn
    rw [hzero]
    rfl
  | succ width ih =>
    have hshort : n / 10 < 10 ^ width := by
      rw [pow_succ] at hn
      omega
    rw [numeral, Nat.ofDigitChars_append, ih hshort, Nat.ofDigitChars_cons_digitChar_of_lt_ten (by omega)]
    simp only [Nat.ofDigitChars_nil]
    omega

/-- Digits are read as their number, up to the most that may be read or up to what is no digit. -/
theorem number?_append {least most : Nat} {ds : List Char} (hds : ∀ c ∈ ds, c.isDigit = true)
    (hleast : least ≤ ds.length) (hmost : ds.length ≤ most) {rest : List Char}
    (hrest : ds.length = most ∨ ∀ c ∈ rest.head?, c.isDigit = false) :
    number? least most (ds ++ rest) = some (Nat.ofDigitChars 10 ds 0, rest) := by
  have hstop : (rest.take (most - ds.length)).takeWhile Char.isDigit = [] := by
    rcases hrest with hfull | hend
    · simp [hfull]
    · cases rest with
      | nil => simp
      | cons c cs =>
        have hc : c.isDigit = false := hend c rfl
        cases most - ds.length <;> simp [hc]
  have htaken : ((ds ++ rest).take most).takeWhile Char.isDigit = ds := by
    rw [List.take_append, List.take_of_length_le hmost, List.takeWhile_append_of_pos hds, hstop, List.append_nil]
  simp only [number?, htaken, if_neg (Nat.not_lt.2 hleast), List.drop_left]
  rfl

/-- A numeral is read as its number, whatever follows it. -/
theorem number?_numeral {least width n : Nat} (hleast : least ≤ width) (hn : n < 10 ^ width) (rest : List Char) :
    number? least width (numeral width n ++ rest) = some (n, rest) := by
  rw [number?_append isDigit_of_mem_numeral (by simpa using hleast) (by simp) (Or.inl (by simp)),
    ofDigitChars_numeral hn]

theorem isBlank_of_isDigit {c : Char} (hc : c.isDigit = true) : isBlank c = false := by
  simp only [Char.isDigit, Bool.and_eq_true, decide_eq_true_eq, ge_iff_le] at hc
  have hlow : 48 ≤ c.toNat := hc.1
  have hhigh : c.toNat ≤ 57 := hc.2
  simp [isBlank]
  omega

theorem head_numeral (width n : Nat) (rest : List Char) :
    ∃ c cs, numeral (width + 1) n ++ rest = c :: cs ∧ c.isDigit = true := by
  cases hdigits : numeral (width + 1) n with
  | nil =>
    have hlength := length_numeral (width + 1) n
    rw [hdigits] at hlength
    exact absurd hlength (by simp)
  | cons c cs =>
    have hc : c ∈ numeral (width + 1) n := hdigits ▸ List.mem_cons_self
    exact ⟨c, cs ++ rest, rfl, isDigit_of_mem_numeral c hc⟩

/-- There is no white space before a number to be dropped. -/
theorem trimLeft_numeral (width n : Nat) (rest : List Char) :
    trimLeft (numeral (width + 1) n ++ rest) = numeral (width + 1) n ++ rest := by
  obtain ⟨c, cs, hcs, hc⟩ := head_numeral width n rest
  rw [hcs]
  refine trimLeft_eq_self fun d hd ↦ ?_
  rw [← Option.some.inj hd]
  exact isBlank_of_isDigit hc

theorem field?_numeral {n : Nat} (hn : n < 10 ^ 2) (rest : List Char) :
    field? (numeral 2 n ++ rest) = some (n, rest) := by
  rw [field?, trimLeft_numeral]
  exact number?_numeral (by decide) hn rest

/-- A year of four digits is read as its number. -/
theorem year?_numeral {n : Nat} (hn : n < 10 ^ 4) (rest : List Char) :
    year? (numeral 4 n ++ rest) = some ((n : Int), rest) := by
  obtain ⟨c, cs, hcs, hc⟩ := head_numeral 3 n rest
  have hread : number? 1 4 (numeral 4 n ++ rest) = some (n, rest) := number?_numeral (by decide) hn rest
  have hminus : c ≠ '-' := by
    rintro rfl
    exact absurd hc (by decide)
  have hplus : c ≠ '+' := by
    rintro rfl
    exact absurd hc (by decide)
  rw [year?, trimLeft_numeral]
  rw [hcs] at hread ⊢
  split
  · exact absurd (List.cons.inj ‹_›).1 hminus
  · exact absurd (List.cons.inj ‹_›).1 hplus
  · rw [hread]
    rfl

/-! ### Stamps -/

/-- How a written time tells its offset. -/
inductive Zone where
  | unstated
  | utc
  | ahead (hours : Fin 24) (minutes : Fin 60)
  | behind (hours : Fin 24) (minutes : Fin 60)
  deriving DecidableEq, Repr

namespace Zone

/-- By how many minutes the written time is ahead of the time at longitude zero. -/
def minutes : Zone → Int
  | unstated => 0
  | utc => 0
  | ahead hours minutes => hours * 60 + minutes
  | behind hours minutes => -(hours * 60 + minutes)

/-- Offsets stay within a day. -/
theorem minutes_bounds (z : Zone) : -1440 < z.minutes ∧ z.minutes < 1440 := by
  cases z <;> simp only [minutes] <;> omega

/-- What stands between the date and the time. -/
def separator : Zone → Char
  | unstated => ' '
  | _ => 'T'

def text : Zone → List Char
  | unstated => []
  | utc => ['Z']
  | ahead hours minutes => '+' :: (numeral 2 hours ++ ':' :: numeral 2 minutes)
  | behind hours minutes => '-' :: (numeral 2 hours ++ ':' :: numeral 2 minutes)

/-- What tells the offset continues no fraction. -/
theorem head?_text (z : Zone) : ∀ c ∈ z.text.head?, c.isDigit = false ∧ c ≠ '.' := by
  cases z <;> simp [text]

end Zone

/-- A date and time as it is written. -/
structure Stamp where
  year : Fin 10000
  month : Nat
  day : Nat
  hour : Fin 24
  minute : Fin 60
  second : Fin 60
  fraction : List (Fin 10)
  zone : Zone
  valid_date : (⟨year, month, day⟩ : Date).Valid := by decide
  length_fraction : fraction.length ≤ 9 := by decide

namespace Stamp

variable (w : Stamp)

/-- The decimals of the seconds with their point, if there are any. -/
def decimals : List Char :=
  if w.fraction = [] then [] else '.' :: w.fraction.map fun d ↦ Nat.digitChar d.val

/-- The characters of the stamp. -/
def chars : List Char :=
  numeral 4 w.year ++ '-' :: (numeral 2 w.month ++ '-' :: (numeral 2 w.day ++ w.zone.separator ::
    (numeral 2 w.hour ++ ':' :: (numeral 2 w.minute ++ ':' :: (numeral 2 w.second ++ (w.decimals ++ w.zone.text))))))

def text : String :=
  String.ofList w.chars

/-- The nanoseconds beyond the whole seconds. -/
def nanos : Nat :=
  Nat.ofDigits 10 (w.fraction.reverse.map (·.val)) * 10 ^ (9 - w.fraction.length)

/-- Nanoseconds from the start of 1970 on the clocks that the stamp is written by. -/
def civilNanos : Int :=
  ((Date.counted w.year w.month w.day * 24 + w.hour) * 60 + w.minute) * 60000000000
    + w.second * 1000000000 + w.nanos

/-- Nanoseconds from the start of 1970. -/
def instant : Int :=
  w.civilNanos - w.zone.minutes * 60000000000

/-! ### The time of a stamp -/

/-- The date and time on the clocks that the stamp is written by. -/
def dateTime : DateTime :=
  ⟨⟨w.year, w.month, w.day⟩, ⟨w.hour, w.minute, w.second, w.nanos⟩⟩

theorem month_lt : w.month < 10 ^ 2 := by
  have h : w.month ≤ 12 := w.valid_date.2.1
  omega

theorem day_lt : w.day < 10 ^ 2 := by
  have h : w.day ≤ Date.daysIn w.year w.month := w.valid_date.2.2.2
  have hmonth := Date.daysIn_le w.year w.month
  omega

theorem valid_time : w.dateTime.time.Valid := by
  have hfraction : Nat.ofDigits 10 (w.fraction.reverse.map (·.val)) < 10 ^ w.fraction.length := by
    simpa using Nat.ofDigits_lt_base_pow_length (b := 10) (l := w.fraction.reverse.map (·.val)) (by decide) (by simp)
  have hnanos : w.nanos < 1000000000 := by
    calc w.nanos < 10 ^ w.fraction.length * 10 ^ (9 - w.fraction.length) :=
          Nat.mul_lt_mul_of_pos_right hfraction (Nat.pow_pos (by decide))
      _ = 10 ^ 9 := by rw [← pow_add, Nat.add_sub_cancel' w.length_fraction]
  exact ⟨w.hour.isLt, w.minute.isLt, w.second.isLt.le, hnanos⟩

/-- The days of a stamp are counted from 1970-01-01. -/
theorem toDays_dateTime : w.dateTime.date.toDays = Date.counted w.year w.month w.day :=
  Date.toDays_eq_counted w.year w.valid_date.1 w.valid_date.2.1 w.day

/-- What is left of a millisecond is dropped towards the past. -/
theorem toMillis_dateTime : w.dateTime.toMillis = w.civilNanos / 1000000 := by
  rw [DateTime.toMillis, toDays_dateTime, civilNanos, TimeOfDay.millis]
  simp only [dateTime]
  push_cast
  omega

/-- The milliseconds of a stamp on its clocks are in range. -/
theorem millis?_dateTime : millis? w.dateTime = some (w.civilNanos / 1000000) := by
  have hlow : Date.firstYear ≤ w.dateTime.date.year := by
    simp only [dateTime, Date.firstYear]
    omega
  have hhigh : w.dateTime.date.year ≤ Date.lastYear := by
    simp only [dateTime, Date.lastYear]
    omega
  rw [millis?, if_pos ⟨w.valid_date, w.valid_time, hlow, hhigh⟩, toMillis_dateTime]

/-- What a stamp is read as: the milliseconds on its clocks, less its offset. -/
def millis : Int :=
  w.civilNanos / 1000000 - w.zone.minutes * 60000

/-- The milliseconds of a stamp are far from the ends of the range. -/
theorem millis_bounds : -62168000000000 ≤ w.millis ∧ w.millis ≤ 253403000000000 := by
  have hyear := Date.toDays_bounds (d := w.dateTime.date) w.valid_date
  have hnanos : w.nanos < 1000000000 := w.valid_time.2.2.2
  have hzone := w.zone.minutes_bounds
  rw [Date.toDays_newYear, Date.toDays_newYear, Int.add_sub_cancel, toDays_dateTime] at hyear
  simp only [dateTime, Date.marchDays] at hyear
  simp only [millis, civilNanos]
  omega

/-! ### Reading a stamp -/

/-- Decimals stand for the number of their digits. -/
theorem ofDigitChars_fraction (ds : List (Fin 10)) :
    Nat.ofDigitChars 10 (ds.map fun d ↦ Nat.digitChar d.val) 0 = Nat.ofDigits 10 (ds.reverse.map (·.val)) := by
  induction ds using List.reverseRecOn with
  | nil => rfl
  | append_singleton ds d ih =>
    rw [List.map_append, Nat.ofDigitChars_append, ih, List.map_singleton,
      Nat.ofDigitChars_cons_digitChar_of_lt_ten d.isLt, List.reverse_append, List.reverse_singleton,
      List.singleton_append, List.map_cons, Nat.ofDigits_cons]
    simp only [Nat.ofDigitChars_nil]
    omega

/-- The decimals of a stamp are read as its nanoseconds, up to the offset. -/
theorem optionalFraction?_text :
    optionalFraction? (w.decimals ++ w.zone.text) = some (w.nanos, w.zone.text) := by
  have hzone := w.zone.head?_text
  rw [decimals]
  split
  · rename_i hnone
    have hnanos : w.nanos = 0 := by simp [nanos, hnone]
    rw [hnanos, List.nil_append, optionalFraction?.eq_def]
    split
    · exact absurd rfl (hzone '.' (by simp [*])).2
    · rfl
  · rename_i hsome
    have hdigits : ∀ c ∈ w.fraction.map fun d ↦ Nat.digitChar d.val, c.isDigit = true := by
      intro c hc
      obtain ⟨d, -, rfl⟩ := List.mem_map.1 hc
      simp [Nat.isDigit_digitChar, d.isLt]
    have hread : number? 1 9 _ = some (_, w.zone.text) :=
      number?_append hdigits (by simpa [Nat.one_le_iff_ne_zero] using hsome) (by simpa using w.length_fraction)
        (Or.inr fun c hc ↦ (hzone c hc).1)
    have hrest : w.zone.text.dropWhile Char.isDigit = w.zone.text := by
      cases htext : w.zone.text with
      | nil => rfl
      | cons c cs =>
        rw [htext] at hzone
        exact List.dropWhile_cons_of_neg (by simp [(hzone c rfl).1])
    rw [List.cons_append]
    simp only [optionalFraction?, fraction?, hread]
    simp [hrest, nanos, ofDigitChars_fraction]

theorem offset?_text {z : Zone} (hz : z ≠ .unstated) : offset? z.text = some (z.minutes * 60, []) := by
  have hhours : ∀ (h : Fin 24) (rest : List Char), number? 2 2 (numeral 2 h ++ rest) = some (h.val, rest) :=
    fun h ↦ number?_numeral (le_refl 2) (by omega)
  have hminutes : ∀ m : Fin 60, number? 2 2 (numeral 2 m) = some (m.val, []) := by
    intro m
    rw [← List.append_nil (numeral 2 m), number?_numeral (le_refl 2) (by omega)]
  cases z with
  | unstated => exact absurd rfl hz
  | utc => rfl
  | ahead h m =>
    have hbounds : ¬(60 ≤ m.val ∨ 24 ≤ h.val) := by omega
    simp [Zone.text, offset?, hhours, hminutes, char?, hbounds, Zone.minutes]
    omega
  | behind h m =>
    have hbounds : ¬(60 ≤ m.val ∨ 24 ≤ h.val) := by omega
    simp [Zone.text, offset?, hhours, hminutes, char?, hbounds, Zone.minutes]
    omega

theorem bind_of_eq_some {α β : Type} {x : Option α} {a : α} (h : x = some a) (f : α → Option β) :
    (x >>= f) = f a := by
  rw [h]
  rfl

/-- The form with an offset is read up to the offset. -/
theorem withOffset?_text :
    withOffset? w.chars = (offset? w.zone.text).bind fun (seconds, cs) ↦
      if cs.isEmpty then (millis? w.dateTime).map (· - seconds * 1000) else none := by
  have hseparator : isSeparator w.zone.separator = true := by cases w.zone <;> rfl
  have hchar : ∀ c rest, char? c (c :: rest) = some rest := fun c rest ↦ if_pos rfl
  have hyear := number?_numeral (le_refl 4) (show w.year.val < 10 ^ 4 by omega)
  have hmonth := number?_numeral (le_refl 2) w.month_lt
  have hday := number?_numeral (le_refl 2) w.day_lt
  have hhour := number?_numeral (le_refl 2) (show w.hour.val < 10 ^ 2 by omega)
  have hminute := number?_numeral (le_refl 2) (show w.minute.val < 10 ^ 2 by omega)
  have hsecond := number?_numeral (le_refl 2) (show w.second.val < 10 ^ 2 by omega)
  have hfraction := w.optionalFraction?_text
  -- one part after the other: simp would go through all that follows again for every part
  unfold withOffset? chars
  refine (bind_of_eq_some (hyear _) _).trans ?_
  refine (bind_of_eq_some (hchar _ _) _).trans ?_
  refine (bind_of_eq_some (hmonth _) _).trans ?_
  refine (bind_of_eq_some (hchar _ _) _).trans ?_
  refine (bind_of_eq_some (hday _) _).trans ?_
  refine (if_pos hseparator).trans ?_
  refine (bind_of_eq_some (hhour _) _).trans ?_
  refine (bind_of_eq_some (hchar _ _) _).trans ?_
  refine (bind_of_eq_some (hminute _) _).trans ?_
  refine (bind_of_eq_some (hchar _ _) _).trans ?_
  refine (bind_of_eq_some (hsecond _) _).trans ?_
  refine (bind_of_eq_some hfraction _).trans ?_
  dsimp only
  rcases offset? w.zone.text with - | ⟨seconds, cs⟩
  · rfl
  · change (if cs.isEmpty then millis? w.dateTime >>= fun civil ↦ pure (civil - seconds * 1000) else none) =
      if cs.isEmpty then (millis? w.dateTime).map (· - seconds * 1000) else none
    cases millis? w.dateTime <;> rfl

/-- A stamp with an offset is read as its milliseconds less the offset. -/
theorem withOffset?_eq_some (hzone : w.zone ≠ .unstated) :
    withOffset? w.chars = some (w.civilNanos / 1000000 - w.zone.minutes * 60000) := by
  rw [withOffset?_text, offset?_text hzone, Option.bind_some, millis?_dateTime]
  simp only [List.isEmpty_nil, if_true, Option.map_some, Option.some.injEq]
  omega

/-- A stamp without an offset is read as its milliseconds. -/
theorem plain?_eq_some (hzone : w.zone = .unstated) : plain? w.chars = some (w.civilNanos / 1000000) := by
  have hchar : ∀ c rest, char? c (c :: rest) = some rest := fun c rest ↦ if_pos rfl
  have hyear := year?_numeral (show w.year.val < 10 ^ 4 by omega)
  have hmonth := field?_numeral w.month_lt
  have hday := field?_numeral w.day_lt
  have hhour := field?_numeral (show w.hour.val < 10 ^ 2 by omega)
  have hminute := field?_numeral (show w.minute.val < 10 ^ 2 by omega)
  have hsecond := field?_numeral (show w.second.val < 10 ^ 2 by omega)
  have hspace : ∀ n rest, trimLeft (w.zone.separator :: (numeral 2 n ++ rest)) = numeral 2 n ++ rest := by
    intro n rest
    rw [hzone]
    exact (List.dropWhile_cons_of_pos rfl).trans (trimLeft_numeral 1 n rest)
  have hfraction := w.optionalFraction?_text
  unfold plain? chars
  refine (bind_of_eq_some (hyear _) _).trans ?_
  refine (bind_of_eq_some (hchar _ _) _).trans ?_
  refine (bind_of_eq_some (hmonth _) _).trans ?_
  refine (bind_of_eq_some (hchar _ _) _).trans ?_
  refine (bind_of_eq_some (hday _) _).trans ?_
  refine (bind_of_eq_some ((congrArg field? (hspace _ _)).trans (hhour _)) _).trans ?_
  refine (bind_of_eq_some (hchar _ _) _).trans ?_
  refine (bind_of_eq_some (hminute _) _).trans ?_
  refine (bind_of_eq_some (hchar _ _) _).trans ?_
  refine (bind_of_eq_some (hsecond _) _).trans ?_
  refine (bind_of_eq_some hfraction _).trans ?_
  rw [hzone]
  exact w.millis?_dateTime

/-- A stamp without an offset is none of the form with one. -/
theorem withOffset?_eq_none (hzone : w.zone = .unstated) : withOffset? w.chars = none := by
  rw [withOffset?_text, hzone]
  rfl

theorem read?_text : ∃ t, read? w.text = some t ∧ t.millis = w.millis := by
  have hread : (withOffset? w.chars <|> plain? w.chars) = some w.millis := by
    by_cases hzone : w.zone = .unstated
    · rw [w.withOffset?_eq_none hzone, w.plain?_eq_some hzone, millis, hzone]
      simp [Zone.minutes]
    · rw [w.withOffset?_eq_some hzone]
      rfl
  have hbounds := w.millis_bounds
  refine ⟨⟨w.millis, by omega, by omega⟩, ?_, rfl⟩
  rw [read?, text, String.toList_ofList, hread, Option.bind_eq_bind, Option.bind_some]
  exact dif_pos ⟨by omega, by omega⟩

end Stamp

end Tidemark.Written
