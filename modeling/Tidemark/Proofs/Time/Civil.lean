import Mathlib.Algebra.BigOperators.Group.List.Basic
import Mathlib.Tactic.IntervalCases
import Tidemark.Time.Calendar

/-!
# Counting days

The days of a calendar are counted one month after the other (`daysBeforeYear`, `daysBeforeMonth`). What the
dates of the calendar are converted by agrees with that count, in both directions:

```
          toDays      counts the days from 1970-01-01            (toDays_eq_counted)
  Date  ──────────▶  Int
        ◀──────────
          ofDays      gives an existing date with that count     (valid_ofDays, toDays_ofDays)
```

Both rest on the years that start with March: such a year ends with the day that leap years insert, so the
days before it have a closed form (`marchDays`) and its months have lengths of their own, whatever the year.
-/

namespace Tidemark.Date

/-! ### The count -/

/-- The number of days of a year. -/
def daysInYear (year : Int) : Nat :=
  ((List.range' 1 12).map (daysIn year)).sum

/-- Days from the start of the year 0 to the start of a year. -/
def daysBeforeYear (year : Nat) : Nat :=
  ((List.range year).map fun y ↦ daysInYear y).sum

/-- Days from the start of a year to the start of a month. -/
def daysBeforeMonth (year : Int) (month : Nat) : Nat :=
  ((List.range' 1 (month - 1)).map (daysIn year)).sum

/-- Days from the start of 1970 to a date. -/
def counted (year month day : Nat) : Int :=
  daysBeforeYear year + daysBeforeMonth year month + (day - 1) - daysBeforeYear 1970

/-! ### Years from March -/

/-- Days from the first of March of the year 0 to that of another year. -/
def marchDays (year : Int) : Int :=
  365 * year + year / 4 - year / 100 + year / 400

theorem daysIn_le (year : Int) (month : Nat) : daysIn year month ≤ 31 := by
  simp only [daysIn]
  split_ifs <;> decide

theorem daysIn_february (year : Int) : 28 ≤ daysIn year 2 ∧ daysIn year 2 ≤ 29 := by
  simp only [daysIn, if_true]
  split <;> decide

/-- A year from March has 337 days and a February. -/
theorem marchDays_succ (year : Int) : marchDays (year + 1) = marchDays year + 337 + daysIn (year + 1) 2 := by
  simp only [marchDays, daysIn, isLeap, if_true, Bool.and_eq_true, Bool.or_eq_true, decide_eq_true_eq]
  split <;> omega

theorem toDays_eq (year : Int) (month day : Nat) :
    toDays ⟨year, month, day⟩ =
      marchDays (if month ≤ 2 then year - 1 else year)
        + (153 * ((month + 9) % 12 : Nat) + 2) / 5 + day - 719469 := by
  simp only [toDays, marchDays]
  rw [Int.fdiv_eq_ediv_of_nonneg _ (by decide)]
  generalize (if month ≤ 2 then year - 1 else year) = y
  push_cast
  omega

/-! ### From dates to days -/

theorem toDays_day (year : Int) (month day : Nat) :
    toDays ⟨year, month, day⟩ = toDays ⟨year, month, 1⟩ + (day - 1) := by
  rw [toDays_eq, toDays_eq]
  push_cast
  omega

/-- The first of a month comes after the last of the month before. -/
theorem toDays_nextMonth (year : Int) {month : Nat} (h : 1 ≤ month) (h' : month ≤ 11) :
    toDays ⟨year, month + 1, 1⟩ = toDays ⟨year, month, 1⟩ + daysIn year month := by
  by_cases hfeb : month = 2
  · have hyear := marchDays_succ (year - 1)
    rw [Int.sub_add_cancel] at hyear
    subst hfeb
    rw [toDays_eq, toDays_eq, if_neg (by decide), if_pos (by decide), hyear]
    norm_num
    omega
  · rw [toDays_eq, toDays_eq]
    interval_cases month <;> simp_all [daysIn] <;> omega

/-- A year begins after the last day of December. -/
theorem toDays_nextYear (year : Int) : toDays ⟨year + 1, 1, 1⟩ = toDays ⟨year, 12, 1⟩ + daysIn year 12 := by
  rw [toDays_eq, toDays_eq, if_pos (by decide), if_neg (by decide), Int.add_sub_cancel]
  simp [daysIn]
  omega

/-- The days before a month are those before the last one and its own. -/
theorem daysBeforeMonth_succ (year : Int) {month : Nat} (h : 1 ≤ month) :
    daysBeforeMonth year (month + 1) = daysBeforeMonth year month + daysIn year month := by
  obtain ⟨m, rfl⟩ := Nat.exists_eq_add_of_le' h
  simp [daysBeforeMonth, List.range'_concat, Nat.add_comm]

/-- The first of a month comes as many days after the first of January as the months before it have. -/
theorem toDays_month (year : Int) {month : Nat} (h : 1 ≤ month) (h' : month ≤ 12) :
    toDays ⟨year, month, 1⟩ = toDays ⟨year, 1, 1⟩ + daysBeforeMonth year month := by
  induction month, h using Nat.le_induction with
  | base => simp [daysBeforeMonth]
  | succ month hmonth ih =>
    rw [toDays_nextMonth year hmonth (by omega), ih (by omega), daysBeforeMonth_succ year hmonth]
    omega

theorem toDays_year (year : Nat) : toDays ⟨year, 1, 1⟩ = toDays ⟨0, 1, 1⟩ + daysBeforeYear year := by
  induction year with
  | zero => simp [daysBeforeYear]
  | succ year ih =>
    have hmonths : daysInYear year = daysBeforeMonth year 12 + daysIn year 12 :=
      daysBeforeMonth_succ year (by decide)
    have hcount : daysBeforeYear (year + 1) = daysBeforeYear year + daysInYear year := by
      simp [daysBeforeYear, List.range_succ]
    rw [Int.natCast_add, Nat.cast_one, toDays_nextYear, toDays_month year (by decide) (by decide), ih, hcount, hmonths]
    omega

/-- The days of a date are counted from 1970-01-01. -/
theorem toDays_eq_counted (year : Nat) {month : Nat} (h : 1 ≤ month) (h' : month ≤ 12) (day : Nat) :
    toDays ⟨year, month, day⟩ = counted year month day := by
  have hepoch : toDays ⟨0, 1, 1⟩ + daysBeforeYear 1970 = 0 := (toDays_year 1970).symm
  rw [toDays_day, toDays_month year h h', toDays_year, counted]
  omega

/-! ### From days to dates -/

/-- The year from March that a day of four hundred years is in, both counted from zero. -/
def yearOfEra (day : Int) : Int :=
  (day - day / 1460 + day / 36524 - day / 146096) / 365

/-- The date of a day of a year from March. -/
def ofMarch (year day : Int) : Date :=
  let fromMarch := (5 * day + 2) / 153
  let month := if fromMarch < 10 then fromMarch + 3 else fromMarch - 9
  ⟨year + (if month ≤ 2 then 1 else 0), month.toNat, (day - (153 * fromMarch + 2) / 5 + 1).toNat⟩

/-- Where a day of four hundred years lies: in the `q`-th four years of the `c`-th century, `s` days from their start.
A century ends without the day that leap years insert, but for the last one. -/
structure LiesIn (day c q s : Int) : Prop where
  day_eq : day = 36524 * c + 1461 * q + s
  century : 0 ≤ c ∧ c ≤ 3
  fours : 0 ≤ q ∧ q ≤ 24
  rest : 0 ≤ s ∧ s ≤ 1460
  last : q = 24 → s = 1460 → c = 3

/-- Every day of four hundred years lies somewhere. -/
theorem exists_liesIn {day : Int} (h : 0 ≤ day) (h' : day < 146097) : ∃ c q s, LiesIn day c q s := by
  by_cases hlast : day = 146096
  · exact ⟨3, 24, 1460, by omega, by decide, by decide, by decide, by decide⟩
  · exact ⟨day / 36524, day % 36524 / 1461, day % 36524 % 1461, by omega, by omega, by omega, by omega, by omega⟩

section LiesIn

variable {day c q s : Int}

/-- The year of a day is told by where it lies. -/
theorem LiesIn.yearOfEra_eq (h : LiesIn day c q s) : yearOfEra day = 100 * c + 4 * q + min 3 (s / 365) := by
  obtain ⟨rfl, hc, hq, hs, hlast⟩ := h
  have hfours : (36524 * c + 1461 * q + s) / 1460 = 25 * c + q + (24 * c + q + s) / 1460 := by omega
  have hcentury : (36524 * c + 1461 * q + s) / 36524 = c + if q = 24 ∧ s = 1460 then 1 else 0 := by
    split <;> omega
  have hera : (36524 * c + 1461 * q + s) / 146096 = if q = 24 ∧ s = 1460 then 1 else 0 := by
    split <;> omega
  rw [yearOfEra, hfours, hcentury, hera]
  generalize (if q = 24 ∧ s = 1460 then (1 : Int) else 0) = last
  have hyears : 36524 * c + 1461 * q + s - (25 * c + q + (24 * c + q + s) / 1460) + (c + last) - last =
      365 * (100 * c + 4 * q) + (s - (24 * c + q + s) / 1460) := by omega
  rw [hyears]
  omega

theorem LiesIn.marchDays_yearOfEra (h : LiesIn day c q s) :
    marchDays (yearOfEra day) = 36524 * c + 1461 * q + 365 * min 3 (s / 365) := by
  rw [h.yearOfEra_eq]
  obtain ⟨-, hc, hq, hs, -⟩ := h
  generalize hk : min 3 (s / 365) = k
  have hfours : (100 * c + 4 * q + k) / 4 = 25 * c + q := by omega
  have hcentury : (100 * c + 4 * q + k) / 100 = c := by omega
  have hera : (100 * c + 4 * q + k) / 400 = 0 := by omega
  rw [marchDays, hfours, hcentury, hera]
  omega

/-- Only the last of four years has a day that its February has to add. -/
theorem LiesIn.daysIn_eq (h : LiesIn day c q s) (hs : s = 1460) : daysIn (yearOfEra day + 1) 2 = 29 := by
  rw [h.yearOfEra_eq, daysIn, if_pos rfl, if_pos]
  obtain ⟨-, hc, hq, -, hlast⟩ := h
  simp only [isLeap, Bool.and_eq_true, Bool.or_eq_true, decide_eq_true_eq]
  omega

end LiesIn

/-- A day of four hundred years lies in its year from March. -/
theorem yearOfEra_bounds {day : Int} (h : 0 ≤ day) (h' : day < 146097) :
    0 ≤ yearOfEra day ∧ yearOfEra day < 400 ∧
      marchDays (yearOfEra day) ≤ day ∧ day < marchDays (yearOfEra day + 1) := by
  obtain ⟨c, q, s, hday⟩ := exists_liesIn h h'
  have hyear := hday.yearOfEra_eq
  have hfirst := hday.marchDays_yearOfEra
  have hleap := hday.daysIn_eq
  have hfeb := daysIn_february (yearOfEra day + 1)
  obtain ⟨hday, hc, hq, hs, -⟩ := hday
  rw [marchDays_succ, hfirst]
  omega

/-- Every day has its date in the year from March that it lies in. -/
theorem ofDays_eq (days : Int) :
    ∃ year, marchDays year ≤ days + 719468 ∧ days + 719468 < marchDays (year + 1) ∧
      ofDays days = ofMarch year (days + 719468 - marchDays year) := by
  let era := (days + 719468) / 146097
  let day := days + 719468 - era * 146097
  obtain ⟨hlow, hhigh, hfirst, hlast⟩ := yearOfEra_bounds (show 0 ≤ day by omega) (show day < 146097 by omega)
  have hera : ∀ year, marchDays (year + era * 400) = marchDays year + era * 146097 := by
    intro year
    simp only [marchDays]
    omega
  have hday : days + 719468 - marchDays (yearOfEra day + era * 400)
      = day - (365 * yearOfEra day + yearOfEra day / 4 - yearOfEra day / 100) := by
    rw [hera]
    simp only [marchDays]
    omega
  refine ⟨yearOfEra day + era * 400, ?_, ?_, ?_⟩
  · rw [hera]
    omega
  · rw [Int.add_right_comm, hera]
    omega
  · rw [hday, ofDays, Int.fdiv_eq_ediv_of_nonneg _ (by decide)]
    rfl

section OfMarch

variable {year day : Int}

/-- The date of a day of a year from March is converted to that day. -/
theorem toDays_ofMarch (h : 0 ≤ day) (h' : day ≤ 365) :
    toDays (ofMarch year day) = marchDays year + day - 719468 := by
  rw [ofMarch]
  obtain ⟨k, hk⟩ : ∃ k, (5 * day + 2) / 153 = k := ⟨_, rfl⟩
  have hlow : 0 ≤ k := by omega
  have hhigh : k ≤ 11 := by omega
  rw [toDays_eq]
  simp only [hk]
  -- a case for each month, counted from March
  interval_cases k
  all_goals
    norm_num
    omega

/-- The date of a day of a year from March exists. -/
theorem valid_ofMarch (h : 0 ≤ day) (h' : day < 337 + daysIn (year + 1) 2) : (ofMarch year day).Valid := by
  have hfeb := daysIn_february (year + 1)
  rw [ofMarch, Valid]
  obtain ⟨k, hk⟩ : ∃ k, (5 * day + 2) / 153 = k := ⟨_, rfl⟩
  have hlow : 0 ≤ k := by omega
  have hhigh : k ≤ 11 := by omega
  simp only [hk]
  interval_cases k <;> simp_all [daysIn] <;> omega

end OfMarch

/-- The date of a day exists. -/
theorem valid_ofDays (days : Int) : (ofDays days).Valid := by
  obtain ⟨year, hfirst, hlast, hdate⟩ := ofDays_eq days
  rw [marchDays_succ] at hlast
  rw [hdate]
  exact valid_ofMarch (by omega) (by omega)

/-- The date of a day is converted to that day. -/
theorem toDays_ofDays (days : Int) : (ofDays days).toDays = days := by
  obtain ⟨year, hfirst, hlast, hdate⟩ := ofDays_eq days
  have hlength : marchDays (year + 1) ≤ marchDays year + 366 := by
    simp only [marchDays]
    omega
  rw [hdate, toDays_ofMarch (by omega) (by omega)]
  omega

/-! ### The year of a day -/

/-- A year begins ten months into a year from March. -/
theorem toDays_newYear (year : Int) : toDays ⟨year, 1, 1⟩ = marchDays (year - 1) - 719162 := by
  rw [toDays_eq, if_pos (by decide)]
  norm_num
  omega

/-- The days of a year lie between the start of that year and the start of the next one. -/
theorem toDays_bounds {d : Date} (hd : d.Valid) :
    toDays ⟨d.year, 1, 1⟩ ≤ d.toDays ∧ d.toDays < toDays ⟨d.year + 1, 1, 1⟩ := by
  obtain ⟨year, month, day⟩ := d
  obtain ⟨hmonth, hmonth', hday, hday'⟩ := hd
  have hyear := marchDays_succ (year - 1)
  rw [Int.sub_add_cancel] at hyear
  have hfeb := daysIn_february year
  rw [toDays_newYear, toDays_newYear, toDays_eq, Int.add_sub_cancel, hyear]
  simp only at hmonth hmonth' hday hday'
  interval_cases month <;> simp_all [daysIn] <;> omega

/-- A day before the start of a year has a date before that year. -/
theorem year_lt {d : Date} (hd : d.Valid) {year : Int} (h : d.toDays < toDays ⟨year, 1, 1⟩) : d.year < year := by
  have hstart := (toDays_bounds hd).1
  rw [toDays_newYear] at h hstart
  simp only [marchDays] at h hstart
  omega

/-- A day from the start of a year on has a date from that year on. -/
theorem le_year {d : Date} (hd : d.Valid) {year : Int} (h : toDays ⟨year, 1, 1⟩ ≤ d.toDays) :
    year ≤ d.year := by
  have hend := (toDays_bounds hd).2
  rw [toDays_newYear] at h hend
  simp only [marchDays] at h hend
  omega

end Tidemark.Date
