import SnapStore.Calendar
import Mathlib.Order.Monotone.Basic
import Mathlib.Tactic.IntervalCases

namespace SnapStore

/-!
# The days of the calendar are counted without a gap

Days are counted year by year and month by month; the day of a number is found by division, in years that
begin in March.  Both agree: every number from March of the year 0 on is that of exactly one day.

* `daysBeforeYear_add` and `daysBeforeMonth_march` — the days in front of a year and of a month in closed
  form.
* `Date.dayNumber_ofDayNumber` and `Date.isValid_ofDayNumber` — the day of a number has that number, and
  exists.
* `Date.IsValid.year_le_iff` — the days up to a year are those of small numbers.
* `Date.dayNumber_injective` — no two days have the same number.
* `Moment.seconds` counts seconds; `Moment.seconds_ofUnix` and `Moment.seconds_injective` say the same of
  them.
-/

/-! ### Years -/

theorem isLeapYear_iff (year : Nat) :
    isLeapYear year = true ↔ year % 4 = 0 ∧ (year % 100 ≠ 0 ∨ year % 400 = 0) := by
  simp [isLeapYear]

/-- Every fourth year is longer, except that of the full centuries only every fourth one is. -/
theorem isLeapYear_cases (year : Nat) :
    isLeapYear year = true ∧ year % 400 = 0 ∨ isLeapYear year = false ∧ year % 100 = 0 ∧ 0 < year % 400 ∨
      isLeapYear year = true ∧ year % 4 = 0 ∧ 0 < year % 100 ∨ isLeapYear year = false ∧ 0 < year % 4 := by
  simp only [isLeapYear]
  grind

/-- The days in front of a year, in closed form. -/
theorem daysBeforeYear_add (year : Nat) :
    daysBeforeYear year + (year + 99) / 100 = 365 * year + (year + 3) / 4 + (year + 399) / 400 := by
  induction year with
  | zero => rfl
  | succ year ih =>
    rw [daysBeforeYear, daysInYear]
    obtain ⟨hleap, hyear⟩ | ⟨hleap, hyear⟩ | ⟨hleap, hyear⟩ | ⟨hleap, hyear⟩ := isLeapYear_cases year
    all_goals
      simp only [hleap, if_true, Bool.false_eq_true, if_false]
      omega

theorem daysBeforeYear_mono : Monotone daysBeforeYear :=
  monotone_nat_of_le_succ fun year => Nat.le_add_right (daysBeforeYear year) (daysInYear year)

/-! ### Months -/

theorem daysInMonth_le (year month : Nat) : daysInMonth year month ≤ 31 := by
  unfold daysInMonth
  split
  · split <;> decide
  all_goals decide

theorem daysBeforeMonth_succ (year : Nat) {month : Nat} (h : 1 ≤ month) :
    daysBeforeMonth year (month + 1) = daysBeforeMonth year month + daysInMonth year month := by
  obtain ⟨month, rfl⟩ := Nat.exists_eq_add_of_le' h
  rfl

/-- A year ends with its twelfth month. -/
theorem daysBeforeMonth_thirteen (year : Nat) : daysBeforeMonth year 13 = daysInYear year := by
  cases h : isLeapYear year <;> simp [daysBeforeMonth, daysInMonth, daysInYear, h]

theorem daysBeforeMonth_mono (year : Nat) {a b : Nat} (ha : 1 ≤ a) (h : a ≤ b) :
    daysBeforeMonth year a ≤ daysBeforeMonth year b := by
  induction b, h using Nat.le_induction with
  | base => exact Nat.le_refl _
  | succ b hab ih =>
    rw [daysBeforeMonth_succ year (ha.trans hab)]
    exact ih.trans (Nat.le_add_right _ _)

/-- From March on, five months have 153 days. -/
theorem daysBeforeMonth_march (year : Nat) {month : Nat} (h : month < 10) :
    daysBeforeMonth year (month + 3) = daysBeforeMonth year 3 + (month * 153 + 2) / 5 := by
  interval_cases month <;> simp [daysBeforeMonth, daysInMonth]

/-- Behind the end of February, all years are alike. -/
theorem daysInYear_eq (year : Nat) : daysInYear year = daysBeforeMonth year 3 + 306 := by
  cases h : isLeapYear year <;> simp [daysBeforeMonth, daysInMonth, daysInYear, h]

/-- The days in front of March, in closed form: the leap day of the year is among them. -/
theorem daysBeforeMarch_add (year : Nat) :
    daysBeforeYear year + daysBeforeMonth year 3 + year / 100 = 60 + 365 * year + year / 4 + year / 400 := by
  have hyears := daysBeforeYear_add year
  obtain ⟨hleap, hyear⟩ | ⟨hleap, hyear⟩ | ⟨hleap, hyear⟩ | ⟨hleap, hyear⟩ := isLeapYear_cases year
  all_goals
    simp only [daysBeforeMonth, daysInMonth, hleap, if_true, Bool.false_eq_true, if_false]
    omega

/-! ### The day of a number -/

namespace Date

/-- The day that is so many days after the first of March of a year. -/
def afterMarch (year inYear : Nat) : Date :=
  let month := (inYear * 5 + 2) / 153
  let day := inYear - (month * 153 + 2) / 5 + 1
  if month < 10 then ⟨year, month + 3, day⟩ else ⟨year + 1, month - 9, day⟩

/-- A year that begins in March has 365 days, and one more if it ends with a leap day. -/
def EndsBefore (year inYear : Nat) : Prop := inYear < 365 ∨ inYear = 365 ∧ isLeapYear (year + 1) = true

variable {year inYear : Nat}

theorem dayNumber_afterMarch (h : EndsBefore year inYear) :
    (afterMarch year inYear).dayNumber = daysBeforeYear year + daysBeforeMonth year 3 + inYear := by
  have hbound : inYear ≤ 365 := by rcases h with h | ⟨h, -⟩ <;> omega
  simp only [afterMarch]
  split
  · rename_i hmonth
    simp only [dayNumber, daysBeforeMonth_march year hmonth]
    omega
  · -- January and February are those of the next year
    have hnext : daysBeforeYear (year + 1) = daysBeforeYear year + (daysBeforeMonth year 3 + 306) := by
      rw [daysBeforeYear, daysInYear_eq]
    have hmonth : (inYear * 5 + 2) / 153 = 10 ∨ (inYear * 5 + 2) / 153 = 11 := by omega
    rcases hmonth with hmonth | hmonth <;>
      simp [hmonth, dayNumber, hnext, daysBeforeMonth, daysInMonth] <;> omega

theorem isValid_afterMarch (h : EndsBefore year inYear) : (afterMarch year inYear).IsValid := by
  have hbound : inYear ≤ 365 := by rcases h with h | ⟨h, -⟩ <;> omega
  simp only [afterMarch]
  split
  · rename_i hlow
    generalize hmonth : (inYear * 5 + 2) / 153 = month at hlow
    refine ⟨by simp, by simp only; omega, by simp, ?_⟩
    simp only
    -- the lengths of the months have no closed form
    interval_cases month <;> simp [daysInMonth] <;> omega
  · have hmonth : (inYear * 5 + 2) / 153 = 10 ∨ (inYear * 5 + 2) / 153 = 11 := by omega
    rcases hmonth with hmonth | hmonth <;> rw [hmonth]
    · refine ⟨by simp, by simp, by simp, ?_⟩
      simp only [daysInMonth]
      omega
    · refine ⟨by simp, by simp, by simp, ?_⟩
      rcases h with h | ⟨h, hleap⟩
      · simp only [daysInMonth]
        split <;> omega
      · simp [daysInMonth, hleap, h]

/-- Division finds the four centuries, the century, the four years and the year, and how many days of it are
over.  Only the last year of four can be longer than the others, and not if it ends a century that is none
of the fourth. -/
theorem exists_ofDayNumber_eq (n : Nat) : ∃ era century quad yearOfQuad inYear,
    ofDayNumber (n + marchOfYearZero) =
      afterMarch (era * 400 + century * 100 + quad * 4 + yearOfQuad) inYear ∧
    n = 146097 * era + 36524 * century + 1461 * quad + 365 * yearOfQuad + inYear ∧
    century ≤ 3 ∧ quad ≤ 24 ∧ yearOfQuad ≤ 3 ∧ inYear ≤ 365 ∧
    (inYear = 365 → yearOfQuad = 3 ∧ (quad < 24 ∨ century = 3)) := by
  refine ⟨_, _, _, _, _, rfl, ?_⟩
  rw [Nat.add_sub_cancel]
  have hera : n = 146097 * (n / 146097) + n % 146097 := (Nat.div_add_mod n 146097).symm
  have hinEra : n % 146097 < 146097 := Nat.mod_lt n (by decide)
  generalize n / 146097 = era, n % 146097 = inEra at *
  -- four centuries have a day more than four times one: the last century takes it
  generalize hcentury : min (inEra / 36524) 3 = century
  generalize hinCentury : inEra - century * 36524 = inCentury
  have hcenturies : century ≤ 3 ∧ inEra = 36524 * century + inCentury ∧ inCentury ≤ 36524 ∧
      (inCentury = 36524 → century = 3) := by omega
  clear hcentury hinCentury
  -- only in the last century do the last four years have a leap day
  generalize hquad : inCentury / 1461 = quad
  generalize hinQuad : inCentury - quad * 1461 = inQuad
  have hquads : quad ≤ 24 ∧ inCentury = 1461 * quad + inQuad ∧ inQuad ≤ 1460 ∧
      (inQuad = 1460 → quad < 24 ∨ century = 3) := by omega
  clear hquad hinQuad
  omega

/-- The day of a number is counted from the March of a year that is long enough. -/
theorem exists_afterMarch (n : Nat) : ∃ year inYear,
    ofDayNumber (n + marchOfYearZero) = afterMarch year inYear ∧
    365 * year + year / 4 + year / 400 + inYear = n + year / 100 ∧ EndsBefore year inYear := by
  obtain ⟨era, century, quad, yearOfQuad, inYear, h, hn, hcentury, hquad, hyear, hinYear, hlong⟩ :=
    exists_ofDayNumber_eq n
  generalize hparts : era * 400 + century * 100 + quad * 4 + yearOfQuad = year at h
  have hquads : year / 4 = era * 100 + century * 25 + quad := by omega
  have hcenturies : year / 100 = era * 4 + century := by omega
  have heras : year / 400 = era := by omega
  refine ⟨year, inYear, h, by omega, ?_⟩
  -- a year that has one more day ends with the leap day
  by_cases hshort : inYear < 365
  · exact .inl hshort
  · have hends := hlong (by omega)
    refine .inr ⟨by omega, (isLeapYear_iff _).mpr ?_⟩
    omega

/-- **The day of a number has that number.** -/
theorem dayNumber_ofDayNumber {n : Nat} (h : marchOfYearZero ≤ n) : (ofDayNumber n).dayNumber = n := by
  obtain ⟨n, rfl⟩ := Nat.exists_eq_add_of_le' h
  obtain ⟨year, inYear, hday, hn, hends⟩ := exists_afterMarch n
  have hmarch := daysBeforeMarch_add year
  rw [hday, dayNumber_afterMarch hends, marchOfYearZero]
  omega

/-- There is a day of every number from March of the year 0 on. -/
theorem isValid_ofDayNumber {n : Nat} (h : marchOfYearZero ≤ n) : (ofDayNumber n).IsValid := by
  obtain ⟨n, rfl⟩ := Nat.exists_eq_add_of_le' h
  obtain ⟨year, inYear, hday, -, hends⟩ := exists_afterMarch n
  rw [hday]
  exact isValid_afterMarch hends

/-! ### The number of a day -/

variable {d d' : Date}

/-- A day is in its month, -/
theorem IsValid.dayNumber_lt_month (h : d.IsValid) :
    d.dayNumber < daysBeforeYear d.year + daysBeforeMonth d.year (d.month + 1) := by
  obtain ⟨hmonth, -, hday, hlast⟩ := h
  rw [daysBeforeMonth_succ d.year hmonth, dayNumber]
  omega

/-- and in its year. -/
theorem IsValid.dayNumber_lt_year (h : d.IsValid) : d.dayNumber < daysBeforeYear (d.year + 1) := by
  have hmonths : daysBeforeMonth d.year (d.month + 1) ≤ daysBeforeMonth d.year 13 :=
    daysBeforeMonth_mono d.year (by omega) (Nat.succ_le_succ h.2.1)
  rw [daysBeforeMonth_thirteen] at hmonths
  have := h.dayNumber_lt_month
  rw [daysBeforeYear]
  omega

/-- The days up to a year are those of small numbers. -/
theorem IsValid.year_le_iff (h : d.IsValid) (year : Nat) :
    d.year ≤ year ↔ d.dayNumber < daysBeforeYear (year + 1) := by
  constructor
  · intro hyear
    exact h.dayNumber_lt_year.trans_le (daysBeforeYear_mono (Nat.succ_le_succ hyear))
  · intro hnumber
    by_contra hyear
    have hbefore : daysBeforeYear (year + 1) ≤ daysBeforeYear d.year := daysBeforeYear_mono (by omega)
    rw [dayNumber] at hnumber
    omega

/-- In a year, the days up to a month are those of small numbers. -/
theorem IsValid.month_le_of_dayNumber_le (h' : d'.IsValid) (hyear : d.year = d'.year)
    (h : d.dayNumber ≤ d'.dayNumber) : d.month ≤ d'.month := by
  by_contra hmonth
  have hbefore : daysBeforeMonth d.year (d'.month + 1) ≤ daysBeforeMonth d.year d.month :=
    daysBeforeMonth_mono d.year (by omega) (by omega)
  have := h'.dayNumber_lt_month
  rw [dayNumber, hyear] at h
  rw [hyear] at hbefore
  omega

/-- **No two days have the same number.** -/
theorem dayNumber_injective (h : d.IsValid) (h' : d'.IsValid) (heq : d.dayNumber = d'.dayNumber) :
    d = d' := by
  have hyear : d.year = d'.year := by
    apply Nat.le_antisymm
    · rw [h.year_le_iff, heq]
      exact h'.dayNumber_lt_year
    · rw [h'.year_le_iff, ← heq]
      exact h.dayNumber_lt_year
  have hmonth : d.month = d'.month := Nat.le_antisymm
    (h'.month_le_of_dayNumber_le hyear heq.le) (h.month_le_of_dayNumber_le hyear.symm heq.ge)
  have hday : d.day = d'.day := by
    have := h.2.2.1
    have := h'.2.2.1
    rw [dayNumber, dayNumber, hyear, hmonth] at heq
    omega
  obtain ⟨year, month, day⟩ := d
  simp only at hyear hmonth hday
  rw [hyear, hmonth, hday]

end Date

/-! ### Seconds -/

namespace Moment

/-- The number of seconds from the start of the year 0 to a moment. -/
def seconds (m : Moment) : Nat := m.date.dayNumber * 86400 + m.hour * 3600 + m.minute * 60 + m.second

/-- The start of 1970. -/
def epoch : Moment := ⟨⟨1970, 1, 1⟩, 0, 0, 0⟩

theorem dayNumber_epoch : epoch.date.dayNumber = epochDay := by
  have h := daysBeforeYear_add 1970
  simp only [epoch, Date.dayNumber, daysBeforeMonth, epochDay]
  omega

theorem seconds_epoch : epoch.seconds = epochDay * 86400 := by
  rw [seconds, dayNumber_epoch]
  rfl

theorem dayNumber_ofUnix (t : Nat) : (ofUnix t).date.dayNumber = t / 86400 + epochDay :=
  Date.dayNumber_ofDayNumber ((show Date.marchOfYearZero ≤ epochDay by decide).trans (Nat.le_add_left _ _))

/-- The moment of a number of seconds exists, -/
theorem isValid_ofUnix (t : Nat) : (ofUnix t).IsValid := by
  refine ⟨Date.isValid_ofDayNumber ?_, ?_, ?_, ?_⟩
  · exact (show Date.marchOfYearZero ≤ epochDay by decide).trans (Nat.le_add_left _ _)
  all_goals simp only [ofUnix]; omega

/-- and is so many seconds after the start of 1970. -/
theorem seconds_ofUnix (t : Nat) : (ofUnix t).seconds = epoch.seconds + t := by
  rw [seconds, dayNumber_ofUnix, seconds_epoch]
  simp only [ofUnix]
  omega

/-- The last second of a leap day. -/
example : ofUnix 951868799 = ⟨⟨2000, 2, 29⟩, 23, 59, 59⟩ := by decide

variable {m m' : Moment}

/-- **No two moments are the same number of seconds away.** -/
theorem seconds_injective (h : m.IsValid) (h' : m'.IsValid) (heq : m.seconds = m'.seconds) : m = m' := by
  obtain ⟨hdate, hhour, hminute, hsecond⟩ := h
  obtain ⟨hdate', hhour', hminute', hsecond'⟩ := h'
  rw [seconds, seconds] at heq
  have hday : m.date = m'.date := Date.dayNumber_injective hdate hdate' (by omega)
  obtain ⟨date, hour, minute, second⟩ := m
  obtain ⟨date', hour', minute', second'⟩ := m'
  simp only at *
  subst hday
  obtain ⟨rfl, rfl, rfl⟩ : hour = hour' ∧ minute = minute' ∧ second = second' := by omega
  rfl

/-- A moment from 1970 on is the one of its number of seconds. -/
theorem IsValid.seconds_eq_iff (h : m.IsValid) (t : Nat) : m.seconds = epoch.seconds + t ↔ m = ofUnix t := by
  constructor
  · intro ht
    exact seconds_injective h (isValid_ofUnix t) (ht.trans (seconds_ofUnix t).symm)
  · rintro rfl
    exact seconds_ofUnix t

theorem daysBeforeYear_lastYear : daysBeforeYear (lastYear + 1) = 95026237 + epochDay := by
  have hlast : lastYear = 262142 := rfl
  have h := daysBeforeYear_add (lastYear + 1)
  rw [epochDay]
  omega

/-- A moment can be written up to the last second of the last year. -/
theorem year_ofUnix_le_lastYear_iff (t : Nat) : (ofUnix t).date.year ≤ lastYear ↔ t < 95026237 * 86400 := by
  rw [(isValid_ofUnix t).1.year_le_iff, dayNumber_ofUnix, daysBeforeYear_lastYear]
  omega

/-- What can be written is the moment of the number, unless it is too late. -/
theorem ofUnix?_eq_some_iff {t : Nat} :
    ofUnix? t = some m ↔ m = ofUnix t ∧ m.date.year ≤ lastYear := by
  simp only [ofUnix?]
  split
  case isTrue hyear =>
    rw [Option.some.injEq]
    constructor
    · rintro rfl
      exact ⟨rfl, hyear⟩
    · exact fun hm => hm.1.symm
  case isFalse hyear =>
    refine iff_of_false (by simp) ?_
    rintro ⟨rfl, hlast⟩
    exact hyear hlast

end Moment

end SnapStore
