namespace SnapStore

/-!
# The calendar

Points in time are counted in seconds since the start of 1970 and written in the Gregorian calendar,
which is applied to all years alike.

* `Date` is a day of the calendar, `Date.IsValid` says which ones there are, and `Date.dayNumber` counts
  them one by one from the start of the year 0.
* `Date.ofDayNumber` is the day of a number, by division.
* `Moment` is a second of a day, `Moment.ofUnix` the one that is so many seconds after the start of 1970.
* `Moment.rfc3339` is the form of RFC 3339, with a plus sign in front of years of more than four digits.
-/

/-! ### Years and months -/

/-- Whether a year has a 29th of February. -/
def isLeapYear (year : Nat) : Bool := year % 4 = 0 && (year % 100 ≠ 0 || year % 400 = 0)

/-- The number of days of a year. -/
def daysInYear (year : Nat) : Nat := if isLeapYear year then 366 else 365

/-- The number of days of a month; months are counted from one. -/
def daysInMonth (year month : Nat) : Nat :=
  match month with
  | 2 => if isLeapYear year then 29 else 28
  | 4 | 6 | 9 | 11 => 30
  | _ => 31

/-- The number of days from the start of the year 0 to the start of a year. -/
def daysBeforeYear : Nat → Nat
  | 0 => 0
  | year + 1 => daysBeforeYear year + daysInYear year

/-- The number of days of a year in front of a month. -/
def daysBeforeMonth (year : Nat) : Nat → Nat
  | 0 => 0
  | 1 => 0
  | month + 1 => daysBeforeMonth year month + daysInMonth year month

/-! ### Dates -/

/-- A day of the calendar.  Months and days are counted from one. -/
structure Date where
  year : Nat
  month : Nat
  day : Nat
  deriving DecidableEq, Repr

namespace Date

/-- Whether there is such a day. -/
def IsValid (d : Date) : Prop :=
  1 ≤ d.month ∧ d.month ≤ 12 ∧ 1 ≤ d.day ∧ d.day ≤ daysInMonth d.year d.month

/-- The number of days from the start of the year 0 to a day. -/
def dayNumber (d : Date) : Nat := daysBeforeYear d.year + daysBeforeMonth d.year d.month + (d.day - 1)

/-- The number of days before the first of March of the year 0. -/
def marchOfYearZero : Nat := 60

/-- The day of a number, which must not be before March of the year 0.

Years are counted from March on, so that the leap day is the last day of a year, and the long period
the last one of a longer one: four centuries have 146097 days, a century has 36524, four years have
1461, and the fourth century and the fourth year take what is left.  Months from March on have 153 days
in five. -/
def ofDayNumber (n : Nat) : Date :=
  let n := n - marchOfYearZero
  let inEra := n % 146097
  let century := min (inEra / 36524) 3
  let inCentury := inEra - century * 36524
  let quad := inCentury / 1461
  let inQuad := inCentury - quad * 1461
  let yearOfQuad := min (inQuad / 365) 3
  let inYear := inQuad - yearOfQuad * 365
  let year := n / 146097 * 400 + century * 100 + quad * 4 + yearOfQuad
  let month := (inYear * 5 + 2) / 153
  let day := inYear - (month * 153 + 2) / 5 + 1
  if month < 10 then ⟨year, month + 3, day⟩ else ⟨year + 1, month - 9, day⟩

end Date

/-! ### Moments -/

/-- A second of a day. -/
structure Moment where
  date : Date
  hour : Nat
  minute : Nat
  second : Nat
  deriving DecidableEq, Repr

namespace Moment

/-- Whether there is such a moment. -/
def IsValid (m : Moment) : Prop := m.date.IsValid ∧ m.hour < 24 ∧ m.minute < 60 ∧ m.second < 60

/-- The number of the first day of 1970. -/
def epochDay : Nat := 719528

/-- The moment that is so many seconds after the start of 1970. -/
def ofUnix (t : Nat) : Moment where
  date := .ofDayNumber (t / 86400 + epochDay)
  hour := t % 86400 / 3600
  minute := t % 3600 / 60
  second := t % 60

/-- The last year that can be written. -/
def lastYear : Nat := 262142

/-- The moment that is so many seconds after the start of 1970, if it can be written. -/
def ofUnix? (t : Nat) : Option Moment :=
  let m := ofUnix t
  if m.date.year ≤ lastYear then some m else none

/-- A number with at least the given number of digits. -/
def padded (width n : Nat) : String :=
  let digits := toString n
  String.ofList (List.replicate (width - digits.length) '0') ++ digits

/-- The form of RFC 3339, in coordinated universal time. -/
def rfc3339 (m : Moment) : String :=
  let year := if m.date.year ≤ 9999 then padded 4 m.date.year else "+" ++ toString m.date.year
  year ++ "-" ++ padded 2 m.date.month ++ "-" ++ padded 2 m.date.day ++ "T" ++ padded 2 m.hour ++ ":" ++
    padded 2 m.minute ++ ":" ++ padded 2 m.second ++ "+00:00"

end Moment

end SnapStore
