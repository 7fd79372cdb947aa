/-!
# The calendar

Days are counted from 1970-01-01 in the proleptic Gregorian calendar.  A year is taken to begin in
March, so that the leap day is its last day and every month starts at a fixed linear place.

* `dayOfCivil` : the day number of a civil date;
* `civilOfDay` : the civil date of a day number;
* `weekStart` : the Monday of the first week of an ISO year.
-/

namespace LiveChart

/-- A year, a month from 1 to 12 and a day of the month from 1. -/
structure Civil where
  year : Int
  month : Int
  day : Int
  deriving DecidableEq, Repr

namespace Calendar

/-- The days of 400 years. -/
def daysPerCycle : Int := 146097

/-- The days from 0000-03-01 to 1970-01-01. -/
def epochShift : Int := 719468

/-- The day number of a civil date. -/
def dayOfCivil (c : Civil) : Int :=
  let y := if c.month ≤ 2 then c.year - 1 else c.year
  let cycle := y / 400
  let yearOfCycle := y % 400
  let month := (c.month + 9) % 12
  let dayOfYear := (153 * month + 2) / 5 + c.day - 1
  let dayOfCycle := yearOfCycle * 365 + yearOfCycle / 4 - yearOfCycle / 100 + dayOfYear
  cycle * daysPerCycle + dayOfCycle - epochShift

/-- The civil date of a day number. -/
def civilOfDay (n : Int) : Civil :=
  let z := n + epochShift
  let cycle := z / daysPerCycle
  let dayOfCycle := z % daysPerCycle
  let yearOfCycle :=
    (dayOfCycle - dayOfCycle / 1460 + dayOfCycle / 36524 - dayOfCycle / 146096) / 365
  let dayOfYear := dayOfCycle - (365 * yearOfCycle + yearOfCycle / 4 - yearOfCycle / 100)
  let month := (5 * dayOfYear + 2) / 153
  let day := dayOfYear - (153 * month + 2) / 5 + 1
  let m := if month < 10 then month + 3 else month - 9
  ⟨yearOfCycle + cycle * 400 + (if m ≤ 2 then 1 else 0), m, day⟩

/-- Whether a year has a leap day. -/
def isLeap (y : Int) : Bool := y % 4 == 0 && (y % 100 != 0 || y % 400 == 0)

/-- The days of a month. -/
def monthLength (y m : Int) : Int :=
  if m == 2 then (if isLeap y then 29 else 28)
  else if m == 4 || m == 6 || m == 9 || m == 11 then 30
  else 31

/-- The first and the last year of the calendar in use. -/
def minYear : Int := 1

/-- The last year of the calendar in use. -/
def maxYear : Int := 9999

/-- A date of the calendar in use. -/
def isValid (c : Civil) : Bool :=
  minYear ≤ c.year && c.year ≤ maxYear && 1 ≤ c.month && c.month ≤ 12 &&
    1 ≤ c.day && c.day ≤ monthLength c.year c.month

/-! ## Weeks -/

/-- The days since Monday. -/
def weekday (n : Int) : Int := (n + 3) % 7

/-- The Monday of the week that holds the fourth of January, which begins the ISO year. -/
def weekStart (year : Int) : Int :=
  let fourth := dayOfCivil ⟨year, 1, 4⟩
  fourth - weekday fourth

/-- The day number of an ISO year, a week of it from 1, and a day of the week from 1; absent if the
year has no such week. -/
def dayOfWeek? (year week day : Int) : Option Int :=
  let start := weekStart year
  let weeks := (weekStart (year + 1) - start) / 7
  if 1 ≤ week && week ≤ weeks && 1 ≤ day && day ≤ 7 then
    some (start + (week - 1) * 7 + (day - 1))
  else none

end Calendar

end LiveChart
