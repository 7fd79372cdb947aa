import LiveChart.Time.Moment
/-!
# Reading ISO 8601 text

A date is written with or without hyphens, by month and day or by week; one character separates it
from a time of day, which is written with or without colons and may have an offset from UTC.

* `readDay?` : a date by itself;
* `readClock?` : a time of day by itself, and whether a character is left over;
* `readMoment?` : a whole moment.
-/

namespace LiveChart.Iso

/-! ## Digits -/

/-- An ASCII digit. -/
def isDigit (c : Char) : Bool := (Text.asciiDigit? c).isSome

/-- The number that characters spell, if all are ASCII digits. -/
def number? (cs : List Char) : Option Int :=
  if cs.all isDigit then some (cs.foldl (fun n c => 10 * n + (c.toNat - 48 : Nat)) 0) else none

/-- A number of two digits, and the characters after it. -/
def twoDigits? : List Char → Option (Int × List Char)
  | a :: b :: rest => (number? [a, b]).map (·, rest)
  | _ => none

/-! ## Dates -/

/-- The day number of a year, a month and a day. -/
def dayOfMonth? (y m d : List Char) : Option Int := do
  let c : Civil := ⟨← number? y, ← number? m, ← number? d⟩
  if Calendar.isValid c then some (Calendar.dayOfCivil c) else none

/-- The day number of an ISO year, a week and a day of the week. -/
def dayOfWeek? (y w d : List Char) : Option Int := do
  let year ← number? y
  let n ← Calendar.dayOfWeek? year (← number? w) (← number? d)
  if Calendar.minYear ≤ year && year ≤ Calendar.maxYear &&
      (Calendar.civilOfDay n).year ≤ Calendar.maxYear then some n
  else none

/-- The day number of a date. -/
def readDay? : List Char → Option Int
  | [a, b, c, d, '-', 'W', w, x] => dayOfWeek? [a, b, c, d] [w, x] ['1']
  | [a, b, c, d, '-', 'W', w, x, '-', e] => dayOfWeek? [a, b, c, d] [w, x] [e]
  | [a, b, c, d, 'W', w, x] => dayOfWeek? [a, b, c, d] [w, x] ['1']
  | [a, b, c, d, 'W', w, x, e] => dayOfWeek? [a, b, c, d] [w, x] [e]
  | [a, b, c, d, '-', m, n, '-', e, f] => dayOfMonth? [a, b, c, d] [m, n] [e, f]
  | [a, b, c, d, m, n, e, f] => dayOfMonth? [a, b, c, d] [m, n] [e, f]
  | _ => none

/-- How many characters of a text are its date.  With a week, a hyphen before two digits separates
the date from a time, and an even count of digits after the week's mark holds no day. -/
def dateLength (cs : List Char) : Nat :=
  if cs.length = 7 then 7
  else if cs[4]? = some '-' then
    if cs[5]? = some 'W' then
      if cs[8]? = some '-' then (if (cs[10]?).any isDigit then 8 else 10)
      else 8
    else 10
  else if cs[4]? = some 'W' then
    let last := 7 + ((cs.drop 7).takeWhile isDigit).length
    if last < 9 then last else if last % 2 = 0 then 7 else 8
  else 8

/-! ## Times of day -/

/-- A time of day and the fraction of its second, in microseconds. -/
structure Clock where
  hour : Int
  minute : Int := 0
  second : Int := 0
  micro : Int := 0
  deriving DecidableEq, Repr

/-- The microseconds since midnight. -/
def Clock.micros (t : Clock) : Int :=
  ((t.hour * 60 + t.minute) * 60 + t.second) * microsPerSecond + t.micro

/-- A mark before a fraction. -/
def isPoint (c : Char) : Bool := c == '.' || c == ','

/-- Whether characters are left over; a null character ends the text. -/
def isLeftOver : List Char → Bool
  | [] => false
  | c :: _ => c.toNat != 0

/-- The microseconds of a fraction of a second, whose digits after the sixth do not count, and
whether characters are left over. -/
def fraction? (cs : List Char) : Option (Int × Bool) := do
  let shown := cs.take 6
  let n ← number? shown
  some (n * 10 ^ (6 - shown.length), isLeftOver ((cs.drop 6).dropWhile isDigit))

/-- The fraction that follows a mark, put into a time of day. -/
def withFraction? (t : Clock) (cs : List Char) : Option (Clock × Bool) :=
  (fraction? cs).map fun (micro, leftOver) => ({ t with micro }, leftOver)

/-- A time of day with a single character after it, which is of ASCII. -/
def withLast? (t : Clock) (c : Char) : Option (Clock × Bool) :=
  if c.toNat < 128 then some (t, isLeftOver [c]) else none

/-- What follows the seconds: a fraction after a mark.  Between colons a third colon is a mark too,
and without colons no mark is needed. -/
def readSecondTail? (colons : Bool) (t : Clock) : List Char → Option (Clock × Bool)
  | [] => some (t, false)
  | [c] => withLast? t c
  | c :: rest =>
    if isPoint c || (colons && c == ':') then withFraction? t rest
    else if colons then none
    else withFraction? t (c :: rest)

/-- What follows the minutes: a fraction after a mark, or the seconds. -/
def readMinuteTail? (colons : Bool) (t : Clock) : List Char → Option (Clock × Bool)
  | [] => some (t, false)
  | [c] => withLast? t c
  | c :: rest =>
    if isPoint c then withFraction? t rest
    else if colons && c != ':' then none
    else do
      let (second, tail) ← twoDigits? (if colons then rest else c :: rest)
      readSecondTail? colons { t with second } tail

/-- What follows the hours: a fraction after a mark, or the minutes. -/
def readHourTail? (t : Clock) : List Char → Option (Clock × Bool)
  | [] => some (t, false)
  | [c] => withLast? t c
  | c :: rest =>
    if isPoint c then withFraction? t rest
    else do
      let colons := c == ':'
      let (minute, tail) ← twoDigits? (if colons then rest else c :: rest)
      readMinuteTail? colons { t with minute } tail

/-- A time of day, and whether a character is left over. -/
def readClock? (cs : List Char) : Option (Clock × Bool) := do
  let (hour, tail) ← twoDigits? cs
  readHourTail? { hour } tail

/-- A time of day that a clock can show. -/
def Clock.isValid (t : Clock) : Bool := t.hour < 24 && t.minute < 60 && t.second < 60

/-- The offset that follows its sign, less than a day.  An offset below one second is kept with its
fraction, as the format is documented; readers that drop such an offset are not modelled. -/
def offset? (negative : Bool) (cs : List Char) : Option Int := do
  let (t, leftOver) ← readClock? cs
  if leftOver || microsPerDay ≤ t.micros then none
  else some (if negative then -t.micros else t.micros)

/-- A character that begins an offset from UTC. -/
def isOffsetMark (c : Char) : Bool := c == '+' || c == '-' || c == 'Z'

/-- The microseconds since midnight and the offset of a time of day.  One character may be left over
before an offset, but not at the end. -/
def readTime? (cs : List Char) : Option (Int × Option Int) := do
  let (t, leftOver) ← readClock? (cs.takeWhile (!isOffsetMark ·))
  let ahead ← match cs.dropWhile (!isOffsetMark ·) with
    | [] => if leftOver then none else some none
    | 'Z' :: rest => if isLeftOver rest then none else some (some 0)
    | c :: rest => (offset? (c == '-') rest).map some
  if t.isValid then some (t.micros, ahead) else none

/-! ## Moments -/

/-- A moment: a date, and after any one character a time of day. -/
def readMoment? (cs : List Char) : Option Moment := do
  let length := dateLength cs
  let day ← readDay? (cs.take length)
  let start := day * microsPerDay
  match cs.drop length with
  | [] => some ⟨start, none⟩
  | _ :: rest =>
    let (micros, ahead) ← readTime? rest
    some ⟨start + micros, ahead⟩

/-- A moment between blanks, where a last letter `Z` stands for the offset zero. -/
def readStamp? (s : String) : Option Moment :=
  let cs := Text.strip Text.isBlank s.toList
  match cs.getLast? with
  | none => none
  | some c =>
    if c == 'Z' || c == 'z' then readMoment? (cs.dropLast ++ "+00:00".toList) else readMoment? cs

end LiveChart.Iso
