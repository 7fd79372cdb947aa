import LiveChart.Time.Calendar
import LiveChart.Text.Class
/-!
# Dates, moments, durations and ticks

A `Day` is a civil date, a `Moment` a wall-clock time with or without an offset from UTC, a
`Duration` a signed span, and a `Tick` a 64-bit count of a calendar or clock unit since 1970.

* `Moment.instant` : the microseconds since 1970 in UTC, a moment without offset being in UTC;
* `Tick.span` : the clock time, in a power of ten of a second, that a tick begins;
* `text` and `literal` of each type are its plain and its quoted spelling.
-/

namespace LiveChart

open Text (decimal paddedDecimal)

-- a power is the one of the core library, also where another instance is at hand
attribute [instance (high), default_instance (high + 1)] instPowNat

/-- Microseconds in a second. -/
def microsPerSecond : Int := 1000000

/-- Seconds in a day. -/
def secondsPerDay : Int := 86400

/-- Microseconds in a day. -/
def microsPerDay : Int := secondsPerDay * microsPerSecond

/-- A number written with zeros before it up to a width, in which a sign counts. -/
def pad (width : Nat) (n : Int) : String :=
  if n < 0 then "-" ++ String.ofList (paddedDecimal (width - 1) n.natAbs)
  else String.ofList (paddedDecimal width n.natAbs)

/-! ## Days -/

/-- A civil date, by its day number. -/
structure Day where
  number : Int
  deriving DecidableEq, Repr

namespace Day

/-- The civil date of a day. -/
def civil (d : Day) : Civil := Calendar.civilOfDay d.number

/-- The date as `2024-01-31`. -/
def text (d : Day) : String :=
  let c := d.civil
  pad 4 c.year ++ "-" ++ pad 2 c.month ++ "-" ++ pad 2 c.day

/-- The quoted spelling of a date. -/
def literal (d : Day) : String :=
  let c := d.civil
  "datetime.date(" ++ toString c.year ++ ", " ++ toString c.month ++ ", " ++ toString c.day ++ ")"

end Day

/-! ## Durations -/

/-- A signed span of time. -/
structure Duration where
  micros : Int
  deriving DecidableEq, Repr

namespace Duration

/-- Whole days, rounded down. -/
def days (d : Duration) : Int := d.micros / microsPerDay

/-- Seconds past the whole days. -/
def seconds (d : Duration) : Int := d.micros % microsPerDay / microsPerSecond

/-- Microseconds past the whole seconds. -/
def subseconds (d : Duration) : Int := d.micros % microsPerSecond

/-- The span of days, seconds and microseconds. -/
def ofParts (days seconds micros : Int) : Duration :=
  ⟨(days * secondsPerDay + seconds) * microsPerSecond + micros⟩

/-- A span as `1 day, 2:03:04.000005`. -/
def text (d : Duration) : String :=
  let days := d.days
  let s := d.seconds
  let dayText :=
    if days = 0 then ""
    else toString days ++ (if days.natAbs = 1 then " day, " else " days, ")
  let fraction := if d.subseconds = 0 then "" else "." ++ pad 6 d.subseconds
  dayText ++ toString (s / 3600) ++ ":" ++ pad 2 (s / 60 % 60) ++ ":" ++ pad 2 (s % 60) ++ fraction

/-- The quoted spelling of a span, with its non-zero parts. -/
def literal (d : Duration) : String :=
  let parts :=
    (if d.days = 0 then [] else ["days=" ++ toString d.days]) ++
    (if d.seconds = 0 then [] else ["seconds=" ++ toString d.seconds]) ++
    (if d.subseconds = 0 then [] else ["microseconds=" ++ toString d.subseconds])
  "datetime.timedelta(" ++ (if parts.isEmpty then "0" else ", ".intercalate parts) ++ ")"

end Duration

/-! ## Moments -/

/-- A wall-clock time, as microseconds since 1970-01-01T00:00 on its own clock, and how far that
clock is ahead of UTC, in microseconds, if that is known. -/
structure Moment where
  micros : Int
  ahead : Option Int
  deriving DecidableEq, Repr

namespace Moment

/-- Microseconds since 1970 in UTC; a moment without offset is taken to be in UTC. -/
def instant (t : Moment) : Int := t.micros - t.ahead.getD 0

/-- The date on the moment's own clock. -/
def day (t : Moment) : Day := ⟨t.micros / microsPerDay⟩

/-- The seconds since midnight on the moment's own clock. -/
def secondOfDay (t : Moment) : Int := t.micros % microsPerDay / microsPerSecond

/-- The microseconds past the second. -/
def subsecond (t : Moment) : Int := t.micros % microsPerSecond

/-- The moment of a civil date and time. -/
def ofCivil (c : Civil) (hour minute second micro : Int) (ahead : Option Int) : Moment :=
  let seconds := Calendar.dayOfCivil c * secondsPerDay + hour * 3600 + minute * 60 + second
  ⟨seconds * microsPerSecond + micro, ahead⟩

/-- An offset as `+01:00`, with seconds and microseconds where they are not zero. -/
def offsetText (ahead : Int) : String :=
  let n : Int := ahead.natAbs
  let s := n / microsPerSecond
  let micro := n % microsPerSecond
  (if ahead < 0 then "-" else "+") ++ pad 2 (s / 3600) ++ ":" ++ pad 2 (s / 60 % 60) ++
    (if s % 60 = 0 && micro = 0 then "" else ":" ++ pad 2 (s % 60)) ++
    (if micro = 0 then "" else "." ++ pad 6 micro)

/-- A moment as `2024-01-31 12:00:00.000001+01:00`. -/
def text (t : Moment) : String :=
  let s := t.secondOfDay
  t.day.text ++ " " ++ pad 2 (s / 3600) ++ ":" ++ pad 2 (s / 60 % 60) ++ ":" ++ pad 2 (s % 60) ++
    (if t.subsecond = 0 then "" else "." ++ pad 6 t.subsecond) ++
    (match t.ahead with
    | some ahead => offsetText ahead
    | none => "")

/-- The quoted spelling of a moment; seconds and microseconds are left off while they are zero. -/
def literal (t : Moment) : String :=
  let c := t.day.civil
  let s := t.secondOfDay
  let micro := t.subsecond
  let parts := [c.year, c.month, c.day, s / 3600, s / 60 % 60] ++
    (if s % 60 = 0 && micro = 0 then [] else [s % 60]) ++ (if micro = 0 then [] else [micro])
  let zone := match t.ahead with
    | none => []
    | some 0 => ["tzinfo=datetime.timezone.utc"]
    | some ahead => ["tzinfo=datetime.timezone(" ++ (Duration.literal ⟨ahead⟩) ++ ")"]
  "datetime.datetime(" ++ ", ".intercalate (parts.map toString ++ zone) ++ ")"

end Moment

/-! ## Ticks -/

/-- The unit of a tick. -/
inductive TickUnit where
  | year | month | week | day | hour | minute | second | milli | micro | nano | pico
  deriving DecidableEq, Repr

/-- A count of units since 1970, or no time at all. -/
structure Tick where
  unit : TickUnit
  count : Option Int
  deriving DecidableEq, Repr

namespace TickUnit

/-- The picoseconds of a unit of fixed length; months and years have none. -/
def picos? : TickUnit → Option Int
  | .year | .month => none
  | .week => some (7 * 86400 * 10 ^ 12)
  | .day => some (86400 * 10 ^ 12)
  | .hour => some (3600 * 10 ^ 12)
  | .minute => some (60 * 10 ^ 12)
  | .second => some (10 ^ 12)
  | .milli => some (10 ^ 9)
  | .micro => some (10 ^ 6)
  | .nano => some (10 ^ 3)
  | .pico => some 1

/-- Whether a unit is one that clocks show: from the hour to the microsecond. -/
def isClock : TickUnit → Bool
  | .hour | .minute | .second | .milli | .micro => true
  | _ => false

/-- The decimal digits of a second that a unit shows. -/
def places : TickUnit → Nat
  | .milli => 3
  | .micro => 6
  | .nano => 9
  | .pico => 12
  | _ => 0

end TickUnit

namespace Tick

/-- The picoseconds from 1970 to the beginning of the `n`-th unit. -/
def picosOf (unit : TickUnit) (n : Int) : Int :=
  match unit.picos? with
  | some length => n * length
  | none =>
    let c : Civil :=
      if unit = .year then ⟨1970 + n, 1, 1⟩ else ⟨1970 + n / 12, n % 12 + 1, 1⟩
    Calendar.dayOfCivil c * (86400 * 10 ^ 12)

/-- The picoseconds from 1970 to the beginning of a tick. -/
def picos? (t : Tick) : Option Int := t.count.map (picosOf t.unit)

/-- A count as a signed word of 64 bits holds it. -/
def word (n : Int) : Int := n.bmod (2 ^ 64)

/-- The whole milliseconds from 1970 to the beginning of a tick, rounded down, in a signed word of
64 bits. -/
def millis? (t : Tick) : Option Int := t.picos?.map fun p => word (p / 10 ^ 9)

/-- A tick with the fields that its unit shows. -/
def text (t : Tick) : String :=
  match t.picos? with
  | none => "NaT"
  | some p =>
    let dayPicos : Int := 86400 * 10 ^ 12
    let day : Day := ⟨p / dayPicos⟩
    let c := day.civil
    let s := p % dayPicos / 10 ^ 12
    let hour := "T" ++ pad 2 (s / 3600)
    let minute := ":" ++ pad 2 (s / 60 % 60)
    let second := ":" ++ pad 2 (s % 60)
    match t.unit with
    | .year => pad 4 c.year
    | .month => pad 4 c.year ++ "-" ++ pad 2 c.month
    | .week | .day => day.text
    | .hour => day.text ++ hour
    | .minute => day.text ++ hour ++ minute
    | .second => day.text ++ hour ++ minute ++ second
    | unit =>
      let places := unit.places
      let fraction := p % 10 ^ 12 / 10 ^ (12 - places)
      day.text ++ hour ++ minute ++ second ++ "." ++ pad places fraction

/-- The quoted spelling of a tick; the unit is named where the text does not tell it. -/
def literal (t : Tick) : String :=
  "np.datetime64('" ++ t.text ++ (if t.unit = .hour then "','h')" else "')")

/-- Whether a tick names a date of the calendar in use, and not a bare count. -/
def isCalendar (t : Tick) : Bool :=
  match t.unit, t.picos? with
  | .nano, _ | .pico, _ => false
  | _, some p =>
    let year := (Calendar.civilOfDay (p / (86400 * 10 ^ 12))).year
    Calendar.minYear ≤ year && year ≤ Calendar.maxYear
  | _, none => true

end Tick

end LiveChart
