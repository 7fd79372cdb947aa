import LiveChart.Temporal.View
/-!
# Windows of time

In axis mode a chart shows the times of a window, and labels them in a form that suits its span.

* `timeWindow` : the window of a snapshot;
* `maskOf` : the form of the labels of a window.
-/

namespace LiveChart

/-! ## The window of a snapshot -/

/-- The first and the last time of a window that ends at the latest of some times. -/
def windowOf (range : Range) (stamps : List Double) : Option (Double × Double) :=
  match latest? stamps, earliest? stamps with
  | some last, some first =>
    match range.window? with
    | none => some (first, last)
    | some window => some (last.sub window, last)
  | _, _ => none

/-- The window of items that carry rows; only axis mode has one. -/
def timeWindowOf {α : Type} (rowOf : α → Value) (binding : Option Binding) (items : List α) :
    Result (Option (Double × Double)) :=
  match binding with
  | none => .ok none
  | some b =>
    match b.field with
    | none => .ok none
    | some field =>
      if b.mode != .axis then .ok none
      else do
        let stamped ← withStamps rowOf (.text field.first) items
        return windowOf b.range ((stampedOnly stamped).map Prod.fst)

/-- The window of a snapshot. -/
def timeWindow (binding : Option Binding) (snapshot : List Row) :
    Result (Option (Double × Double)) :=
  timeWindowOf Value.dict binding snapshot

/-! ## Labels -/

/-- The form of time labels, from the finest to the coarsest. -/
inductive Mask where
  | clock | dayAndClock | day | year
  deriving DecidableEq, Repr

/-- The pattern of a form of labels. -/
def Mask.pattern : Mask → String
  | .clock => "HH:mm:ss"
  | .dayAndClock => "MM/DD HH:mm:ss"
  | .day => "MM/DD"
  | .year => "YY/MM/DD"

/-- The form of labels for the dates at the ends of a window: what they do not share is shown. -/
def maskOfDates (first last : Civil) : Mask :=
  if first.year ≠ last.year then .year
  else if first.month ≠ last.month then .day
  else if first.day ≠ last.day then
    if (first.day - last.day).natAbs > 1 then .day else .dayAndClock
  else .clock

/-- The date of an instant in microseconds. -/
def dateOfMicros (micros : Int) : Civil := Calendar.civilOfDay (micros / microsPerDay)

/-- The first instant of the calendar in use. -/
def firstMicros : Int := Calendar.dayOfCivil ⟨Calendar.minYear, 1, 1⟩ * microsPerDay

/-- The first instant after the calendar in use. -/
def endMicros : Int := Calendar.dayOfCivil ⟨Calendar.maxYear + 1, 1, 1⟩ * microsPerDay

/-- The microseconds of a number of milliseconds: the whole ones exactly, the rest as a rounded
product, and the sum to the nearest, a half going to the even neighbour. -/
def microsOfMillis (x : Double) : Result Int :=
  match x with
  | .finite negative units _ =>
    let part : Int := (units % one : Nat)
    let rest := ((Double.ofUnits part).mul (.ofNat 1000)).order
    let total := (units / one) * 1000 * one + rest.toNat
    let n : Int := nearest total one
    .ok (if negative then -n else n)
  | .infinite _ => fail .overflow
  | .nan => fail .value

/-- The microseconds of a value in milliseconds: a plain whole number or a double. -/
def microsOfValue (v : Value) : Result Int :=
  match v with
  | .scalar s =>
    match s with
    | .int n => .ok (n * 1000)
    | .bool b => .ok (boolInt b * 1000)
    | .double x | .fixedFloat .float64 x => microsOfMillis x
    | _ => fail .type
  | _ => fail .type

/-- An instant of the calendar in use. -/
def inCalendar (micros : Int) : Result Int :=
  if firstMicros ≤ micros && micros < endMicros then .ok micros else fail .overflow

/-- The form of labels for a window given in milliseconds. -/
def maskOf (first last : Value) : Result Mask := do
  let start ← inCalendar (← microsOfValue first)
  let stop ← inCalendar (← microsOfValue last)
  return maskOfDates (dateOfMicros start) (dateOfMicros stop)

/-- The form of labels for a window. -/
def maskOfWindow (w : Double × Double) : Result Mask := maskOf (.double w.1) (.double w.2)

end LiveChart
