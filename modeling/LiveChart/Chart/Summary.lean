import LiveChart.Value.Convert
/-!
# Summaries of a single value

A chart of a single value shows the latest number of a field, its last change, and a short history.

* `Summary.ofNumbers` : the summary of the numbers in order of arrival;
* `summarize` : the summary of a field over rows.
-/

namespace LiveChart

/-- The direction of the last change. -/
inductive Trend where
  | up | down | stable
  deriving DecidableEq, Repr

/-- The word for a trend. -/
def Trend.word : Trend → String
  | .up => "up"
  | .down => "down"
  | .stable => "stable"

/-- What a chart of a single value shows. -/
structure Summary where
  value : Option Double
  previous : Option Double
  /-- The last change that was not zero. -/
  delta : Option Double
  trend : Trend
  sparkline : List Double

/-- The number that a field's value counts for: none for a truth value, a text that is no number, or
a number that is not finite. -/
def countedNumber (v : Value) : Result (Option Double) :=
  match v with
  | .null | .bool _ => .ok none
  | v =>
    match v.toDouble with
    | .ok x => .ok (if x.isFinite then some x else none)
    | .error (.fault .type) | .error (.fault .value) => .ok none
    | .error e => .error e

/-- The numbers that rows hold under a field, in order. -/
def numbersOf (field : Value) : List Value → Result (List Double)
  | [] => .ok []
  | row :: rest => do
    let number ← countedNumber (.ofOption (← row.memberAt field))
    let others ← numbersOf field rest
    return number.toList ++ others

/-- The last difference of neighbours that are not equal, in a list with the latest number first. -/
def lastChange : List Double → Option Double
  | later :: earlier :: rest =>
    if later.same earlier then lastChange (earlier :: rest) else some (later.sub earlier)
  | _ => none

/-- The direction of a change. -/
def trendOf : Option Double → Trend
  | none => .stable
  | some d => if d.isZero then .stable else if Double.zero.lt d then .up else .down

/-- Where the history begins, counted from the end if it is negative: a fixed-width limit is negated
within its width. -/
def historyStart (limit : Value) : Result Int :=
  match limit with
  | .scalar s =>
    match s with
    | .int n => .ok (-n)
    | .bool b => .ok (-boolInt b)
    | .fixedInt w n => .ok (w.wrap (-n))
    | _ => fail .type
  | _ => fail .type

/-- The numbers from a position on, counted from the end if it is negative. -/
def fromPosition (xs : List Double) (start : Int) : List Double :=
  if start < 0 then xs.drop (start + xs.length).toNat else xs.drop start.toNat

/-- The last numbers, as many as a limit allows. -/
def historyOf (limit : Value) (xs : List Double) : Result (List Double) := do
  if ← limit.truth then return fromPosition xs (← historyStart limit) else return []

namespace Summary

/-- The summary without numbers. -/
def empty : Summary := ⟨none, none, none, .stable, []⟩

/-- The summary of numbers in order of arrival, with the history that is shown. -/
def ofNumbers (xs sparkline : List Double) : Summary :=
  let delta := lastChange xs.reverse
  ⟨xs.getLast?, xs.dropLast.getLast?, delta, trendOf delta, sparkline⟩

end Summary

/-- The length of the history unless another is asked for. -/
def defaultLimit : Value := .int 20

/-- The summary of a field over rows, its history as long as a limit allows. -/
def summarize (rows field limit : Value) : Result Summary := do
  if ← limit.isNegative then throw .sparklineLimit
  let xs ← numbersOf field (← rows.elements)
  if xs.isEmpty then return .empty
  return .ofNumbers xs (← historyOf limit xs)

end LiveChart
