import LiveChart.Value.Convert
import LiveChart.Time.Iso
/-!
# Time values

A time is given as a number of milliseconds since 1970, as a date or a moment, as a tick, or as an
ISO text; every other value is no time.  Moments without offset are in UTC.

* `epochMillis` : the milliseconds since 1970 that a value stands for;
* `Moment.millis` : those of a moment.
-/

namespace LiveChart

/-- The milliseconds since 1970 of an instant: its whole seconds and the rest, added once. -/
def millisOfMicros (micros : Int) : Double :=
  ((Double.ofIntSaturating (micros / microsPerSecond)).mul (.ofNat 1000)).add
    ((Double.ofIntSaturating (micros % microsPerSecond)).div (.ofNat 1000))

/-- The milliseconds since 1970 of a moment. -/
def Moment.millis (t : Moment) : Double := millisOfMicros t.instant

/-- The milliseconds since 1970 of a day's midnight. -/
def Day.millis (d : Day) : Double := Moment.millis ⟨d.number * microsPerDay, none⟩

/-- A double, if it is finite. -/
def finite? (x : Double) : Option Double := if x.isFinite then some x else none

/-- The milliseconds since 1970 that a value stands for, if it is a time.  A whole number beyond the
doubles fails. -/
def epochMillis (v : Value) : Result (Option Double) :=
  match v with
  | .scalar s =>
    match s with
    | .double x | .fixedFloat _ x => .ok (finite? x)
    | .int n | .fixedInt _ n =>
      match Double.ofInt? n with
      | some x => .ok (some x)
      | none => fail .overflow
    | .tick t => .ok (t.millis?.map Double.ofIntSaturating)
    | .moment t => .ok (some t.millis)
    | .day d => .ok (some d.millis)
    | .text s => .ok ((Iso.readStamp? s).map Moment.millis)
    | _ => .ok none
  | _ => .ok none

end LiveChart
