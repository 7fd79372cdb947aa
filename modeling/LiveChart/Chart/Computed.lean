import LiveChart.Chart.Parts
import LiveChart.Number.Layout
/-!
# Computed encodings

A channel or a label can show a function of its datum in place of a field: a number formatted for
display, or the color of a candle.

* `formatValue` : a number with fixed places and its unit;
* `candleColor` : the color of a candle;
* `Computed.apply` : what a computed encoding makes of a datum.
-/

namespace LiveChart

/-! ## Formatted numbers -/

/-- The layout for a number of decimal places, which any value may give. -/
def layoutFor (digits : Value) : Result Layout := do
  let places := if ← digits.truth then digits.plain else "0"
  match Layout.ofChars? ('.' :: places.toList ++ ['f']) with
  | some l => return l
  | none => fail .value

/-- A text beside its unit. -/
def withUnit (unit : Option ValueUnit) (text : String) : Result String :=
  match unit with
  | none => .ok text
  | some u => do
    if ← u.value.truth then
      return match u.side with
        | .right => text ++ u.value.plain
        | .left => u.value.plain ++ text
    else return text

/-- What stands for a value that is no number. -/
def unformatted (v : Value) : String := if v.isNull then "-" else v.plain

/-- A value as a number with fixed places and its unit; a value that is no number stands as it is,
and the absent value is a dash. -/
def formatValue (v digits : Value) (unit : Option ValueUnit) : Result String :=
  match v.toDouble with
  | .ok x => do withUnit unit ((← layoutFor digits).apply x)
  | .error (.fault .type) | .error (.fault .value) => .ok (unformatted v)
  | .error e => .error e

/-! ## Candles -/

/-- Whether a candle closes at or above its open. -/
def isRising (row openField closeField : Value) : Result Bool := do
  let close ← (← row.itemAt closeField).toDouble
  let open' ← (← row.itemAt openField).toDouble
  return open'.le close

/-- The color of a candle: a candle whose prices are missing or no numbers falls. -/
def candleColor (row openField closeField bullish bearish : Value) : Result Value :=
  match isRising row openField closeField with
  | .ok rising => .ok (if rising then bullish else bearish)
  | .error (.fault .key) | .error (.fault .type) | .error (.fault .value) => .ok bearish
  | .error e => .error e

/-! ## Computed encodings -/

/-- A named function of a datum, with its bound arguments. -/
inductive Computed where
  | formatValue (digits : Value) (unit : Option ValueUnit)
  | candleColor (openField closeField bullish bearish : Value)

namespace Computed

/-- The name of a function. -/
def name : Computed → String
  | .formatValue .. => "format_value"
  | .candleColor .. => "candle_color"

/-- What a function makes of a datum. -/
def apply (f : Computed) (datum : Value) : Result Value :=
  match f with
  | .formatValue digits unit => do return .text (← LiveChart.formatValue datum digits unit)
  | .candleColor o c bullish bearish => LiveChart.candleColor datum o c bullish bearish

/-- The quoted texts of a function's arguments. -/
def quotedArguments : Computed → List String
  | .formatValue digits unit => [digits.quoted, unit.elim "None" ValueUnit.quoted]
  | .candleColor o c bullish bearish => [o, c, bullish, bearish].map Value.quoted

/-- The quoted text of a function. -/
def quoted (f : Computed) : String :=
  "ComputedFn(" ++ Text.quote f.name ++ ", args=" ++ tupleText f.quotedArguments ++ ")"

/-- Equality of an optional unit. -/
def sameUnit : Option ValueUnit → Option ValueUnit → Bool
  | none, none => true
  | some u, some w => u.same w
  | _, _ => false

/-- Equality of functions: the same function with equal arguments. -/
def same : Computed → Computed → Bool
  | .formatValue d u, .formatValue e w => d.same e && sameUnit u w
  | .candleColor o c b r, .candleColor o' c' b' r' =>
    o.same o' && c.same c' && b.same b' && r.same r'
  | _, _ => false

end Computed

end LiveChart
