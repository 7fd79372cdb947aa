/-!
# Chart families

The nine families of charts, in the order in which they are offered.

* `Family.ofName?_name` : a family is found under its name.
-/

namespace LiveChart

/-- A chart family. -/
inductive Family where
  | line | area | bar | column | singleValue | table | geo | ohlc | candlestick
  deriving DecidableEq, Repr

namespace Family

/-- Every family, in order. -/
def all : List Family :=
  [.line, .area, .bar, .column, .singleValue, .table, .geo, .ohlc, .candlestick]

/-- The name of a family. -/
def name : Family → String
  | .line => "line"
  | .area => "area"
  | .bar => "bar"
  | .column => "column"
  | .singleValue => "singleValue"
  | .table => "table"
  | .geo => "geo"
  | .ohlc => "ohlc"
  | .candlestick => "candlestick"

/-- The family of a name. -/
def ofName? (s : String) : Option Family := all.find? fun f => f.name == s

/-- A family is found under its name. -/
theorem ofName?_name (f : Family) : ofName? f.name = some f := by
  cases f <;> rfl

/-- Every family is offered. -/
theorem mem_all (f : Family) : f ∈ all := by
  cases f <;> decide

end Family

end LiveChart
