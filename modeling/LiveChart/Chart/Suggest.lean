import LiveChart.Chart.Config
import LiveChart.Schema.Column
/-!
# Suggested configurations

A schema suggests a configuration for a family: the first column of a fitting type takes each role,
and places on a map and prices are found by the names of their columns.

* `suggest` : the configuration that columns suggest for a family, if they can support it.
-/

namespace LiveChart

/-- The names of the columns whose type passes a test, in order. -/
def namesOfType (test : ColumnType → Bool) (columns : List Column) : List String :=
  (columns.filter fun c => test c.type).map Column.name

/-- The name of the last column that has a given name in whatever case. -/
def columnNamed? (columns : List Column) (name : String) : Option String :=
  ((columns.map Column.name).filter fun s => Text.lowercase s == name).getLast?

/-- The name of a column that has the first of some names that any column has. -/
def columnNamedAny? (columns : List Column) (names : List String) : Option String :=
  names.findSome? (columnNamed? columns)

/-- The names of a column of longitudes. -/
def longitudeNames : List String := ["longitude", "lng", "lon", "long"]

/-- The names of a column of latitudes. -/
def latitudeNames : List String := ["latitude", "lat"]

/-- An optional name as a value. -/
def ofName? : Option String → Value
  | some s => .text s
  | none => .null

/-- A line or an area over the first time column. -/
def suggestTimeSeries (isArea : Bool) (columns : List Column) : Option TimeSeriesConfig := do
  let time ← (namesOfType ColumnType.isTemporal columns).head?
  let number ← (namesOfType ColumnType.isNumeric columns).head?
  let series := (namesOfType (· == .string) columns).head?
  return {
    isArea
    xAxis := .text time
    yAxis := .text number
    color := ofName? series
    legend := .bool series.isSome
    lineStyle := some .curve
    fractionDigits := .int 2
    temporal := some { mode := .axis } }

/-- Bars over the first text column, or else the first time column. -/
def suggestBars (isBar : Bool) (columns : List Column) : Option BarConfig := do
  let strings := namesOfType (· == .string) columns
  let category ← (strings ++ namesOfType ColumnType.isTemporal columns).head?
  let number ← (namesOfType ColumnType.isNumeric columns).head?
  let series := strings[1]?
  return {
    isBar
    xAxis := .text category
    yAxis := .text number
    color := ofName? series
    groupType := series.map fun _ => .stack
    legend := .bool series.isSome
    fractionDigits := .int 2 }

/-- The first number by itself. -/
def suggestSingleValue (columns : List Column) : Option SingleValueConfig := do
  let number ← (namesOfType ColumnType.isNumeric columns).head?
  return { yAxis := .text number, fractionDigits := .int 2 }

/-- Points at the columns of places. -/
def suggestGeo (columns : List Column) : Option GeoConfig := do
  let longitude ← columnNamedAny? columns longitudeNames
  let latitude ← columnNamedAny? columns latitudeNames
  let series := (namesOfType (· == .string) columns).head?
  return { longitude := .text longitude, latitude := .text latitude, color := ofName? series }

/-- Prices at the columns of that name. -/
def suggestPrice (isCandlestick : Bool) (columns : List Column) : Option PriceConfig := do
  let time ← (namesOfType ColumnType.isTemporal columns).head?
  let openField ← columnNamed? columns "open"
  let highField ← columnNamed? columns "high"
  let lowField ← columnNamed? columns "low"
  let closeField ← columnNamed? columns "close"
  return {
    isCandlestick
    time := .text time
    openField := .text openField
    highField := .text highField
    lowField := .text lowField
    closeField := .text closeField }

/-- The configuration that columns suggest for a family. -/
def suggestFor (columns : List Column) (family : Family) : Option Config :=
  if columns.isEmpty then none
  else
    match family with
    | .line => (suggestTimeSeries false columns).map .timeSeries
    | .area => (suggestTimeSeries true columns).map .timeSeries
    | .bar => (suggestBars true columns).map .bars
    | .column => (suggestBars false columns).map .bars
    | .singleValue => (suggestSingleValue columns).map .singleValue
    | .table => some (.table {})
    | .geo => (suggestGeo columns).map .geo
    | .ohlc => (suggestPrice false columns).map .price
    | .candlestick => (suggestPrice true columns).map .price

/-- The family that a value names. -/
def supportedFamily (v : Value) : Result Family := do
  match ← Value.choose? Family.name Family.all v with
  | some family => return family
  | none => throw (.unknownFamily v Family.all)

/-- The configuration that untyped columns suggest for an untyped family. -/
def suggest (columns family : Value) : Result (Option Config) := do
  let family ← supportedFamily family
  return suggestFor (← columnsOf columns) family

end LiveChart
