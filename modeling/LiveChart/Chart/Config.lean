import LiveChart.Chart.Policy
import LiveChart.Chart.Parts
import LiveChart.Temporal.Binding
/-!
# Chart configurations

There is one kind of configuration for every group of chart families that share their options.  A
configuration is built from named options, and read from a mapping whose keys spell the options in
camel case or in snake case.

* `Config.ofOptions` : the configuration that options give;
* `Config.ofMapping` : the configuration that a mapping gives;
* `snakeCase` : the option that a key spells.
-/

namespace LiveChart

/-! ## What all configurations share -/

/-- The options of every configuration. -/
structure BaseConfig where
  /-- The palette. -/
  colors : Option (List Value) := none
  temporal : Option Binding := none
  /-- The capacity of the buffer, unless a policy says otherwise. -/
  maxItems : Option { n : Nat // 0 < n } := none
  streaming : Option Policy := none

namespace BaseConfig

/-- The policy that a configuration asks for. -/
def policy (c : BaseConfig) : Policy :=
  match c.streaming, c.maxItems with
  | some p, _ => p
  | none, some ⟨capacity, h⟩ => { capacity, capacity_pos := h }
  | none, none => {}

/-- The shared options. -/
def ofOptions (args : Arguments) : Result BaseConfig := do
  let colors ← match args.get "colors" with
    | .null => pure none
    | v => do pure (some (← v.elements))
  let temporal ← embedded Binding.ofMapping "TemporalBinding" "temporal" (args.get "temporal")
  let streaming ← embedded Policy.ofMapping "StreamingPolicy" "streaming" (args.get "streaming")
  let maxItems ← match args.get "max_items" with
    | .null => pure none
    | v => do pure (some (← capacityOf v))
  return { colors, temporal, maxItems, streaming }

end BaseConfig

/-- The length that a tick label is cut to: a whole number, or a mapping that holds it. -/
def tickLabelOf (v : Value) : Result (Option Int) :=
  let number : Value → Result (Option Int) := fun w =>
    if w.isNull then .ok none else do return some (← w.toInt)
  match v with
  | .dict entries =>
    number (.ofOption ((Entries.field? "maxChar" entries).or (Entries.field? "max_char" entries)))
  | v => number v

/-- A choice that may be left out. -/
def optionalChoice {α : Type} (word : α → String) (all : List α) (e : Value → Error) (v : Value) :
    Result (Option α) := do
  if v.isNull then return none
  match ← Value.choose? word all v with
  | some a => return some a
  | none => throw (e v)

/-! ## Line and area charts -/

/-- A line or an area over time. -/
structure TimeSeriesConfig extends BaseConfig where
  isArea : Bool := false
  xAxis : Value := .null
  yAxis : Value := .null
  color : Value := .null
  xTitle : Value := .null
  yTitle : Value := .null
  yRange : Option AxisRange := none
  dataLabel : Value := .bool false
  showAll : Value := .bool false
  legend : Value := .null
  gridlines : Value := .null
  xGridlines : Value := .null
  points : Value := .bool false
  lineStyle : Option LineStyle := none
  fractionDigits : Value := .null
  unit : Option ValueUnit := none
  xFormat : Value := .null
  yTickLabel : Option Int := none

namespace TimeSeriesConfig

/-- The family of a configuration. -/
def family (c : TimeSeriesConfig) : Family := if c.isArea then .area else .line

/-- The configuration that options give. -/
def ofOptions (family : Family) (args : Arguments) : Result TimeSeriesConfig := do
  let base ← BaseConfig.ofOptions args
  let yRange ← embedded AxisRange.ofMapping "AxisRange" "y_range" (args.get "y_range")
  let unit ← embedded ValueUnit.ofMapping "Unit" "unit" (args.get "unit")
  let yTickLabel ← tickLabelOf (args.get "y_tick_label")
  let lineStyle ←
    optionalChoice LineStyle.word LineStyle.all Error.lineStyle (args.get "line_style")
  return {
    toBaseConfig := base
    isArea := family == .area
    xAxis := args.get "x_axis"
    yAxis := args.get "y_axis"
    color := args.get "color"
    xTitle := args.get "x_title"
    yTitle := args.get "y_title"
    yRange
    dataLabel := args.get "data_label" (.bool false)
    showAll := args.get "show_all" (.bool false)
    legend := args.get "legend"
    gridlines := args.get "gridlines"
    xGridlines := args.get "x_gridlines"
    points := args.get "points" (.bool false)
    lineStyle
    fractionDigits := args.get "fraction_digits"
    unit
    xFormat := args.get "x_format"
    yTickLabel }

end TimeSeriesConfig

/-! ## Bar and column charts -/

/-- Horizontal bars or vertical columns over categories. -/
structure BarConfig extends BaseConfig where
  isBar : Bool := false
  xAxis : Value := .null
  yAxis : Value := .null
  color : Value := .null
  groupType : Option Grouping := none
  xTitle : Value := .null
  yTitle : Value := .null
  yRange : Option AxisRange := none
  dataLabel : Value := .bool false
  showAll : Value := .bool false
  legend : Value := .null
  gridlines : Value := .null
  xGridlines : Value := .null
  fractionDigits : Value := .null
  unit : Option ValueUnit := none
  xTickLabel : Option Int := none
  yTickLabel : Option Int := none

namespace BarConfig

/-- The family of a configuration. -/
def family (c : BarConfig) : Family := if c.isBar then .bar else .column

/-- The configuration that options give. -/
def ofOptions (family : Family) (args : Arguments) : Result BarConfig := do
  let base ← BaseConfig.ofOptions args
  let yRange ← embedded AxisRange.ofMapping "AxisRange" "y_range" (args.get "y_range")
  let unit ← embedded ValueUnit.ofMapping "Unit" "unit" (args.get "unit")
  let xTickLabel ← tickLabelOf (args.get "x_tick_label")
  let yTickLabel ← tickLabelOf (args.get "y_tick_label")
  let groupType ← optionalChoice Grouping.word Grouping.all Error.groupType (args.get "group_type")
  return {
    toBaseConfig := base
    isBar := family == .bar
    xAxis := args.get "x_axis"
    yAxis := args.get "y_axis"
    color := args.get "color"
    groupType
    xTitle := args.get "x_title"
    yTitle := args.get "y_title"
    yRange
    dataLabel := args.get "data_label" (.bool false)
    showAll := args.get "show_all" (.bool false)
    legend := args.get "legend"
    gridlines := args.get "gridlines"
    xGridlines := args.get "x_gridlines"
    fractionDigits := args.get "fraction_digits"
    unit
    xTickLabel
    yTickLabel }

end BarConfig

/-! ## Single values -/

/-- One number in large type. -/
structure SingleValueConfig extends BaseConfig where
  yAxis : Value := .null
  fontSize : Value := .int 64
  color : Value := .text "blue"
  fractionDigits : Value := .int 2
  sparkline : Value := .bool false
  sparklineColor : Value := .text "purple"
  delta : Value := .bool false
  increaseColor : Value := .text "green"
  decreaseColor : Value := .text "red"
  unit : Option ValueUnit := none

namespace SingleValueConfig

/-- The configuration that options give. -/
def ofOptions (args : Arguments) : Result SingleValueConfig := do
  let base ← BaseConfig.ofOptions args
  let unit ← embedded ValueUnit.ofMapping "Unit" "unit" (args.get "unit")
  return {
    toBaseConfig := base
    yAxis := args.get "y_axis"
    fontSize := args.get "font_size" (.int 64)
    color := args.get "color" (.text "blue")
    fractionDigits := args.get "fraction_digits" (.int 2)
    sparkline := args.get "sparkline" (.bool false)
    sparklineColor := args.get "sparkline_color" (.text "purple")
    delta := args.get "delta" (.bool false)
    increaseColor := args.get "increase_color" (.text "green")
    decreaseColor := args.get "decrease_color" (.text "red")
    unit }

end SingleValueConfig

/-! ## Tables -/

/-- A table, with styles for some of its columns in order. -/
structure TableConfig extends BaseConfig where
  styles : Option (List (String × Option ColumnStyle)) := none
  wrap : Value := .bool false

namespace TableConfig

/-- The styles with one bound to a name: in its place if the name is there, else at the end. -/
def bindStyle (name : String) (style : Option ColumnStyle) :
    List (String × Option ColumnStyle) → List (String × Option ColumnStyle)
  | [] => [(name, style)]
  | (other, old) :: rest =>
    if other = name then (name, style) :: rest else (other, old) :: bindStyle name style rest

/-- The styles that the entries of a mapping give, after some others. -/
def stylesOf : Entries Value → List (String × Option ColumnStyle) →
    Result (List (String × Option ColumnStyle))
  | [], styles => .ok styles
  | (k, v) :: rest, styles => do
    let style ←
      embedded ColumnStyle.ofMapping "ColumnStyle" ("table_styles[" ++ k.quoted ++ "]") v
    stylesOf rest (bindStyle k.plain style styles)

/-- The configuration that options give. -/
def ofOptions (args : Arguments) : Result TableConfig := do
  let base ← BaseConfig.ofOptions args
  let styles ← match args.get "table_styles" with
    | .null => pure none
    | .dict entries => do pure (some (← stylesOf entries []))
    | _ => fail .attribute
  return { toBaseConfig := base, styles, wrap := args.get "table_wrap" (.bool false) }

end TableConfig

/-! ## Maps -/

/-- Points on a map. -/
structure GeoConfig extends BaseConfig where
  longitude : Value := .null
  latitude : Value := .null
  color : Value := .null
  size : Option SizeEncoding := none
  center : Option (Double × Double) := none
  zoom : Value := .null
  tileProvider : Value := .null
  pointOpacity : Value := .null
  pointColor : Value := .null

namespace GeoConfig

/-- The two numbers of a center. -/
def centerOf (v : Value) : Result (Option (Double × Double)) := do
  if v.isNull then return none
  match ← v.elements with
  | [latitude, longitude] => return some (← latitude.toDouble, ← longitude.toDouble)
  | _ => fail .value

/-- An opacity, which lies between zero and one. -/
def checkOpacity (v : Value) : Result Unit := do
  if v.isNull then return
  let x ← v.toDouble
  unless Double.zero.le x && x.le (.ofNat 1) do throw (.opacity v)

/-- The configuration that options give. -/
def ofOptions (args : Arguments) : Result GeoConfig := do
  let base ← BaseConfig.ofOptions args
  let size ← embedded SizeEncoding.ofMapping "SizeEncoding" "size" (args.get "size")
  let center ← centerOf (args.get "center")
  checkOpacity (args.get "point_opacity")
  return {
    toBaseConfig := base
    longitude := args.get "longitude"
    latitude := args.get "latitude"
    color := args.get "color"
    size
    center
    zoom := args.get "zoom"
    tileProvider := args.get "tile_provider"
    pointOpacity := args.get "point_opacity"
    pointColor := args.get "point_color" }

end GeoConfig

/-! ## Prices -/

/-- Open, high, low and close prices over time. -/
structure PriceConfig extends BaseConfig where
  isCandlestick : Bool := true
  time : Value := .null
  openField : Value := .null
  highField : Value := .null
  lowField : Value := .null
  closeField : Value := .null
  bullishColor : Value := .text "green"
  bearishColor : Value := .text "red"

namespace PriceConfig

/-- The family of a configuration. -/
def family (c : PriceConfig) : Family := if c.isCandlestick then .candlestick else .ohlc

/-- The configuration that options give. -/
def ofOptions (family : Family) (args : Arguments) : Result PriceConfig := do
  let base ← BaseConfig.ofOptions args
  return {
    toBaseConfig := base
    isCandlestick := family == .candlestick
    time := args.get "time"
    openField := args.get "open"
    highField := args.get "high"
    lowField := args.get "low"
    closeField := args.get "close"
    bullishColor := args.get "bullish_color" (.text "green")
    bearishColor := args.get "bearish_color" (.text "red") }

end PriceConfig

/-! ## Configurations of every kind -/

/-- The configuration of a chart. -/
inductive Config where
  | timeSeries (c : TimeSeriesConfig)
  | bars (c : BarConfig)
  | singleValue (c : SingleValueConfig)
  | table (c : TableConfig)
  | geo (c : GeoConfig)
  | price (c : PriceConfig)

/-- The kinds of configurations; the bare kind has no family. -/
inductive ConfigKind where
  | bare | timeSeries | bars | singleValue | table | geo | price
  deriving DecidableEq, Repr

namespace ConfigKind

/-- The families of a kind. -/
def families : ConfigKind → List Family
  | .bare => []
  | .timeSeries => [.line, .area]
  | .bars => [.bar, .column]
  | .singleValue => [.singleValue]
  | .table => [.table]
  | .geo => [.geo]
  | .price => [.ohlc, .candlestick]

/-- The name of the family that a kind has by default. -/
def defaultFamily : ConfigKind → String
  | .bare => ""
  | .timeSeries => Family.line.name
  | .bars => Family.column.name
  | .singleValue => Family.singleValue.name
  | .table => Family.table.name
  | .geo => Family.geo.name
  | .price => Family.candlestick.name

/-- The options of every kind. -/
def sharedOptions : List String := ["chart_type", "colors", "temporal", "max_items", "streaming"]

/-- The options of a kind. -/
def options (k : ConfigKind) : List String :=
  sharedOptions ++ match k with
  | .bare => []
  | .timeSeries =>
    ["x_axis", "y_axis", "color", "x_title", "y_title", "y_range", "data_label", "show_all",
      "legend", "gridlines", "x_gridlines", "points", "line_style", "fraction_digits", "unit",
      "x_format", "y_tick_label"]
  | .bars =>
    ["x_axis", "y_axis", "color", "group_type", "x_title", "y_title", "y_range", "data_label",
      "show_all", "legend", "gridlines", "x_gridlines", "fraction_digits", "unit", "x_tick_label",
      "y_tick_label"]
  | .singleValue =>
    ["y_axis", "font_size", "color", "fraction_digits", "sparkline", "sparkline_color", "delta",
      "increase_color", "decrease_color", "unit"]
  | .table => ["table_styles", "table_wrap"]
  | .geo =>
    ["longitude", "latitude", "color", "size", "center", "zoom", "tile_provider", "point_opacity",
      "point_color"]
  | .price => ["time", "open", "high", "low", "close", "bullish_color", "bearish_color"]

end ConfigKind

/-- The kind of configuration that a family has. -/
def Family.kind : Family → ConfigKind
  | .line | .area => .timeSeries
  | .bar | .column => .bars
  | .singleValue => .singleValue
  | .table => .table
  | .geo => .geo
  | .ohlc | .candlestick => .price

/-- A family is among the families of its kind. -/
theorem Family.mem_families_kind (f : Family) : f ∈ f.kind.families := by
  cases f <;> decide

namespace Config

/-- What a configuration shares with all others. -/
def base : Config → BaseConfig
  | .timeSeries c => c.toBaseConfig
  | .bars c => c.toBaseConfig
  | .singleValue c => c.toBaseConfig
  | .table c => c.toBaseConfig
  | .geo c => c.toBaseConfig
  | .price c => c.toBaseConfig

/-- The family of a configuration. -/
def family : Config → Family
  | .timeSeries c => c.family
  | .bars c => c.family
  | .singleValue _ => .singleValue
  | .table _ => .table
  | .geo _ => .geo
  | .price c => c.family

/-- The configuration of a family that options give. -/
def ofFamily (family : Family) (args : Arguments) : Result Config :=
  match family.kind with
  | .timeSeries => do return .timeSeries (← TimeSeriesConfig.ofOptions family args)
  | .bars => do return .bars (← BarConfig.ofOptions family args)
  | .singleValue => do return .singleValue (← SingleValueConfig.ofOptions args)
  | .table => do return .table (← TableConfig.ofOptions args)
  | .geo => do return .geo (← GeoConfig.ofOptions args)
  | .price => do return .price (← PriceConfig.ofOptions family args)
  | .bare => .error (.unknownFamily (.text family.name) [])

/-- The configuration of a kind that options give; the kind must have the options and the family. -/
def ofOptions (kind : ConfigKind) (args : Arguments) : Result Config := do
  let args ← Arguments.checked kind.options [] args
  let given := args.get "chart_type" (.text kind.defaultFamily)
  match ← Value.choose? Family.name kind.families given with
  | some family => ofFamily family args
  | none => throw (.unknownFamily given kind.families)

/-- The configuration of a kind that a dictionary of options gives. -/
def ofArguments (kind : ConfigKind) (v : Value) : Result Config :=
  match v with
  | .dict entries => do ofOptions kind (← Arguments.ofEntries entries)
  | _ => fail .type

end Config

/-! ## Configurations from mappings -/

/-- The characters of a word in lower case, with an underscore before every capital but the
first character. -/
def snakeChars : List Char → List Char
  | [] => []
  | c :: rest => Text.lower c :: rest.flatMap fun d =>
    if 'A' ≤ d && d ≤ 'Z' then ['_', Text.lower d] else [Text.lower d]

/-- A key in snake case. -/
def snakeCase (s : String) : String := String.ofList (snakeChars s.toList)

/-- The option that a key of a mapping spells. -/
def optionOfKey (key : String) : String :=
  if key = "family" || key = "chartType" then "chart_type" else snakeCase key

/-- The options of a kind that the entries of a mapping give, after some others. -/
def collectOptions (known : List String) : Entries Value → Arguments → Result Arguments
  | [], args => .ok args
  | (.text key, v) :: rest, args =>
    let name := optionOfKey key
    collectOptions known rest (if known.contains name then args.bind name v else args)
  | _ :: _, _ => fail .type

/-- The family tag of a mapping. -/
def familyTag (entries : Entries Value) : Value :=
  .ofOption (((Entries.field? "chartType" entries).or (Entries.field? "family" entries)).or
    (Entries.field? "chart_type" entries))

/-- The family that a tag names. -/
def familyOfTag (tag : Value) : Result Family :=
  match tag with
  | .text s =>
    match Family.ofName? s with
    | some family => .ok family
    | none => .error (.unknownFamily tag Family.all)
  | tag => .error (.unknownFamily tag Family.all)

/-- The configuration that a mapping gives; keys that spell no option are passed over. -/
def Config.ofMapping (v : Value) : Result Config :=
  match v with
  | .dict entries => do
    let family ← familyOfTag (familyTag entries)
    let args ← collectOptions family.kind.options entries []
    ofOptions family.kind (args.bind "chart_type" (.text family.name))
  | v => .error (.configShape v.kind)

end LiveChart
