import LiveChart.Chart.Config
import LiveChart.Chart.Spec
import LiveChart.Log
/-!
# Compilation of configurations

A configuration is lowered into a specification by the rules of its family.  Missing field roles are
found first, then the rest is built in order, the legend before the temporal binding.

* `Config.compile` : the specification of a configuration under a theme;
* `compileChart` : that of an untyped configuration and theme.
-/

namespace LiveChart

/-! ## Shared rules -/

/-- Every role of a list must be bound to a field. -/
def requireRoles (family : Family) : List (String × Value) → Result Unit
  | [] => .ok ()
  | (role, field) :: rest => do
    if ← field.truth then requireRoles family rest
    else throw (.missingField family role)

/-- The legend that a setting asks for. -/
def legendOf (setting : Value) : Result Legend :=
  match setting with
  | .bool false => .ok .hidden
  | .dict entries => do
    let position :=
      (Entries.field? "position" entries).getD (.text LegendPosition.bottom.word)
    match ← Value.choose? LegendPosition.word LegendPosition.all position with
    | none => throw (.legendPosition position)
    | some _ =>
      let interactive ← ((Entries.field? "interactive" entries).getD (.bool true)).truth
      return .shown { position, interactive := .bool interactive }
  | _ => .ok (.shown {})

/-- The title that a setting asks for: a blank one, or a bare yes, shows none. -/
def titleOf (setting : Value) : Result Value := do
  if ← setting.truth then
    return match setting with
      | .bool true => .bool false
      | v => .text v.plain
  else return .bool false

/-- A switch with a default. -/
def switchOf (default : Bool) (setting : Value) : Result Value := do
  if setting.isNull then return .bool default
  return .bool (← setting.truth)

/-- An optional whole number as a value. -/
def ofLimit : Option Int → Value
  | some n => .int n
  | none => .null

/-- The two axes of a chart. -/
def axesOf (xTitle xGridlines : Value) (xLimit : Option Int) (yTitle gridlines : Value)
    (yLimit : Option Int) : Result (Entries AxisSpec) := do
  let x : AxisSpec :=
    ⟨← titleOf xTitle, ← switchOf false xGridlines, ofLimit xLimit⟩
  let y : AxisSpec :=
    ⟨← titleOf yTitle, ← switchOf true gridlines, ofLimit yLimit⟩
  return [(.text "x", x), (.text "y", y)]

/-- A linear scale of its own making. -/
def niceScale : Entries Value := [(.text "type", .text "linear"), (.text "nice", .bool true)]

/-- The scale of values: fixed if both bounds are given. -/
def valueScale (range : Option AxisRange) : Entries Value :=
  match range with
  | some r =>
    if r.isComplete then
      [(.text "type", .text "linear"), (.text "domain", .list [r.min, r.max])]
    else niceScale
  | none => niceScale

/-- The labels of a mark that shows a field. -/
def labelsOf (dataLabel showAll digits : Value) (unit : Option ValueUnit) (field : Value) :
    Result (List LabelSpec) := do
  if ← dataLabel.truth then
    let format :=
      if digits.isNull && unit.isNone then none
      else some (Encoding.computed (.formatValue digits unit))
    let selector := if ← showAll.truth then .null else .text "last"
    return [{ text := field, hideOverlap := .bool true, selector, format }]
  else return []

/-- The binding of a configuration, its blank field filled by a default; it must be bound. -/
def temporalOf (family : Family) (binding : Option Binding) (default : Value) :
    Result (Option Binding) :=
  match binding with
  | none => .ok none
  | some b => do
    let bound ← b.withDefaultField default
    if bound.isBound then return some bound
    else throw (.missingField family "temporal.field")

/-- The scales with a palette as the range of the colors. -/
def withPalette (colors : Option (List Value)) (scales : Entries (Entries Value)) :
    Entries (Entries Value) :=
  match colors with
  | some (c :: rest) => scales ++ [(.text "color", [(.text "range", .list (c :: rest))])]
  | _ => scales

/-- The channels that are bound to a field, in order. -/
def channels : List (String × Value) → Result (Entries Encoding)
  | [] => .ok []
  | (name, field) :: rest => do
    let bound ← field.truth
    let others ← channels rest
    return if bound then (.text name, .field field) :: others else others

/-- A transform by its name. -/
def transform (name : String) : Entries Value := [(.text "type", .text name)]

/-! ## Families -/

/-- The specification of a line or an area. -/
def TimeSeriesConfig.compile (c : TimeSeriesConfig) (theme : Theme) : Result Spec := do
  requireRoles c.family [("x_axis", c.xAxis), ("y_axis", c.yAxis)]
  let shape : Entries Value :=
    if c.lineStyle = some .curve then [(.text "shape", .text "smooth")]
    else if c.isArea then [] else [(.text "shape", .text "line")]
  let encode ← channels [("x", c.xAxis), ("y", c.yAxis), ("color", c.color)]
  let labels ← labelsOf c.dataLabel c.showAll c.fractionDigits c.unit c.yAxis
  let mark : Mark :=
    { type := .text c.family.name
      encode
      style := (.text "connect", .bool true) :: shape
      labels }
  let points ← c.points.truth
  let overlay : List Mark :=
    if points && !c.isArea then [{ type := .text "point", encode, tooltip := .bool false }] else []
  let colored ← if c.isArea then c.color.truth else pure false
  let mask : Entries Value := if ← c.xFormat.truth then [(.text "mask", c.xFormat)] else []
  let scales : Entries (Entries Value) :=
    [(.text "x", (.text "type", .text "time") :: mask), (.text "y", valueScale c.yRange)]
  let axes ← axesOf c.xTitle c.xGridlines none c.yTitle c.gridlines c.yTickLabel
  let legend ← legendOf c.legend
  let temporal ← temporalOf c.family c.temporal c.xAxis
  return {
    marks := mark :: overlay
    scales := withPalette c.colors scales
    transforms := if colored then [transform "stackY"] else []
    axes
    legend
    streaming := c.policy
    temporal
    theme := .text theme.word }

/-- The specification of bars or columns. -/
def BarConfig.compile (c : BarConfig) (theme : Theme) : Result Spec := do
  requireRoles c.family [("x_axis", c.xAxis), ("y_axis", c.yAxis)]
  let encode ← channels [("x", c.xAxis), ("y", c.yAxis), ("color", c.color)]
  let labels ← labelsOf c.dataLabel c.showAll c.fractionDigits c.unit c.yAxis
  let mark : Mark := { type := .text "interval", encode, labels }
  let colored ← c.color.truth
  let grouping := transform (if c.groupType = some .stack then "stackY" else "dodgeX")
  let scales : Entries (Entries Value) :=
    [(.text "x", [(.text "type", .text "band"),
        (.text "padding", .double (Double.ofFraction 1 2))]),
      (.text "y", valueScale c.yRange)]
  let axes ← axesOf c.xTitle c.xGridlines c.xTickLabel c.yTitle c.gridlines c.yTickLabel
  let legend ← legendOf c.legend
  let temporal ← temporalOf c.family c.temporal c.xAxis
  return {
    marks := [mark]
    scales := withPalette c.colors scales
    transforms := if colored then [grouping] else []
    coordinate :=
      if c.isBar then
        some [(.text "transforms", .list [.dict (transform "transpose")])]
      else none
    axes
    legend
    streaming := c.policy
    temporal
    theme := .text theme.word }

/-- The specification of a single value. -/
def SingleValueConfig.compile (c : SingleValueConfig) (theme : Theme) : Result Spec := do
  requireRoles .singleValue [("y_axis", c.yAxis)]
  let change : Entries Value :=
    if ← c.delta.truth then
      [(.text "delta", .dict [(.text "increaseColor", c.increaseColor),
        (.text "decreaseColor", c.decreaseColor)])]
    else []
  let label : LabelSpec :=
    { text := c.yAxis
      selector := .text "last"
      format := some (.computed (.formatValue c.fractionDigits c.unit)) }
  let number : Mark :=
    { type := .text "text"
      encode := [(.text "text", .field c.yAxis)]
      style := (.text "fontSize", c.fontSize) :: (.text "fill", c.color) :: change
      labels := [label] }
  let history : List Mark :=
    if ← c.sparkline.truth then
      [{ type := .text "line"
         encode := [(.text "y", .field c.yAxis)]
         style := [(.text "stroke", c.sparklineColor)]
         tooltip := .bool false }]
    else []
  let temporal ← temporalOf .singleValue c.temporal c.yAxis
  return {
    marks := number :: history
    scales := [(.text "y", niceScale)]
    legend := .hidden
    tooltip := .bool false
    streaming := c.policy
    temporal
    theme := .text theme.word }

/-- The entry of a column in the style of a table; a hidden column has none. -/
def columnEntry (name : String) (style : Option ColumnStyle) : Result (Option Value) :=
  match style with
  | none => fail .attribute
  | some s => do
    if ← s.shown.truth then
      let title := if ← s.name.truth then s.name else .text name
      let width : Entries Value := if s.width.isNull then [] else [(.text "width", s.width)]
      let plain ← s.miniChart.isWord noMiniChart
      let chart : Entries Value := if plain then [] else [(.text "miniChart", s.miniChart)]
      let color : Entries Value ←
        if s.color.isNull then pure [] else do pure [(.text "color", .dict (← s.color.toEntries))]
      return some (.dict
        ([(.text "field", .text name), (.text "title", title)] ++ width ++ chart ++ color))
    else return none

/-- The entries of the shown columns, in order. -/
def columnEntries : List (String × Option ColumnStyle) → Result (List Value)
  | [] => .ok []
  | (name, style) :: rest => do
    let entry ← columnEntry name style
    let others ← columnEntries rest
    return entry.toList ++ others

/-- The specification of a table. -/
def TableConfig.compile (c : TableConfig) (theme : Theme) : Result Spec := do
  let wrap ← c.wrap.truth
  let columns : Entries Value ←
    match c.styles with
    | some (s :: rest) => do pure [(.text "columns", .list (← columnEntries (s :: rest)))]
    | _ => pure []
  let temporal ← temporalOf .table c.temporal .null
  return {
    marks := [{ type := .text "cell", style := (.text "wrap", .bool wrap) :: columns }]
    legend := .hidden
    streaming := c.policy
    temporal
    theme := .text theme.word }

/-- The scale of point sizes, which has a range if both bounds are given. -/
def sizeScale (s : SizeEncoding) : Entries Value :=
  (.text "type", .text "linear") ::
    if s.min.isNull || s.max.isNull then [] else [(.text "range", .list [s.min, s.max])]

/-- The specification of points on a map. -/
def GeoConfig.compile (c : GeoConfig) (theme : Theme) : Result Spec := do
  requireRoles .geo [("longitude", c.longitude), ("latitude", c.latitude)]
  let size := c.size.getD {}
  let opacity : Entries Value ←
    if c.pointOpacity.isNull then pure []
    else do pure [(.text "opacity", .double (← c.pointOpacity.toDouble))]
  let filled ← if ← c.pointColor.truth then do pure !(← c.color.truth) else pure false
  let fill : Entries Value := if filled then [(.text "fill", c.pointColor)] else []
  let sized ← size.key.truth
  let scales : Entries (Entries Value) := if sized then [(.text "size", sizeScale size)] else []
  let center : Entries Value := match c.center with
    | some (latitude, longitude) =>
      [(.text "center", .list [.double latitude, .double longitude])]
    | none => []
  let zoom : Entries Value ←
    if c.zoom.isNull then pure [] else do pure [(.text "zoom", .int (← c.zoom.toInt))]
  let tiles : Entries Value :=
    if ← c.tileProvider.truth then [(.text "tileProvider", c.tileProvider)] else []
  let encode ← channels
    [("longitude", c.longitude), ("latitude", c.latitude), ("color", c.color), ("size", size.key)]
  let colored ← c.color.truth
  let temporal ← temporalOf .geo c.temporal c.longitude
  return {
    marks := [{ type := .text "point", encode, style := opacity ++ fill }]
    scales := withPalette c.colors scales
    coordinate := some ((.text "type", .text "geo") :: center ++ zoom ++ tiles)
    legend := if colored then .shown {} else .hidden
    streaming := c.policy
    temporal
    theme := .text theme.word }

/-- The channels of a mark of a price chart. -/
def priceChannels (color : Computed) (fields : List (String × Value)) : Entries Encoding :=
  fields.map (fun (name, field) => (.text name, .field field)) ++
    [(.text "color", .computed color)]

/-- The specification of a price chart: a wick from low to high, and a body or two ticks. -/
def PriceConfig.compile (c : PriceConfig) (theme : Theme) : Result Spec := do
  requireRoles c.family
    [("time", c.time), ("open", c.openField), ("high", c.highField), ("low", c.lowField),
      ("close", c.closeField)]
  let color := Computed.candleColor c.openField c.closeField c.bullishColor c.bearishColor
  let wick : Mark :=
    { type := .text "link"
      encode := priceChannels color [("x", c.time), ("y", c.lowField), ("y1", c.highField)] }
  let tick := fun (field : Value) (shape : String) =>
    { type := .text "point"
      encode := priceChannels color [("x", c.time), ("y", field)]
      style := [(.text "shape", .text shape)]
      tooltip := .bool false : Mark }
  let bodies : List Mark :=
    if c.isCandlestick then
      [{ type := .text "interval"
         encode := priceChannels color [("x", c.time), ("y", c.openField), ("y1", c.closeField)] }]
    else [tick c.openField "tick-left", tick c.closeField "tick-right"]
  let temporal ← temporalOf c.family c.temporal c.time
  return {
    marks := wick :: bodies
    scales := [(.text "x", [(.text "type", .text "time")]), (.text "y", niceScale)]
    axes := [(.text "x", { grid := .bool false }), (.text "y", { grid := .bool true })]
    legend := .hidden
    streaming := c.policy
    temporal
    theme := .text theme.word }

/-! ## Every family -/

/-- The specification of a configuration. -/
def Config.compile (c : Config) (theme : Theme) : Result Spec :=
  match c with
  | .timeSeries c => c.compile theme
  | .bars c => c.compile theme
  | .singleValue c => c.compile theme
  | .table c => c.compile theme
  | .geo c => c.compile theme
  | .price c => c.compile theme

/-- The theme of a chart unless another is asked for. -/
def defaultTheme : Value := .text Theme.dark.word

/-- The theme that a value names.  An array of one element that is its word is kept as the theme. -/
def themeOf (v : Value) : Result Theme := do
  match ← Value.choose? Theme.word Theme.all v with
  | some theme => return theme
  | none => throw (.theme v)

/-- A configuration with its specification. -/
def compileConfig (config theme : Value) : Result (Config × Spec) := do
  let theme ← themeOf theme
  let c ← Config.ofMapping config
  return (c, ← c.compile theme)

/-- The specification of an untyped configuration and theme. -/
def compileChart (config theme : Value) : Result Spec := do
  return (← compileConfig config theme).2

/-- What is reported of a compilation. -/
def compileLines (family : Family) (spec : Spec) : List Log.Line :=
  [⟨.debug, .compiler, "compiled " ++ family.name ++ " chart: " ++ spec.describe⟩]

end LiveChart
