import LiveChart.Value.Arguments
/-!
# Parts of configurations

Small records that a configuration embeds: bounds of an axis, the unit of a number, the size of a
point, and the style of a table's column.  Each is read from a mapping or from named arguments.
-/

namespace LiveChart

/-! ## Bounds of an axis -/

/-- The bounds of an axis, either of which may be absent. -/
structure AxisRange where
  min : Value := .null
  max : Value := .null

namespace AxisRange

/-- Bounds from named arguments. -/
def ofArguments (v : Value) : Result AxisRange := do
  let args ← Arguments.ofValue ["min", "max"] [] v
  return ⟨args.get "min", args.get "max"⟩

/-- Bounds from a mapping. -/
def ofMapping (v : Value) : Result AxisRange := do
  return ⟨.ofOption (← v.member "min"), .ofOption (← v.member "max")⟩

/-- Whether both bounds are there. -/
def isComplete (r : AxisRange) : Bool := !r.min.isNull && !r.max.isNull

end AxisRange

/-! ## Units -/

/-- The unit of a number and its side. -/
structure ValueUnit where
  side : UnitSide := .left
  value : Value := .text ""

namespace ValueUnit

/-- A unit of the given parts.  An array of one element that is the word for a side is kept as the
side. -/
def ofValues (position value : Value) : Result ValueUnit := do
  match ← Value.choose? UnitSide.word UnitSide.all position with
  | some side => return ⟨side, value⟩
  | none => throw (.unitSide position)

/-- A unit from named arguments. -/
def ofArguments (v : Value) : Result ValueUnit := do
  let args ← Arguments.ofValue ["position", "value"] [] v
  ofValues (args.get "position" (.text UnitSide.left.word)) (args.get "value" (.text ""))

/-- A unit from a mapping, its value taken as text. -/
def ofMapping (v : Value) : Result ValueUnit := do
  let position := (← v.member "position").getD (.text UnitSide.left.word)
  let value := (← v.member "value").getD (.text "")
  ofValues position (.text value.plain)

/-- The quoted text of a unit. -/
def quoted (u : ValueUnit) : String :=
  "Unit(position=" ++ Text.quote u.side.word ++ ", value=" ++ u.value.quoted ++ ")"

/-- Equality of units. -/
def same (u w : ValueUnit) : Bool := u.side == w.side && u.value.same w.value

end ValueUnit

/-! ## Sizes of points -/

/-- The field that gives the size of a point, and the range of the sizes. -/
structure SizeEncoding where
  key : Value := .null
  min : Value := .null
  max : Value := .null

namespace SizeEncoding

/-- A size from named arguments. -/
def ofArguments (v : Value) : Result SizeEncoding := do
  let args ← Arguments.ofValue ["key", "min", "max"] [] v
  return ⟨args.get "key", args.get "min", args.get "max"⟩

/-- A size from a mapping. -/
def ofMapping (v : Value) : Result SizeEncoding := do
  return ⟨.ofOption (← v.member "key"), .ofOption (← v.member "min"), .ofOption (← v.member "max")⟩

end SizeEncoding

/-! ## Styles of columns -/

/-- The word for no chart within a cell. -/
def noMiniChart : String := "none"

/-- The style of a table's column. -/
structure ColumnStyle where
  name : Value := .null
  shown : Value := .bool true
  width : Value := .null
  miniChart : Value := .text noMiniChart
  color : Value := .null

namespace ColumnStyle

/-- A style from named arguments. -/
def ofArguments (v : Value) : Result ColumnStyle := do
  let args ← Arguments.ofValue ["name", "show", "width", "mini_chart", "color"] [] v
  return {
    name := args.get "name"
    shown := args.get "show" (.bool true)
    width := args.get "width"
    miniChart := args.get "mini_chart" (.text noMiniChart)
    color := args.get "color" }

/-- A style from a mapping. -/
def ofMapping (v : Value) : Result ColumnStyle := do
  let name := Value.ofOption (← v.member "name")
  let shown ← ((← v.member "show").getD (.bool true)).truth
  let width := Value.ofOption (← v.member "width")
  let miniChart ← match ← v.member "miniChart" with
    | some w => pure w
    | none => pure ((← v.member "mini_chart").getD (.text noMiniChart))
  let color := Value.ofOption (← v.member "color")
  return { name, shown := .bool shown, width, miniChart, color }

end ColumnStyle

/-! ## Embedded parts -/

/-- A part of a configuration: absent, or read from a mapping. -/
def embedded {α : Type} (ofMapping : Value → Result α) (part label : String) (v : Value) :
    Result (Option α) :=
  match v with
  | .null => .ok none
  | .dict _ => do return some (← ofMapping v)
  | v => .error (.partShape label part v.kind)

end LiveChart
