import LiveChart.Chart.Spec
/-!
# Specifications from named arguments

A specification can also be put together by hand, from named arguments for it and for its marks,
labels, axes, legend, policy and binding.  First the parts are made, then their contents are
checked in the order in which the wire form shows them.

* `Draft.ofArguments` : the specification that named arguments give;
* `Draft.scale` : the scale of a channel as it was given.
-/

namespace LiveChart

/-- A specification made by hand, with its scales as they were given. -/
structure Draft where
  spec : Spec
  scales : Entries Value

namespace Draft

/-! ## Parts that are made first -/

/-- The parts of a mark before their contents are checked. -/
structure MarkParts where
  args : Arguments
  labels : List Arguments

/-- The parts of a label. -/
def labelParts (v : Value) : Result Arguments :=
  Arguments.ofValue ["text", "overlap_hide", "selector", "format"] ["text"] v

/-- The parts of a mark and of its labels. -/
def markParts (v : Value) : Result MarkParts := do
  let labels := (← v.member "labels").getD (.list [])
  let labels ← if ← labels.truth then do (← labels.elements).mapM labelParts else pure []
  let args ← Arguments.ofValue ["type", "encode", "style", "labels", "tooltip"] ["type"] v
  return ⟨args, labels⟩

/-- The parts of an axis. -/
def axisOf (v : Value) : Result AxisSpec := do
  let args ← Arguments.ofValue ["title", "grid", "label_max_length"] [] v
  return {
    title := args.get "title" (.bool false)
    grid := args.get "grid" (.bool false)
    labelLimit := args.get "label_max_length" }

/-- Axes by channel. -/
def axesOf (v : Value) : Result (Entries AxisSpec) :=
  match v with
  | .dict entries => entries.mapM fun (k, a) => do return (k, ← axisOf a)
  | _ => fail .attribute

/-- The legend that arguments give. -/
def legendOf (v : Value) : Result Legend := do
  let args ← Arguments.ofValue ["position", "interactive"] [] (← v.itemAt (.text "args"))
  return .shown {
    position := args.get "position" (.text LegendPosition.bottom.word)
    interactive := args.get "interactive" (.bool true) }

/-- A part that is made of an argument that holds something; any other argument stays as it is. -/
inductive Made (α : Type) where
  | made (a : α)
  | plain (v : Value)

/-- A part made of an argument, if it holds something. -/
def made {α : Type} (make : Value → Result α) (v : Value) : Result (Made α) := do
  if ← v.truth then return .made (← make v) else return .plain v

/-! ## Contents -/

/-- A label from its parts. -/
def labelOf (args : Arguments) : LabelSpec :=
  { text := args.get "text"
    hideOverlap := args.get "overlap_hide" (.bool false)
    selector := args.get "selector"
    format := (args.get "format").toOption.map .field }

/-- The dictionary of a tooltip, which may also be a bare switch. -/
def tooltipOf (v : Value) : Result Value :=
  match v with
  | .null | .bool _ => .ok v
  | v => do return .dict (← v.toEntries)

/-- A mark from its parts. -/
def markOf (parts : MarkParts) : Result Mark := do
  let args := parts.args
  let encode ← (args.get "encode" (.dict [])).toEntries
  let style := args.get "style" (.dict [])
  let style ← if ← style.truth then style.toEntries else pure []
  let tooltip ← tooltipOf (args.get "tooltip")
  return {
    type := args.get "type"
    encode := encode.map fun (k, v) => (k, .field v)
    style
    labels := parts.labels.map labelOf
    tooltip }

/-- The marks, where what holds nothing must still be a sequence. -/
def marksOf : Made (List MarkParts) → Result (List Mark)
  | .made parts => parts.mapM markOf
  | .plain v => do
    let _ ← v.elements
    return []

/-- Scales as they were given, by channel. -/
def scalesOf (v : Value) : Result (Entries Value) :=
  match v with
  | .dict entries => .ok entries
  | _ => fail .attribute

/-- The dictionaries of the elements of a value that holds something. -/
def transformsOf (v : Value) : Result (List (Entries Value)) := do
  if ← v.truth then (← v.elements).mapM Value.toEntries else return []

/-- The dictionary of a coordinate system. -/
def coordinateOf (v : Value) : Result (Option (Entries Value)) := do
  if v.isNull then return none else return some (← v.toEntries)

/-- The legend as the wire form takes it. -/
def legendPart : Made Legend → Result Legend
  | .made l => .ok l
  | .plain .null => .ok .unset
  | .plain (.bool false) => .ok .hidden
  | .plain _ => fail .attribute

/-- The tooltip of a chart, which can be switched off but not on. -/
def chartTooltipOf (v : Value) : Result Value :=
  match v with
  | .null | .bool false => .ok v
  | v => do return .dict (← v.toEntries)

/-- The policy as the wire form takes it. -/
def policyPart : Made Policy → Result Policy
  | .made p => .ok p
  | .plain _ => fail .attribute

/-- The binding as the wire form takes it. -/
def bindingPart : Made Binding → Result (Option Binding)
  | .made b => .ok (some b)
  | .plain .null => .ok none
  | .plain _ => fail .attribute

/-! ## The whole -/

/-- The names of a specification's arguments. -/
def argumentNames : List String :=
  ["marks", "scales", "transforms", "coordinate", "axes", "legend", "tooltip", "streaming",
    "temporal", "theme", "animate"]

/-- The specification that named arguments give. -/
def ofArguments (v : Value) : Result Draft := do
  let given := fun (name : String) (default : Value) => do
    return (← v.member name).getD default
  let marks ← made (fun w => do (← w.elements).mapM markParts) (← given "marks" (.list []))
  let axes ← made axesOf (← given "axes" (.dict []))
  let legend ← made legendOf (← given "legend" .null)
  let policy ← match ← v.member "streaming" with
    | some w => made Policy.ofArguments w
    | none => pure (.made {})
  let binding ← made Binding.ofArguments (← given "temporal" .null)
  let args ← Arguments.ofValue argumentNames ["marks"] v
  let marks ← marksOf marks
  let scales ← scalesOf (args.get "scales" (.dict []))
  let scaleEntries ← scales.mapM fun (k, s) => do return (k, ← s.toEntries)
  let transforms ← transformsOf (args.get "transforms" (.tuple []))
  let coordinate ← coordinateOf (args.get "coordinate")
  let legend ← legendPart legend
  let tooltip ← chartTooltipOf (args.get "tooltip")
  let streaming ← policyPart policy
  let temporal ← bindingPart binding
  unless marks.all fun m => m.type matches .text _ do fail .type
  let spec : Spec :=
    { marks
      scales := scaleEntries
      transforms
      coordinate
      axes := match axes with
        | .made a => a
        | .plain _ => []
      legend
      tooltip
      streaming
      temporal
      theme := args.get "theme" (.text Theme.dark.word)
      animate := args.get "animate" (.bool false) }
  return { spec, scales }

/-- The scale of a channel as it was given; an unset one is empty. -/
def scale (d : Draft) (channel : String) : Value :=
  (Entries.field? channel d.scales).getD (.dict [])

end Draft

end LiveChart
