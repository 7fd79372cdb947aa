import LiveChart.Chart.Computed
import LiveChart.Chart.Policy
import LiveChart.Temporal.Binding
/-!
# Compiled specifications

A specification holds all that a renderer needs besides the rows: marks with their channels, scales,
transforms, the coordinate system, axes, legend, tooltip, and the policy and the binding that the
rows are kept under.  Its wire form leaves out what is not set.

* `Spec.toWire` : the wire form;
* `Spec.scale` : the scale of a channel;
* `Spec.same` : equality part by part.
-/

namespace LiveChart

/-! ## Parts -/

/-- What a channel shows: a field, or a function of the datum. -/
inductive Encoding where
  | field (v : Value)
  | computed (f : Computed)

/-- A label of a mark. -/
structure LabelSpec where
  text : Value
  hideOverlap : Value := .bool false
  /-- Which data points are labelled. -/
  selector : Value := .null
  format : Option Encoding := none

/-- A kind of mark with its channels. -/
structure Mark where
  type : Value
  encode : Entries Encoding := []
  style : Entries Value := []
  labels : List LabelSpec := []
  tooltip : Value := .null

/-- An axis of a chart. -/
structure AxisSpec where
  title : Value := .bool false
  grid : Value := .bool false
  /-- The length that labels are cut to. -/
  labelLimit : Value := .null

/-- The legend of a chart. -/
structure LegendSpec where
  position : Value := .text LegendPosition.bottom.word
  interactive : Value := .bool true

/-- What is said of the legend: nothing, that there is none, or how it looks. -/
inductive Legend where
  | unset
  | hidden
  | shown (spec : LegendSpec)

/-- A compiled chart. -/
structure Spec where
  marks : List Mark
  scales : Entries (Entries Value) := []
  transforms : List (Entries Value) := []
  coordinate : Option (Entries Value) := none
  axes : Entries AxisSpec := []
  legend : Legend := .unset
  tooltip : Value := .null
  streaming : Policy := {}
  temporal : Option Binding := none
  theme : Value := .text Theme.dark.word
  animate : Value := .bool false

/-! ## The wire form -/

/-- The wire form of a specification: values, functions, and records of both. -/
inductive Wire where
  | value (v : Value)
  | computed (f : Computed)
  | list (items : List Wire)
  | record (fields : List (Value × Wire))

namespace Wire

/-- A record with named fields. -/
def named (fields : List (String × Wire)) : Wire :=
  .record (fields.map fun (name, w) => (.text name, w))

/-- Values by key. -/
def ofEntries (entries : Entries Value) : Wire :=
  .record (entries.map fun (k, v) => (k, .value v))

/-- A field that is left out when its value is absent. -/
def optional (name : String) (v : Value) : List (String × Wire) :=
  if v.isNull then [] else [(name, .value v)]

end Wire

/-- The wire form of what a channel shows. -/
def Encoding.toWire : Encoding → Wire
  | .field v => .value v
  | .computed f => .computed f

/-- The wire form of a label. -/
def LabelSpec.toWire (l : LabelSpec) : Wire :=
  .named ([("text", .value l.text), ("overlapHide", .value l.hideOverlap)] ++
    Wire.optional "selector" l.selector ++
    (match l.format with
    | some e => [("format", e.toWire)]
    | none => []))

/-- The wire form of a mark. -/
def Mark.toWire (m : Mark) : Wire :=
  .named ([("type", .value m.type),
      ("encode", .record (m.encode.map fun (k, e) => (k, e.toWire)))] ++
    (if m.style.isEmpty then [] else [("style", Wire.ofEntries m.style)]) ++
    (if m.labels.isEmpty then [] else [("labels", .list (m.labels.map LabelSpec.toWire))]) ++
    Wire.optional "tooltip" m.tooltip)

/-- The wire form of an axis. -/
def AxisSpec.toWire (a : AxisSpec) : Wire :=
  .named ([("title", .value a.title), ("grid", .value a.grid)] ++
    (if a.labelLimit.isNull then []
    else [("labels", .named [("maxLength", .value a.labelLimit)])]))

/-- The wire form of a legend. -/
def LegendSpec.toWire (l : LegendSpec) : Wire :=
  .named [("position", .value l.position), ("interactive", .value l.interactive)]

namespace Spec

/-- The scale of a channel; an unset one is empty. -/
def scale (s : Spec) (channel : String) : Entries Value :=
  (Entries.field? channel s.scales).getD []

/-- The wire form of a specification, by name. -/
def toFields (s : Spec) : List (String × Wire) :=
  [("marks", .list (s.marks.map Mark.toWire)),
    ("scales", .record (s.scales.map fun (k, scale) => (k, Wire.ofEntries scale)))] ++
  (if s.transforms.isEmpty then []
    else [("transforms", .list (s.transforms.map Wire.ofEntries))]) ++
  (match s.coordinate with
    | some c => [("coordinate", Wire.ofEntries c)]
    | none => []) ++
  (if s.axes.isEmpty then []
    else [("axes", .record (s.axes.map fun (k, a) => (k, a.toWire)))]) ++
  (match s.legend with
    | .unset => []
    | .hidden => [("legend", .value (.bool false))]
    | .shown l => [("legend", l.toWire)]) ++
  Wire.optional "tooltip" s.tooltip ++
  [("streaming", .named (s.streaming.toFields.map fun (name, v) => (name, .value v)))] ++
  (match s.temporal with
    | some b => [("temporal", .named (b.toFields.map fun (name, v) => (name, .value v)))]
    | none => []) ++
  [("theme", .value s.theme), ("animate", .value s.animate)]

/-- The wire form of a specification. -/
def toWire (s : Spec) : Wire := .named s.toFields

/-- The kinds of marks and the theme, in words. -/
def describe (s : Spec) : String :=
  "CompiledSpec(marks=[" ++ ", ".intercalate (s.marks.map fun m => m.type.plain) ++ "], theme=" ++
    s.theme.quoted ++ ")"

end Spec

/-! ## Equality -/

/-- Equality of lists, item by item. -/
def sameList {α : Type} (same : α → α → Bool) : List α → List α → Bool
  | [], [] => true
  | a :: as, b :: bs => same a b && sameList same as bs
  | _, _ => false

/-- Equality of optional values. -/
def sameOption {α : Type} (same : α → α → Bool) : Option α → Option α → Bool
  | none, none => true
  | some a, some b => same a b
  | _, _ => false

/-- Equality of entries without regard to order. -/
def sameEntries {α : Type} (same : α → α → Bool) (xs ys : Entries α) : Bool :=
  xs.length == ys.length && xs.all fun (k, a) => ys.any fun (l, b) => k.same l && same a b

/-- Equality of values by key. -/
def sameFields (xs ys : Entries Value) : Bool := sameEntries Value.same xs ys

/-- Equality of encodings. -/
def Encoding.same : Encoding → Encoding → Bool
  | .field v, .field w => v.same w
  | .computed f, .computed g => f.same g
  | _, _ => false

/-- Equality of labels. -/
def LabelSpec.same (a b : LabelSpec) : Bool :=
  a.text.same b.text && a.hideOverlap.same b.hideOverlap && a.selector.same b.selector &&
    sameOption Encoding.same a.format b.format

/-- Equality of marks. -/
def Mark.same (a b : Mark) : Bool :=
  a.type.same b.type && sameEntries Encoding.same a.encode b.encode && sameFields a.style b.style &&
    sameList LabelSpec.same a.labels b.labels && a.tooltip.same b.tooltip

/-- Equality of axes. -/
def AxisSpec.same (a b : AxisSpec) : Bool :=
  a.title.same b.title && a.grid.same b.grid && a.labelLimit.same b.labelLimit

/-- Equality of legends. -/
def Legend.same : Legend → Legend → Bool
  | .unset, .unset => true
  | .hidden, .hidden => true
  | .shown a, .shown b => a.position.same b.position && a.interactive.same b.interactive
  | _, _ => false

/-- Equality of bindings. -/
def Binding.same (a b : Binding) : Bool :=
  a.mode == b.mode && a.field == b.field && a.range.toValue.same b.range.toValue &&
    sameOption Value.same a.orderField b.orderField

namespace Spec

/-- Equality of the marks of two specifications. -/
def sameMarks (s t : Spec) : Bool := sameList Mark.same s.marks t.marks

/-- Equality of the scales of two specifications. -/
def sameScales (s t : Spec) : Bool := sameEntries sameFields s.scales t.scales

/-- Equality of the bindings of two specifications. -/
def sameTemporal (s t : Spec) : Bool := sameOption Binding.same s.temporal t.temporal

/-- Equality of the policies of two specifications. -/
def sameStreaming (s t : Spec) : Bool := s.streaming.same t.streaming

/-- Equality of specifications, part by part. -/
def same (s t : Spec) : Bool :=
  s.sameMarks t && s.sameScales t && sameList sameFields s.transforms t.transforms &&
    sameOption sameFields s.coordinate t.coordinate && sameEntries AxisSpec.same s.axes t.axes &&
    s.legend.same t.legend && s.tooltip.same t.tooltip && s.sameStreaming t && s.sameTemporal t &&
    s.theme.same t.theme && s.animate.same t.animate

end Spec

end LiveChart
