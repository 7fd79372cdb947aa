import LiveChart.Value.Arguments
/-!
# Temporal bindings

A binding says how a chart is bound to time: its mode, its field or fields, the length of its
window, and in key mode the field whose latest time decides.  Many spellings are accepted and one
is kept.

* `Binding.ofValues` : a binding from its four parts, each checked;
* `Binding.ofMapping` and `Binding.toMapping` : its wire form, read and written;
* `Binding.withDefaultField` : a blank field filled in.
-/

namespace LiveChart

/-! ## Fields -/

/-- A bound field: one name, or one or more names that make a composite key. -/
inductive FieldSpec where
  | name (s : String)
  | names (first : String) (rest : List String)
  deriving DecidableEq

namespace FieldSpec

/-- The names of a field, in order. -/
def toList : FieldSpec → List String
  | .name s => [s]
  | .names first rest => first :: rest

/-- The first name of a field. -/
def first : FieldSpec → String
  | .name s => s
  | .names s _ => s

/-- A composite field of some names, if there are any. -/
def ofNames? : List String → Option FieldSpec
  | [] => none
  | s :: rest => some (.names s rest)

/-- A field as a value. -/
def toValue : FieldSpec → Value
  | .name s => .text s
  | .names s rest => .tuple ((s :: rest).map .text)

/-- The plain texts of the items that are not blank. -/
def itemNames : List Value → Result (List String)
  | [] => .ok []
  | v :: rest => do
    let kept ← v.truth
    let names ← itemNames rest
    return if kept then v.plain :: names else names

/-- The field that a value gives; a blank one is no field. -/
def ofValue (v : Value) : Result (Option FieldSpec) :=
  match v with
  | .null => .ok none
  | .text s => .ok (if s.isEmpty then none else some (.name s))
  | .list items | .tuple items => do return ofNames? (← itemNames items)
  | .scalar (.bytes bs) | .scalar (.byteArray bs) =>
    do return ofNames? (← itemNames (bs.map Value.ofByte))
  | v => .error (.temporalField v)

end FieldSpec

/-! ## Ranges -/

/-- The length of a window: none, or minutes that are not below zero. -/
inductive Range where
  | infinite
  | minutes (length : Double) (nonneg : Double.zero.le length = true)
  deriving DecidableEq

namespace Range

/-- The word for a window without end. -/
def infiniteWord : String := "infinite"

/-- The words that are read as a window without end. -/
def infiniteWords : List String := ["infinite", "infinity", "inf"]

/-- The range of a number of minutes, which is not below zero. -/
def ofMinutes (given : Value) (length : Double) : Result Range :=
  match length with
  | .infinite false => .ok .infinite
  | _ =>
    if h : Double.zero.le length = true then .ok (.minutes length h)
    else .error (.temporalRangeSign given)

/-- The minutes of a duration. -/
def minutesOf (d : Duration) : Double :=
  (Double.ofFraction d.micros 1000000).div (.ofNat 60)

/-- The range that a value gives: nothing or a word for an infinite one, minutes, or a duration. -/
def ofValue (v : Value) : Result Range :=
  match v with
  | .null => .ok .infinite
  | .scalar s =>
    match s with
    | .text word =>
      if infiniteWords.contains (Text.lowercase (Text.trim word)) then .ok .infinite
      else .error (.temporalRange v)
    | .duration d => ofMinutes v (minutesOf d)
    | .int _ | .double _ | .fixedInt .. | .fixedFloat .. => do ofMinutes v (← v.toDouble)
    | _ => .error (.temporalRange v)
  | v => .error (.temporalRange v)

/-- A range as a value. -/
def toValue : Range → Value
  | .infinite => .text infiniteWord
  | .minutes length _ => .double length

/-- The milliseconds of a window that ends. -/
def window? : Range → Option Double
  | .infinite => none
  | .minutes length _ => some (length.mul (.ofNat 60000))

end Range

/-! ## Bindings -/

/-- How a chart is bound to time. -/
structure Binding where
  mode : TemporalMode
  field : Option FieldSpec := none
  range : Range := .infinite
  /-- In key mode, the field whose latest time decides between the rows of a key. -/
  orderField : Option Value := none

namespace Binding

/-- The mode that a value names.  An array of one element that is its word is kept as the mode; that
such an array could resolve no view is left out. -/
def modeOf (v : Value) : Result TemporalMode := do
  match ← Value.choose? TemporalMode.word TemporalMode.all v with
  | some mode => return mode
  | none => throw (.temporalMode v)

/-- A binding of the given parts. -/
def ofValues (mode field range orderField : Value) : Result Binding := do
  let mode ← modeOf mode
  let field ← FieldSpec.ofValue field
  let range ← Range.ofValue range
  if !orderField.isNull && mode != .key then throw .orderField
  return { mode, field, range, orderField := orderField.toOption }

/-- A binding from named arguments, of which the mode is needed. -/
def ofArguments (v : Value) : Result Binding := do
  let args ← Arguments.ofValue ["mode", "field", "range", "order_field"] ["mode"] v
  ofValues (args.get "mode") (args.get "field") (args.get "range" (.text Range.infiniteWord))
    (args.get "order_field")

/-- A binding from its wire form. -/
def ofMapping (v : Value) : Result Binding := do
  let mode ← v.itemAt (.text "mode")
  let get := fun name => do return Value.ofOption (← v.member name)
  let orderField ← match ← v.member "orderField" with
    | some w => pure w
    | none => get "order_field"
  ofValues mode (← get "field") (← get "range") orderField

/-- The names of the bound fields. -/
def keyFields (b : Binding) : List String :=
  match b.field with
  | some field => field.toList
  | none => []

/-- The field that times are read from. -/
def timeField (b : Binding) : Option String := b.field.map FieldSpec.first

/-- Whether a field is bound. -/
def isBound (b : Binding) : Bool := b.field.isSome

/-- Whether the window has no end. -/
def isInfinite (b : Binding) : Bool := b.range == .infinite

/-- Whether a default would fill a blank field. -/
def takesDefault (b : Binding) (default : Value) : Bool := !b.isBound && !default.isNull

/-- The binding with a blank field filled in. -/
def withDefaultField (b : Binding) (default : Value) : Result Binding :=
  if b.takesDefault default then do
    let field ← FieldSpec.ofValue default
    return { b with field }
  else .ok b

/-- The wire form of a binding's field. -/
def fieldMapping : Option FieldSpec → Value
  | none => .null
  | some (.name s) => .text s
  | some (.names s rest) => .list ((s :: rest).map .text)

/-- The wire form of a binding, by name. -/
def toFields (b : Binding) : List (String × Value) :=
  [("mode", .text b.mode.word), ("field", fieldMapping b.field)] ++
    (if b.mode = .axis then [("range", b.range.toValue)] else []) ++
    (match b.orderField with
    | some v => [("orderField", v)]
    | none => [])

/-- The wire form of a binding. -/
def toMapping (b : Binding) : Value := .dict (Entries.ofFields b.toFields)

end Binding

end LiveChart
