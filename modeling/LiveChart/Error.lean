import LiveChart.Chart.Family
import LiveChart.Chart.Vocabulary
import LiveChart.Schema.ColumnType
import LiveChart.Value.Display
/-!
# Errors

What can go wrong, by its cause.  A `Fault` is the failure of an operation on a value of the wrong
kind or size and has no message of its own; every other error says what was expected.

* `Error.message?` : the message of an error;
* `Result.bind_eq_ok` : when two computations in a row succeed.
-/

namespace LiveChart

/-- The failure of an operation on a value. -/
inductive Fault where
  /-- A value of the right kind that does not fit. -/
  | value
  /-- A value of a kind that the operation does not take. -/
  | type
  /-- A dictionary without the key that is asked for. -/
  | key
  /-- A value without the operation that is asked for. -/
  | attribute
  /-- A number out of range. -/
  | overflow
  /-- A sequence without the position that is asked for. -/
  | index
  deriving DecidableEq, Repr

/-- The cause of a failure. -/
inductive Error where
  /-- An operation on a value failed. -/
  | fault (f : Fault)
  /-- A positional row has another length than the schema. -/
  | rowLength (expected actual : Nat)
  /-- A row is neither positional nor keyed. -/
  | rowShape (kind : String)
  /-- A chart lacks a field for a role. -/
  | missingField (family : Family) (role : String)
  /-- A chart family is not among the supported ones. -/
  | unknownFamily (given : Value) (supported : List Family)
  /-- A theme is not among the themes. -/
  | theme (given : Value)
  /-- A legend's position is not a side. -/
  | legendPosition (given : Value)
  /-- A column's type is not a text. -/
  | columnTypeKind (kind : String)
  /-- A column's type is not a known one. -/
  | columnType (given : String)
  /-- A column has no name. -/
  | columnName
  /-- A column's type is not given. -/
  | columnWithoutType (name : Value)
  /-- A column is not described by a mapping. -/
  | columnShape (kind : String)
  /-- A temporal mode is not among the modes. -/
  | temporalMode (given : Value)
  /-- A temporal field is neither a name nor a sequence of names. -/
  | temporalField (given : Value)
  /-- A temporal range is neither minutes nor infinite. -/
  | temporalRange (given : Value)
  /-- A temporal range is below zero or not a number. -/
  | temporalRangeSign (given : Value)
  /-- An order field is given outside key mode. -/
  | orderField
  /-- A capacity is not a positive whole number. -/
  | capacity (given : Value)
  /-- A streaming mode is not among the modes. -/
  | streamingMode (given : Value)
  /-- A throttle is below zero. -/
  | throttle (given : Value)
  /-- A unit stands on neither side. -/
  | unitSide (given : Value)
  /-- A line style is not among the styles. -/
  | lineStyle (given : Value)
  /-- A grouping is not among the groupings. -/
  | groupType (given : Value)
  /-- An opacity is not between zero and one. -/
  | opacity (given : Value)
  /-- A part of a configuration is not described by a mapping. -/
  | partShape (label part kind : String)
  /-- A configuration is not a mapping. -/
  | configShape (kind : String)
  /-- A limit is below zero. -/
  | sparklineLimit
  /-- A notifier's interval is below zero. -/
  | interval
  /-- A controller is closed. -/
  | closed
  /-- A renderer failed. -/
  | render

namespace Error

/-- Names after one another, with commas. -/
def listed (names : List String) : String := ", ".intercalate names

/-- Names as a tuple of quoted texts. -/
def tupled (names : List String) : String := tupleText (names.map Text.quote)

/-- The message of an error; the failure of an operation has none. -/
def message? : Error → Option String
  | .fault _ => none
  | .rowLength expected actual =>
    some ("Positional row has " ++ toString actual ++ " values but the schema declares " ++
      toString expected ++ " columns.")
  | .rowShape kind => some ("Rows must be sequences or mappings, got " ++ kind)
  | .missingField family role =>
    some (Text.quote family.name ++ " chart requires a field bound to " ++ Text.quote role ++
      "; set " ++ role ++ "=... in the configuration.")
  | .unknownFamily given supported =>
    some ("Unknown chart family " ++ given.quoted ++ "." ++
      if supported.isEmpty then ""
      else " Expected one of: " ++ listed (supported.map Family.name) ++ ".")
  | .theme given =>
    some ("Theme must be one of " ++ tupled (Theme.all.map Theme.word) ++ ", got " ++ given.quoted)
  | .legendPosition given =>
    some ("Legend position must be one of " ++
      tupled (LegendPosition.all.map LegendPosition.word) ++ ", got " ++ given.quoted)
  | .columnTypeKind kind => some ("Column type must be a string, got " ++ kind)
  | .columnType given =>
    some ("Unknown column type " ++ Text.quote given ++ ". Expected one of: " ++
      listed (ColumnType.all.map ColumnType.name) ++ ".")
  | .columnName => some "Column name must be a non-empty string"
  | .columnWithoutType name => some ("Column " ++ name.quoted ++ " does not declare a type")
  | .columnShape kind => some ("Columns must be ColumnDescriptor or mapping, got " ++ kind)
  | .temporalMode given =>
    some ("Invalid temporal mode " ++ given.quoted ++ ", must be one of " ++
      tupled (TemporalMode.all.map TemporalMode.word))
  | .temporalField given =>
    some ("Temporal field must be a name or a sequence of names, got " ++ given.quoted)
  | .temporalRange given =>
    some ("Unsupported temporal range " ++ given.quoted ++ "; use minutes or 'infinite'")
  | .temporalRangeSign given =>
    some ("Temporal range must be >= 0 minutes, got " ++ given.quoted)
  | .orderField => some "order_field is only meaningful for key mode"
  | .capacity given => some ("max_items must be a positive integer, got " ++ given.quoted)
  | .streamingMode given =>
    some ("Invalid streaming mode " ++ given.quoted ++ ", must be one of " ++
      tupled (StreamingMode.all.map StreamingMode.word))
  | .throttle given => some ("throttle must be >= 0 ms, got " ++ given.quoted)
  | .unitSide given => some ("Unit position must be 'left' or 'right', got " ++ given.quoted)
  | .lineStyle given => some ("line_style must be 'curve' or 'straight', got " ++ given.quoted)
  | .groupType given => some ("group_type must be 'stack' or 'dodge', got " ++ given.quoted)
  | .opacity given => some ("point_opacity must be within [0, 1], got " ++ given.quoted)
  | .partShape label part kind =>
    some (label ++ " must be a " ++ part ++ " or mapping, got " ++ kind)
  | .configShape kind => some ("Chart configuration must be a mapping, got " ++ kind)
  | .sparklineLimit => some "sparkline_limit must be >= 0"
  | .interval => some "interval_ms must be >= 0"
  | .closed => some "StreamingController is closed"
  | .render => some "render failed"

end Error

/-- A computation that may fail. -/
abbrev Result (α : Type) : Type := Except Error α

/-- The failure of an operation on a value. -/
def fail {α : Type} (f : Fault) : Result α := .error (.fault f)

/-- Two computations in a row succeed just if both do. -/
theorem Result.bind_eq_ok {α β : Type} {r : Result α} {f : α → Result β} {b : β} :
    r >>= f = .ok b ↔ ∃ a, r = .ok a ∧ f a = .ok b := by
  cases r with
  | error e => exact ⟨fun h => (nomatch h), fun ⟨_, h, _⟩ => (nomatch h)⟩
  | ok a => exact ⟨fun h => ⟨a, rfl, h⟩, fun ⟨_, ha, h⟩ => Except.ok.inj ha ▸ h⟩

end LiveChart
