import LiveChart.Value.Convert
/-!
# Columns and sources

A column has a name, a type, and a note on whether it may be missing from a row.  Columns are given
as mappings.  A source hands over the rows of a stream together with its own columns.

* `Column.ofValue` : the column that a mapping describes;
* `columnsOf` : the columns that a sequence of mappings describes;
* `Source.ofValues` : a source.
-/

namespace LiveChart

/-- A declared column of a stream. -/
structure Column where
  name : String
  type : ColumnType
  nullable : Bool
  deriving DecidableEq, Repr

/-- The type that a value names. -/
def ColumnType.ofValue (v : Value) : Result ColumnType :=
  match v with
  | .text s =>
    match ofWord? s with
    | some t => .ok t
    | none => .error (.columnType s)
  | v => .error (.columnTypeKind v.kind)

namespace Column

/-- A column of a given name and type, both checked. -/
def checked (name type : Value) (nullable : Bool) : Result Column :=
  match name with
  | .text s =>
    if s.isEmpty then .error .columnName
    else do return ⟨s, ← ColumnType.ofValue type, nullable⟩
  | _ => .error .columnName

/-- What the entries hold under the first of two names that is there. -/
def firstOf (name other : String) (entries : Entries Value) : Value :=
  .ofOption ((Entries.field? name entries).or (Entries.field? other entries))

/-- The column that the entries of a mapping describe. -/
def ofEntries (entries : Entries Value) : Result Column := do
  let type := firstOf "semanticType" "type" entries
  if type.isNull then
    throw (.columnWithoutType (.ofOption (Entries.field? "name" entries)))
  match Entries.field? "name" entries with
  | none => fail .key
  | some name =>
    let nullable ← ((Entries.field? "nullable" entries).getD (.bool false)).truth
    checked name type nullable

/-- The column that a value describes. -/
def ofValue (v : Value) : Result Column :=
  match v with
  | .dict entries => ofEntries entries
  | v => .error (.columnShape v.kind)

end Column

/-- The columns that the elements of a value describe. -/
def columnsOf (v : Value) : Result (List Column) := do
  (← v.elements).mapM Column.ofValue

/-- Rows with the columns that they are written for. -/
structure Source where
  columns : List Column
  rows : List Value
  /-- Whether more rows are expected. -/
  isLive : Value

namespace Source

/-- A source of the given columns and rows. -/
def ofValues (columns rows isLive : Value) : Result Source := do
  let columns ← columnsOf columns
  return ⟨columns, ← rows.elements, isLive⟩

/-- The names of a source's columns. -/
def columnNames (s : Source) : List String := s.columns.map Column.name

end Source

end LiveChart
