import LiveChart.Schema.Column
import LiveChart.Log
/-!
# Canonical rows

A row comes as a mapping of fields or as a list of values in the order of the columns.  Its
canonical form is a mapping.  A row of another shape or length is rejected, and a batch goes on
without it.

* `normalize` : the canonical form of a row;
* `accepted` and `rejected` : what becomes of a batch;
* `accepted_append`, `rejected_append` : a batch is treated row by row.
-/

namespace LiveChart

/-- Whether a row gives its values by position. -/
def isPositional (row : Value) : Bool := row.positions?.isSome

/-- The fields of a positional row. -/
def rowOfPositions (columns : List Column) (items : List Value) : Row :=
  Entries.ofFields ((columns.map Column.name).zip items)

/-- The canonical form of a row. -/
def normalize (columns : List Column) (row : Value) : Result Row :=
  match row with
  | .dict entries => .ok entries
  | row =>
    match row.positions? with
    | some items =>
      if items.length = columns.length then .ok (rowOfPositions columns items)
      else .error (.rowLength columns.length items.length)
    | none => .error (.rowShape row.kind)

/-- The columns that a keyed row should have and lacks. -/
def missingColumns (columns : List Column) (row : Row) : List String :=
  (columns.filter fun c =>
    !c.nullable && (Value.ofOption (Entries.field? c.name row)).isNull).map Column.name

/-- What is reported of a row by itself: the columns that a keyed row lacks. -/
def rowLines (columns : List Column) (row : Value) : List Log.Line :=
  match row with
  | .dict entries =>
    match missingColumns columns entries with
    | [] => []
    | missing =>
      [⟨.debug, .rows, "Keyed row lacks non-nullable columns " ++
        (Value.list (missing.map .text)).quoted⟩]
  | _ => []

/-! ## Batches -/

/-- The canonical forms of the rows of a batch that have one, in order. -/
def accepted (columns : List Column) (rows : List Value) : List Row :=
  rows.filterMap fun row => (normalize columns row).toOption

/-- How many rows of a batch have no canonical form. -/
def rejected (columns : List Column) (rows : List Value) : Nat :=
  rows.countP fun row => !(normalize columns row).isOk

/-- What is reported of the rows of a batch, numbered from `start`. -/
def batchLinesFrom (columns : List Column) : Nat → List Value → List Log.Line
  | _, [] => []
  | start, row :: rest =>
    let skipped := match normalize columns row with
      | .ok _ => []
      | .error e =>
        [⟨.warning, .rows, "Skipping row " ++ toString start ++ ": " ++ e.message?.getD ""⟩]
    rowLines columns row ++ skipped ++ batchLinesFrom columns (start + 1) rest

/-- What is reported of a batch. -/
def batchLines (columns : List Column) (rows : List Value) : List Log.Line :=
  batchLinesFrom columns 0 rows

/-- The rows of two batches are accepted one after another. -/
theorem accepted_append (columns : List Column) (a b : List Value) :
    accepted columns (a ++ b) = accepted columns a ++ accepted columns b :=
  List.filterMap_append

/-- The rejected rows of two batches add up. -/
theorem rejected_append (columns : List Column) (a b : List Value) :
    rejected columns (a ++ b) = rejected columns a + rejected columns b :=
  List.countP_append

end LiveChart
