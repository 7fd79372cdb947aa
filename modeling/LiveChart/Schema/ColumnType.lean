import LiveChart.Text.Class
/-!
# Column types

The closed set of types that a column of a stream can have, and the words for them.

* `ColumnType.ofWord?_name` : a type is found under its name.
-/

namespace LiveChart

/-- The type of a column. -/
inductive ColumnType where
  | string | boolean | int8 | int16 | int32 | int64 | uint8 | uint16 | uint32 | uint64
  | float32 | float64 | datetime | array | object
  deriving DecidableEq, Repr

namespace ColumnType

/-- Every type, in order. -/
def all : List ColumnType :=
  [.string, .boolean, .int8, .int16, .int32, .int64, .uint8, .uint16, .uint32, .uint64,
    .float32, .float64, .datetime, .array, .object]

/-- The name of a type. -/
def name : ColumnType → String
  | .string => "string"
  | .boolean => "boolean"
  | .int8 => "int8"
  | .int16 => "int16"
  | .int32 => "int32"
  | .int64 => "int64"
  | .uint8 => "uint8"
  | .uint16 => "uint16"
  | .uint32 => "uint32"
  | .uint64 => "uint64"
  | .float32 => "float32"
  | .float64 => "float64"
  | .datetime => "datetime"
  | .array => "array"
  | .object => "object"

/-- Other words for types. -/
def aliases : List (String × ColumnType) :=
  [("number", .float64), ("float", .float64), ("double", .float64), ("bool", .boolean),
    ("datetime64", .datetime), ("date", .datetime), ("date32", .datetime),
    ("timestamp", .datetime), ("text", .string), ("varchar", .string), ("char", .string),
    ("fixedstring", .string)]

/-- The words for types, the names before the other words. -/
def words : List (String × ColumnType) := all.map (fun t => (t.name, t)) ++ aliases

/-- The type of a word, in whatever case and between blanks. -/
def ofWord? (s : String) : Option ColumnType := words.lookup (Text.lowercase (Text.trim s))

/-- A type is found under its name. -/
theorem ofWord?_name (t : ColumnType) : ofWord? t.name = some t := by
  cases t <;> decide +kernel

/-- The element kind in which the values of a column are stored. -/
def storage : ColumnType → String
  | .boolean => "bool"
  | .datetime => "datetime64[ms]"
  | .string | .array | .object => "object"
  | t => t.name

/-- Whether a type is numeric. -/
def isNumeric : ColumnType → Bool
  | .int8 | .int16 | .int32 | .int64 | .uint8 | .uint16 | .uint32 | .uint64
  | .float32 | .float64 => true
  | _ => false

/-- Whether a type is a time. -/
def isTemporal : ColumnType → Bool
  | .datetime => true
  | _ => false

/-- Whether a type names categories. -/
def isCategorical : ColumnType → Bool
  | .string | .boolean => true
  | _ => false

end ColumnType

end LiveChart
