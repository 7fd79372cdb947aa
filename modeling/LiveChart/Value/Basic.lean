import LiveChart.Number.Double
import LiveChart.Time.Moment
/-!
# Values

What a row field or a configuration option may hold.  Input is untyped, so a value of any kind can
stand anywhere, and every kind stays apart from the others even where it compares equal to them.

Arrays without an axis and differences of ticks have no representation.  Values have no identity
either, so one object that stands in two rows is not told from two equal ones.

* `Scalar` : the values without parts;
* `Value` : scalars, sequences, sets, dictionaries and arrays;
* `Entries.field?` : what a dictionary holds under a name;
* `Entries.field?_append` : the first entries come before the others.
-/

namespace LiveChart

/-! ## Scalars -/

/-- The width of a fixed-width whole number. -/
inductive IntWidth where
  | int8 | int16 | int32 | int64 | uint8 | uint16 | uint32 | uint64
  deriving DecidableEq, Repr

/-- The name of a width. -/
def IntWidth.name : IntWidth → String
  | .int8 => "int8"
  | .int16 => "int16"
  | .int32 => "int32"
  | .int64 => "int64"
  | .uint8 => "uint8"
  | .uint16 => "uint16"
  | .uint32 => "uint32"
  | .uint64 => "uint64"

/-- The bits of a width. -/
def IntWidth.bits : IntWidth → Nat
  | .int8 | .uint8 => 8
  | .int16 | .uint16 => 16
  | .int32 | .uint32 => 32
  | .int64 | .uint64 => 64

/-- Whether the numbers of a width have a sign. -/
def IntWidth.isSigned : IntWidth → Bool
  | .int8 | .int16 | .int32 | .int64 => true
  | .uint8 | .uint16 | .uint32 | .uint64 => false

/-- The number of a width that agrees with a whole number in all bits. -/
def IntWidth.wrap (w : IntWidth) (n : Int) : Int :=
  if w.isSigned then n.bmod (2 ^ w.bits) else n % 2 ^ w.bits

/-- The width of a fixed-width floating-point number. -/
inductive FloatWidth where
  | float16 | float32 | float64
  deriving DecidableEq, Repr

/-- The name of a floating-point width. -/
def FloatWidth.name : FloatWidth → String
  | .float16 => "float16"
  | .float32 => "float32"
  | .float64 => "float64"

/-- The format of a floating-point width. -/
def FloatWidth.format : FloatWidth → Format
  | .float16 => binary16
  | .float32 => binary32
  | .float64 => binary64

/-- A value without parts.  Whole numbers and doubles come unbounded or in a fixed width, truth
values plain or as a machine flag, and byte strings immutable or as a byte array. -/
inductive Scalar where
  | null
  | bool (b : Bool)
  | int (n : Int)
  | double (x : Double)
  | text (s : String)
  | bytes (bs : List UInt8)
  | byteArray (bs : List UInt8)
  | day (d : Day)
  | moment (t : Moment)
  | duration (d : Duration)
  | tick (t : Tick)
  | fixedInt (width : IntWidth) (n : Int)
  | fixedFloat (width : FloatWidth) (x : Double)
  | flag (b : Bool)
  | object
  deriving DecidableEq

/-! ## Values -/

/-- The common kind of the elements of an array.  Texts and byte strings have a greatest length. -/
inductive Element where
  | flag
  | whole (width : IntWidth)
  | real (width : FloatWidth)
  | text (length : Nat)
  | bytes (length : Nat)
  | any
  deriving DecidableEq, Repr

/-- A value: a scalar or a container.  The entries of a dictionary are in the order of insertion and
have distinct keys; the rows of an array with several axes are arrays themselves. -/
inductive Value where
  | scalar (s : Scalar)
  | list (items : List Value)
  | tuple (items : List Value)
  | set (items : List Value)
  | dict (entries : List (Value × Value))
  | array (element : Element) (items : List Value)

/-- The entries of a dictionary, in the order of insertion. -/
abbrev Entries (α : Type) : Type := List (Value × α)

/-- A canonical row: the fields of one record, by name. -/
abbrev Row : Type := Entries Value

namespace Value

/-- The absent value. -/
@[match_pattern] abbrev null : Value := .scalar .null

/-- A truth value. -/
@[match_pattern] abbrev bool (b : Bool) : Value := .scalar (.bool b)

/-- A whole number. -/
@[match_pattern] abbrev int (n : Int) : Value := .scalar (.int n)

/-- A double. -/
@[match_pattern] abbrev double (x : Double) : Value := .scalar (.double x)

/-- A text. -/
@[match_pattern] abbrev text (s : String) : Value := .scalar (.text s)

instance : Inhabited Value := ⟨null⟩

/-- Whether a value is absent. -/
def isNull : Value → Bool
  | null => true
  | _ => false

/-- A value that is absent is the absent value. -/
theorem eq_null_of_isNull {v : Value} (h : v.isNull = true) : v = null := by
  unfold isNull at h
  split at h
  · rfl
  · cases h

/-- A value, or the absent value in place of none. -/
def ofOption : Option Value → Value
  | some v => v
  | none => null

/-- The value, unless it is the absent value. -/
def toOption : Value → Option Value
  | null => none
  | v => some v

/-- The name of a value's kind. -/
def kind : Value → String
  | .scalar s =>
    match s with
    | .null => "NoneType"
    | .bool _ => "bool"
    | .int _ => "int"
    | .double _ => "float"
    | .text _ => "str"
    | .bytes _ => "bytes"
    | .byteArray _ => "bytearray"
    | .day _ => "date"
    | .moment _ => "datetime"
    | .duration _ => "timedelta"
    | .tick _ => "datetime64"
    | .fixedInt w _ => w.name
    | .fixedFloat w _ => w.name
    | .flag _ => "bool"
    | .object => "object"
  | .list _ => "list"
  | .tuple _ => "tuple"
  | .set _ => "set"
  | .dict _ => "dict"
  | .array .. => "ndarray"

/-- A list or a tuple, whose items have positions. -/
def positions? : Value → Option (List Value)
  | .list items => some items
  | .tuple items => some items
  | _ => none

mutual

/-- The elements of an array that are not rows, in order. -/
def leaves : Value → List Value
  | .array _ items => leavesOf items
  | v => [v]

/-- The elements of an array's items that are not rows, in order. -/
def leavesOf : List Value → List Value
  | [] => []
  | v :: rest => v.leaves ++ leavesOf rest

end

end Value

/-! ## Looking up names -/

namespace Entries

/-- What the entries hold under a name. -/
def field? {α : Type} (name : String) : Entries α → Option α
  | [] => none
  | (.text key, a) :: rest => if key = name then some a else field? name rest
  | _ :: rest => field? name rest

/-- The entries with a name bound to a value: in its place if it is there, else at the end. -/
def bindField {α : Type} (name : String) (a : α) : Entries α → Entries α
  | [] => [(.text name, a)]
  | (.text key, b) :: rest =>
    if key = name then (.text key, a) :: rest else (.text key, b) :: bindField name a rest
  | entry :: rest => entry :: bindField name a rest

/-- Entries under names, of which the last binding holds. -/
def ofFields {α : Type} (fields : List (String × α)) : Entries α :=
  fields.foldl (fun entries (name, a) => bindField name a entries) []

/-- What stands under another key is passed over. -/
theorem field?_cons_of_ne {α : Type} {name : String} {key : Value} (h : key ≠ .text name)
    (a : α) (entries : Entries α) : field? name ((key, a) :: entries) = field? name entries := by
  by_cases htext : ∃ other, key = .text other
  · obtain ⟨other, rfl⟩ := htext
    exact if_neg fun hname => h (congrArg Value.text hname)
  · exact field?.eq_3 name (key, a) entries fun other b heq =>
      htext ⟨other, congrArg Prod.fst heq⟩

/-- A name is found among the first entries, else among the others. -/
theorem field?_append {α : Type} (name : String) (entries more : Entries α) :
    field? name (entries ++ more) = (field? name entries).or (field? name more) := by
  fun_induction field? name entries with
  | case1 => rfl
  | case2 a rest => exact if_pos rfl
  | case3 key a rest hne ih => exact (if_neg hne).trans ih
  | case4 entry rest hentry ih =>
    rw [List.cons_append, field?.eq_3 name entry _ hentry]
    exact ih

end Entries

end LiveChart
