import LiveChart.Value.Equality
import LiveChart.Value.Display
/-!
# Arrays of nested sequences

Nested sequences become the rows of an array.  Its elements are brought to the narrowest kind that
holds them all: numbers to numbers of a sufficient width, numbers among texts to their texts, and
what has no kind in common stays as it is.

* `Element.join` : the narrowest kind that holds two kinds;
* `Value.arrayOf` : the array of nested sequences.
-/

namespace LiveChart

/-! ## Kinds of elements -/

/-- The width of whole numbers with a sign and twice the bits, if there is one. -/
def IntWidth.doubled? : IntWidth → Option IntWidth
  | .int8 | .uint8 => some .int16
  | .int16 | .uint16 => some .int32
  | .int32 | .uint32 => some .int64
  | .int64 | .uint64 => none

/-- The least floating-point width that holds the whole numbers of a width, as far as any does. -/
def IntWidth.floatWidth (w : IntWidth) : FloatWidth :=
  if w.bits = 8 then .float16 else if w.bits = 16 then .float32 else .float64

/-- The characters of the longest whole number of a width. -/
def IntWidth.textLength : IntWidth → Nat
  | .int8 => 4
  | .uint8 => 3
  | .int16 => 6
  | .uint16 => 5
  | .int32 => 11
  | .uint32 => 10
  | .int64 => 21
  | .uint64 => 20

/-- The wider of two floating-point widths. -/
def FloatWidth.join : FloatWidth → FloatWidth → FloatWidth
  | .float64, _ | _, .float64 => .float64
  | .float32, _ | _, .float32 => .float32
  | .float16, .float16 => .float16

namespace Element

/-- The narrowest kind that holds the whole numbers of two widths. -/
def joinWhole (v w : IntWidth) : Element :=
  if v.isSigned = w.isSigned then .whole (if v.bits ≤ w.bits then w else v)
  else
    let (signed, unsigned) := if v.isSigned then (v, w) else (w, v)
    if unsigned.bits < signed.bits then .whole signed
    else
      match unsigned.doubled? with
      | some w => .whole w
      | none => .real .float64

/-- The length that the texts of a kind's elements may have, if they can stand among texts. -/
def textLength? : Element → Option Nat
  | .flag => some 5
  | .whole w => some w.textLength
  | .real _ => some 32
  | .text n => some n
  | .bytes _ | .any => none

/-- The narrowest kind that holds the elements of two kinds. -/
def join (a b : Element) : Element :=
  match a, b with
  | .flag, .flag => .flag
  | .flag, .whole w | .whole w, .flag => .whole w
  | .flag, .real w | .real w, .flag => .real w
  | .whole v, .whole w => joinWhole v w
  | .whole v, .real w | .real w, .whole v => .real (v.floatWidth.join w)
  | .real v, .real w => .real (v.join w)
  | .bytes m, .bytes n => .bytes (max m n)
  | a, b =>
    match a, b, a.textLength?, b.textLength? with
    | .text _, _, some m, some n | _, .text _, some m, some n => .text (max m n)
    | _, _, _, _ => .any

/-- The kind of a scalar in an array of its own. -/
def ofScalar : Scalar → Element
  | .bool _ | .flag _ => .flag
  | .int n =>
    if -2 ^ 63 ≤ n && n < 2 ^ 63 then .whole .int64
    else if 0 ≤ n && n < 2 ^ 64 then .whole .uint64
    else .any
  | .fixedInt w _ => .whole w
  | .double _ => .real .float64
  | .fixedFloat w _ => .real w
  | .text s => .text (max 1 s.length)
  | .bytes bs => .bytes (max 1 bs.length)
  | _ => .any

/-- A kind joined to one that may be absent. -/
def joinTo (a : Option Element) (b : Element) : Option Element := some (a.elim b (·.join b))

/-- Joining a kind to itself changes nothing. -/
theorem join_self (a : Element) : a.join a = a := by
  cases a with
  | flag => rfl
  | whole w => cases w <;> rfl
  | real w => cases w <;> rfl
  | text n => simp [join, textLength?]
  | bytes n => simp [join]
  | any => rfl

end Element

/-! ## Arrays -/

namespace Value

/-- A scalar as an element of a kind that holds it.  Texts and byte strings end before their last
zeros. -/
def elementOfScalar (element : Element) (s : Scalar) : Value :=
  match element, s with
  | .flag, .flag b => .bool b
  | .whole _, .bool b | .whole _, .flag b => .int (boolInt b)
  | .whole _, .fixedInt _ n => .int n
  | .real _, .bool b | .real _, .flag b => .double (Double.ofIntSaturating (boolInt b))
  | .real _, .int n | .real _, .fixedInt _ n => .double (Double.ofIntSaturating n)
  | .real _, .fixedFloat _ x => .double x
  | .text _, s =>
    .text (String.ofList (s.plain.toList.reverse.dropWhile (· == Char.ofNat 0)).reverse)
  | .bytes _, .bytes bs => .scalar (.bytes (bs.reverse.dropWhile (· == 0)).reverse)
  | _, s => .scalar s

mutual

/-- The kind that holds another kind and all leaves of nested sequences. -/
def joinLeaves (kind : Option Element) : Value → Option Element
  | .list items | .tuple items | .array _ items => joinLeavesOf kind items
  | .scalar s => Element.joinTo kind (.ofScalar s)
  | .set _ | .dict _ => some .any

/-- The kind that holds another kind and all leaves of the items. -/
def joinLeavesOf (kind : Option Element) : List Value → Option Element
  | [] => kind
  | v :: rest => joinLeavesOf (v.joinLeaves kind) rest

end

mutual

/-- Nested sequences as the rows of an array of a kind. -/
def arrange (element : Element) : Value → Value
  | .list items | .tuple items | .array _ items => .array element (arrangeItems element items)
  | .scalar s => elementOfScalar element s
  | v => v

/-- The items of nested sequences as the rows of an array of a kind. -/
def arrangeItems (element : Element) : List Value → List Value
  | [] => []
  | v :: rest => v.arrange element :: arrangeItems element rest

end

/-- The array of nested sequences, of the narrowest kind that holds all leaves. -/
def arrayOf (items : List Value) : Value :=
  let element := (joinLeavesOf none items).getD (.real .float64)
  .array element (arrangeItems element items)

end Value

end LiveChart
