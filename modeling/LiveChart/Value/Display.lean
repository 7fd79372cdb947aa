import LiveChart.Value.Basic
import LiveChart.Number.Figures
import LiveChart.Text.Grid
import LiveChart.Text.Quoted
/-!
# The text of a value

A value has a quoted text, which tells its kind, and a plain text, which for a text is the text
itself and for a container shows the quoted texts of its parts.  The elements of an array are made
equally wide, laid out in lines, and shown in part only if there are very many.

* `Value.quoted` : the quoted text, as messages show it;
* `Value.plain` : the plain text, as labels show it.
-/

namespace LiveChart

/-! ## Scalars -/

/-- The word for a truth value. -/
def boolWord (b : Bool) : String := if b then "True" else "False"

/-- The name of a fixed-width kind, applied to a text. -/
def fixedWidth (v : Value) (s : String) : String := "np." ++ v.kind ++ "(" ++ s ++ ")"

/-- The short form of a floating-point width. -/
def FloatWidth.shortForm : FloatWidth → ShortForm
  | .float16 => short16
  | .float32 => short32
  | .float64 => short64

namespace Scalar

/-- The quoted text of a scalar.  Whole numbers of any length have one: the limit of 4300 digits
that `readInt?` keeps is left out in this direction. -/
def quoted (s : Scalar) : String :=
  match s with
  | .null => "None"
  | .bool b => boolWord b
  | .int n => toString n
  | .double x => x.text
  | .text s => Text.quote s
  | .bytes bs => Text.quoteBytes bs
  | .byteArray bs => "bytearray(" ++ Text.quoteByteArray bs ++ ")"
  | .day d => d.literal
  | .moment t => t.literal
  | .duration d => d.literal
  | .tick t => t.literal
  | .fixedInt _ n => fixedWidth (.scalar s) (toString n)
  | .fixedFloat w x => fixedWidth (.scalar s) (x.textIn w.shortForm)
  | .flag b => "np." ++ boolWord b ++ "_"
  | .object => "<object object>"

/-- The plain text of a scalar.  Whole numbers of any length have one: the limit of 4300 digits is
left out here, too. -/
def plain (s : Scalar) : String :=
  match s with
  | .text s => s
  | .day d => d.text
  | .moment t => t.text
  | .duration d => d.text
  | .tick t => t.text
  | .fixedInt _ n => toString n
  | .fixedFloat w x => x.textIn w.shortForm
  | .flag b => boolWord b
  | s => s.quoted

end Scalar

/-! ## Containers -/

/-- Texts between brackets, with commas. -/
def bracketed (opening closing : String) (parts : List String) : String :=
  opening ++ ", ".intercalate parts ++ closing

/-- Texts as a tuple shows them: a single one is followed by a comma. -/
def tupleText : List String → String
  | [part] => "(" ++ part ++ ",)"
  | parts => bracketed "(" ")" parts

/-- A text with blanks before it up to a width. -/
def padLeft (width : Nat) (s : String) : String :=
  String.ofList (List.replicate (width - s.length) ' ') ++ s

/-- The greatest length of some texts. -/
def maxLength (parts : List String) : Nat := parts.foldl (fun n s => max n s.length) 0

/-! ## Arrays -/

/-- An element of an array with its quoted text. -/
abbrev QuotedElement : Type := Value × String

/-- How the elements of an array are written, given those that are shown: numbers meet at their
points or at their ends, truth values have the length of the longer word, and others stand as they
are. -/
def elementWriter (element : Element) (shown : List QuotedElement) : QuotedElement → String :=
  match element with
  | .real w =>
    let figures := Figures.ofNumbers w.shortForm (shown.filterMap fun
      | (.double x, _) => some x
      | _ => none)
    fun
      | (.double x, _) => figures.text x
      | (_, s) => s
  | .whole _ =>
    let width := maxLength (shown.map Prod.snd)
    fun (_, s) => padLeft width s
  | .flag => fun (_, s) => padLeft (boolWord false).length s
  | .text _ | .bytes _ | .any => Prod.snd

/-- The greatest number of elements that are all shown. -/
def shownInFull : Nat := 1000

/-- The elements of an array in brackets. -/
def elementsText (separator : String) (indent width : Nat) (element : Element)
    (grid : Grid QuotedElement) : String :=
  let count := grid.cells.length
  if count = 0 then "[]"
  else
    let kept := if shownInFull < count then grid.abridge else grid.map some
    let write := elementWriter element (kept.cells.filterMap id)
    (kept.map fun
      | some e => write e
      | none => "...").render separator indent width

/-- The marks behind the elements of an array: its shape if the elements do not show it, and their
kind if they do not tell it. -/
def arrayMarks (element : Element) (grid : Grid QuotedElement) : List String :=
  let count := grid.cells.length
  let shape := if (count = 0 && grid.shape != [0]) || shownInFull < count then
    ["shape=" ++ tupleText (grid.shape.map toString)] else []
  let kind := match element with
    | .any => ["dtype=object"]
    | .text n => ["dtype='<U" ++ toString n ++ "'"]
    | .bytes n => ["dtype='|S" ++ toString n ++ "'"]
    | .whole .int64 | .flag => []
    | .whole w => ["dtype=" ++ w.name]
    | .real .float64 => if count = 0 then ["dtype=float64"] else []
    | .real w => ["dtype=" ++ w.name]
  shape ++ kind

/-- The greatest length of a line. -/
def lineWidth : Nat := 75

/-- The quoted text of an array.  Its marks go to a line of their own if they do not fit. -/
def arrayText (element : Element) (grid : Grid QuotedElement) : String :=
  let opening := "array("
  let body := opening ++ elementsText ", " (opening.length + 1) (lineWidth - 1) element grid
  match arrayMarks element grid with
  | [] => body ++ ")"
  | marks =>
    let marks := bracketed "" ")" marks
    let last := (body.toList.reverse.takeWhile (· != '\n')).length + 1
    body ++ "," ++
      (if lineWidth < last + marks.length + 1 then Grid.newline opening.length else " ") ++ marks

namespace Value

mutual

/-- The quoted text of a value. -/
def quoted : Value → String
  | .scalar s => s.quoted
  | .list items => bracketed "[" "]" (quotedItems items)
  | .tuple items => tupleText (quotedItems items)
  | .set items => if items.isEmpty then "set()" else bracketed "\x7b" "\x7d" (quotedItems items)
  | .dict entries => bracketed "\x7b" "\x7d" (quotedEntries entries)
  | .array element items => arrayText element (.rows (quotedRows items))

/-- The quoted texts of items. -/
def quotedItems : List Value → List String
  | [] => []
  | v :: rest => v.quoted :: quotedItems rest

/-- The quoted texts of entries. -/
def quotedEntries : List (Value × Value) → List String
  | [] => []
  | (k, v) :: rest => (k.quoted ++ ": " ++ v.quoted) :: quotedEntries rest

/-- The items of an array as grids of elements with their quoted texts. -/
def quotedRows : List Value → List (Grid QuotedElement)
  | [] => []
  | .array _ items :: rest => .rows (quotedRows items) :: quotedRows rest
  | v :: rest => .cell (v, v.quoted) :: quotedRows rest

end

/-- The plain text of a value. -/
def plain : Value → String
  | .scalar s => s.plain
  | .array element items => elementsText " " 1 lineWidth element (.rows (quotedRows items))
  | v => v.quoted

end Value

end LiveChart
