/-!
# Grids of texts

A grid is a cell or a row of grids, nested to the same depth throughout.  It is written in brackets:
the cells of a row stand one after another on lines of a limited width, and rows of rows stand below
each other, the further apart the deeper they are.

* `Grid.abridge` : a grid with the middle of every long row left out;
* `Grid.render` : the text of a grid of texts.
-/

namespace LiveChart

/-- A nested arrangement of cells. -/
inductive Grid (α : Type) where
  | cell (a : α)
  | rows (items : List (Grid α))

namespace Grid

variable {α β : Type}

/-! ## Cells and shape -/

mutual

/-- The cells of a grid, in order. -/
def cells : Grid α → List α
  | .cell a => [a]
  | .rows items => cellsOf items

/-- The cells of some grids, in order. -/
def cellsOf : List (Grid α) → List α
  | [] => []
  | g :: rest => g.cells ++ cellsOf rest

end

mutual

/-- A grid with every cell changed. -/
def map (f : α → β) : Grid α → Grid β
  | .cell a => .cell (f a)
  | .rows items => .rows (mapOf f items)

/-- Grids with every cell changed. -/
def mapOf (f : α → β) : List (Grid α) → List (Grid β)
  | [] => []
  | g :: rest => g.map f :: mapOf f rest

end

mutual

/-- The lengths of the rows on the way to the first cell, the outermost first. -/
def shape : Grid α → List Nat
  | .cell _ => []
  | .rows items => items.length :: shapeOf items

/-- The lengths of the rows on the way to the first cell of some grids. -/
def shapeOf : List (Grid α) → List Nat
  | [] => []
  | g :: _ => g.shape

end

/-! ## Leaving out -/

/-- How many items at either end of a long row are kept. -/
def edge : Nat := 3

/-- The ends of a long row, with a gap in place of its middle. -/
def ends (items : List (Grid (Option α))) : List (Grid (Option α)) :=
  if 2 * edge < items.length then
    items.take edge ++ [.cell none] ++ items.drop (items.length - edge)
  else items

mutual

/-- A grid with a gap in place of the middle of every long row. -/
def abridge : Grid α → Grid (Option α)
  | .cell a => .cell (some a)
  | .rows items => .rows (ends (abridgeOf items))

/-- Grids with a gap in place of the middle of every long row. -/
def abridgeOf : List (Grid α) → List (Grid (Option α))
  | [] => []
  | g :: rest => g.abridge :: abridgeOf rest

end

/-! ## Writing -/

/-- A text without blanks at its end. -/
def trimEnd (s : String) : String :=
  String.ofList (s.toList.reverse.dropWhile (· == ' ')).reverse

/-- Words broken into lines of at most `room` characters, the first of them begun; a word that is
too long has a line of its own. -/
def breakLines (room : Nat) (separator : String) : String → List String → List String
  | line, [] => [line]
  | line, word :: rest =>
    let more := if rest.isEmpty then word else word ++ separator
    if room < line.length + word.length && !line.isEmpty then
      trimEnd line :: breakLines room separator more rest
    else breakLines room separator (line ++ more) rest

/-- A line break with an indent. -/
def newline (indent : Nat) : String := "\n" ++ String.ofList (List.replicate indent ' ')

mutual

/-- The text of a grid whose rows are `depth` deep, with an indent and within a width. -/
def renderAt (separator : String) (indent width : Nat) : Nat → Grid String → String
  | _, .cell s => s
  | depth, .rows items =>
    let parts := renderOf separator (indent + 1) (width - 1) (depth - 1) items
    if depth ≤ 1 then
      let lines := breakLines (width - 1 - indent) separator "" parts
      "[" ++ (newline indent).intercalate lines ++ "]"
    else
      let gap := trimEnd separator ++ String.ofList (List.replicate (depth - 2) '\n')
      "[" ++ (gap ++ newline indent).intercalate parts ++ "]"

/-- The texts of grids. -/
def renderOf (separator : String) (indent width depth : Nat) : List (Grid String) → List String
  | [] => []
  | g :: rest =>
    renderAt separator indent width depth g :: renderOf separator indent width depth rest

end

/-- The text of a grid, with a separator between cells, an indent in front of all lines but the
first, and within a width. -/
def render (separator : String) (indent width : Nat) (g : Grid String) : String :=
  renderAt separator indent width g.shape.length g

end Grid

end LiveChart
