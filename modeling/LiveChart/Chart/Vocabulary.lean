/-!
# The words of chart configurations

The closed sets of choices that configurations offer besides the chart family, each with the word
for every choice, in the order in which messages list them.
-/

namespace LiveChart

/-- A theme. -/
inductive Theme where
  | dark | light
  deriving DecidableEq, Repr

namespace Theme

/-- Every theme, in order. -/
def all : List Theme := [.dark, .light]

/-- The word for a theme. -/
def word : Theme → String
  | .dark => "dark"
  | .light => "light"

end Theme

/-- A side of a chart where a legend can stand. -/
inductive LegendPosition where
  | top | bottom | left | right
  deriving DecidableEq, Repr

namespace LegendPosition

/-- Every position, in order. -/
def all : List LegendPosition := [.top, .bottom, .left, .right]

/-- The word for a position. -/
def word : LegendPosition → String
  | .top => "top"
  | .bottom => "bottom"
  | .left => "left"
  | .right => "right"

end LegendPosition

/-- The side of a number where its unit stands. -/
inductive UnitSide where
  | left | right
  deriving DecidableEq, Repr

namespace UnitSide

/-- Every side, in order. -/
def all : List UnitSide := [.left, .right]

/-- The word for a side. -/
def word : UnitSide → String
  | .left => "left"
  | .right => "right"

end UnitSide

/-- The shape of a line. -/
inductive LineStyle where
  | curve | straight
  deriving DecidableEq, Repr

namespace LineStyle

/-- Every style, in order. -/
def all : List LineStyle := [.curve, .straight]

/-- The word for a style. -/
def word : LineStyle → String
  | .curve => "curve"
  | .straight => "straight"

end LineStyle

/-- How the bars of one category stand to each other. -/
inductive Grouping where
  | stack | dodge
  deriving DecidableEq, Repr

namespace Grouping

/-- Every grouping, in order. -/
def all : List Grouping := [.stack, .dodge]

/-- The word for a grouping. -/
def word : Grouping → String
  | .stack => "stack"
  | .dodge => "dodge"

end Grouping

/-- How a batch is merged into the buffer. -/
inductive StreamingMode where
  | append | replace
  deriving DecidableEq, Repr

namespace StreamingMode

/-- Every mode, in order. -/
def all : List StreamingMode := [.append, .replace]

/-- The word for a mode. -/
def word : StreamingMode → String
  | .append => "append"
  | .replace => "replace"

end StreamingMode

/-- Which buffered rows a chart shows: a sliding window of time, the rows of the latest instant, or
one row per key. -/
inductive TemporalMode where
  | axis | frame | key
  deriving DecidableEq, Repr

namespace TemporalMode

/-- Every mode, in order. -/
def all : List TemporalMode := [.axis, .frame, .key]

/-- The word for a mode. -/
def word : TemporalMode → String
  | .axis => "axis"
  | .frame => "frame"
  | .key => "key"

end TemporalMode

end LiveChart
