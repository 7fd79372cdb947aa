/-!
# Log lines

What the parts of the library report besides their results.  Every line has a level and an origin;
a reader sees the lines of its own level and above.

* `Log.visible` : the lines at or above a level.
-/

namespace LiveChart.Log

/-- The level of a line. -/
inductive Level where
  | debug | info | warning | error
  deriving DecidableEq, Repr

/-- The rank of a level. -/
def Level.rank : Level → Nat
  | .debug => 0
  | .info => 1
  | .warning => 2
  | .error => 3

/-- The part of the library that reports. -/
inductive Origin where
  | rows | buffer | temporal | compiler | notifier | controller
  deriving DecidableEq, Repr

/-- A reported line. -/
structure Line where
  level : Level
  origin : Origin
  message : String
  deriving DecidableEq, Repr

/-- Whether lines of a level are seen above a threshold. -/
def Level.shows (threshold level : Level) : Bool := threshold.rank ≤ level.rank

/-- The lines at or above a threshold. -/
def visible (threshold : Level) (lines : List Line) : List Line :=
  lines.filter fun line => threshold.shows line.level

end LiveChart.Log
