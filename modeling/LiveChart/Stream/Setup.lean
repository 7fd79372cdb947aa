import LiveChart.Stream.Controller
/-!
# Setting up a controller

A controller is set up from untyped columns and an untyped configuration.  The columns are read
first, then the configuration is compiled, and last its policy may be overridden.

* `Setup.build` : the controller of a setup, with what is reported meanwhile.
-/

namespace LiveChart

/-- What a controller is made of. -/
structure Setup where
  columns : Value
  config : Value
  theme : Value := defaultTheme
  /-- An override of the compiled policy. -/
  policy : Value := .null
  /-- Whether the override gives named arguments of a policy. -/
  policyFromArguments : Bool := false
  /-- Whether the configuration is compiled beforehand, under the default theme. -/
  precompiled : Bool := false
  renders : Bool := true
  failing : List Nat := []
  threshold : Log.Level := .warning
  /-- Whether timers can be cancelled. -/
  cancellable : Bool := true

namespace Setup

/-- The compiled configuration under a theme, and what is reported of it. -/
def compiled (s : Setup) (theme : Value) : List Log.Line × Result Spec :=
  match compileConfig s.config theme with
  | .ok (c, spec) => (compileLines c.family spec, .ok spec)
  | .error e => ([], .error e)

/-- The policy that named arguments give, if the override is given so. -/
def givenPolicy (s : Setup) : Result (Option Policy) :=
  if s.policyFromArguments then do return some (← Policy.ofArguments s.policy) else .ok none

/-- The specification with its policy overridden. -/
def override (s : Setup) (given : Option Policy) (spec : Spec) : Result Spec :=
  match given with
  | some streaming => .ok { spec with streaming }
  | none => Controller.overridePolicy spec s.policy

/-- The controller of given columns and a given specification. -/
def controller (s : Setup) (columns : List Column) (spec : Spec) : Controller :=
  { Controller.ofSpec columns spec s.cancellable with
    renders := s.renders
    failing := s.failing
    threshold := s.threshold }

/-- The controller of a setup, with what is reported meanwhile. -/
def build (s : Setup) : List Log.Line × Result Controller :=
  let early := if s.precompiled then some (s.compiled defaultTheme) else none
  match early with
  | some (lines, .error e) => (lines, .error e)
  | _ =>
    let before := (early.map Prod.fst).getD []
    match s.givenPolicy, columnsOf s.columns with
    | .error e, _ => (before, .error e)
    | _, .error e => (before, .error e)
    | .ok given, .ok columns =>
      let (lines, spec) := early.getD (s.compiled s.theme)
      (lines, do
        let spec ← s.override given (← spec)
        return s.controller columns spec)

end Setup

end LiveChart
