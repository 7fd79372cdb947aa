import LiveChart.Value.Convert
/-!
# Named arguments

The parts of a configuration can be given as named arguments.  A name that the part does not have,
or a missing one that it needs, is refused.

* `Arguments.ofValue` : the arguments that a dictionary gives;
* `Arguments.get` : an argument, or its default.
-/

namespace LiveChart

/-- Arguments by name. -/
abbrev Arguments : Type := List (String × Value)

namespace Arguments

/-- An argument, or its default. -/
def get (args : Arguments) (name : String) (default : Value := .null) : Value :=
  (List.lookup name args).getD default

/-- The arguments with one bound; the last binding of a name holds. -/
def bind (args : Arguments) (name : String) (v : Value) : Arguments :=
  (name, v) :: args.filter fun (other, _) => other != name

/-- The arguments of entries whose keys are all names. -/
def ofEntries : Entries Value → Result Arguments
  | [] => .ok []
  | (.text name, v) :: rest => do return (name, v) :: (← ofEntries rest)
  | _ :: _ => fail .type

/-- The arguments, if all their names are known and all needed ones are there. -/
def checked (known needed : List String) (args : Arguments) : Result Arguments :=
  if (args.all fun (name, _) => known.contains name) &&
      (needed.all fun name => (List.lookup name args).isSome) then .ok args
  else fail .type

/-- The arguments that a dictionary gives, of known names and with all needed ones. -/
def ofValue (known needed : List String) (v : Value) : Result Arguments :=
  match v with
  | .dict entries => do checked known needed (← ofEntries entries)
  | _ => fail .type

end Arguments

end LiveChart
