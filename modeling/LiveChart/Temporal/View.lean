import LiveChart.Temporal.Binding
import LiveChart.Temporal.Epoch
import LiveChart.Value.Key
import LiveChart.Log
/-!
# Views

The view of a snapshot holds the rows that a chart shows under a temporal binding.

* `axisView` : the rows of a sliding window that ends at the latest time, in order of time;
* `frameView` : the rows of the latest time;
* `latestPerKey` : one row per key, in the order in which the keys first appear;
* `view` : the view of a snapshot under a binding.
-/

namespace LiveChart

/-! ## Rows with their times -/

/-- An item with its time, if it has one. -/
abbrev Stamped (α : Type) : Type := Option Double × α

/-- The items that have a time. -/
def stampedOnly {α : Type} (items : List (Stamped α)) : List (Double × α) :=
  items.filterMap fun (stamp, a) => stamp.map (·, a)

/-- The items that have no time. -/
def unstampedOnly {α : Type} (items : List (Stamped α)) : List α :=
  items.filterMap fun (stamp, a) => if stamp.isSome then none else some a

/-- Whether a time lies before another; a negative zero lies before the other zero. -/
def precedes (x y : Double) : Bool :=
  x.order < y.order || (x.order == y.order && x.isNegative && !y.isNegative)

/-- The latest of some times. -/
def latest? : List Double → Option Double
  | [] => none
  | x :: rest =>
    match latest? rest with
    | none => some x
    | some y => some (if precedes x y then y else x)

/-- The earliest of some times. -/
def earliest? : List Double → Option Double
  | [] => none
  | x :: rest =>
    match earliest? rest with
    | none => some x
    | some y => some (if precedes y x then y else x)

/-- The items in order of time, those of one time in order of arrival. -/
def inOrder {α : Type} (items : List (Double × α)) : List (Double × α) :=
  items.mergeSort fun a b => a.1.order ≤ b.1.order

/-! ## The three views -/

/-- The rows of a window that ends at the latest time.  A window without end holds every row, those
without a time after the others. -/
def axisView {α : Type} (range : Range) (items : List (Stamped α)) : List α :=
  let stamped := stampedOnly items
  match range.window? with
  | none => (inOrder stamped).map Prod.snd ++ unstampedOnly items
  | some window =>
    match latest? (stamped.map Prod.fst) with
    | none => []
    | some last =>
      let first := last.sub window
      let inside := stamped.filter fun (stamp, _) =>
        first.order ≤ stamp.order && stamp.order ≤ last.order
      (inOrder inside).map Prod.snd

/-- The rows of the latest time. -/
def frameView {α : Type} (items : List (Stamped α)) : List α :=
  let stamped := stampedOnly items
  match latest? (stamped.map Prod.fst) with
  | none => []
  | some last => (stamped.filter fun (stamp, _) => stamp.order == last.order).map Prod.snd

/-- Put an item under its key: after the items of the other keys, or in the place of the key's item
if it wins over it. -/
def settle {α : Type} (wins : α → α → Bool) (key : List Key) (a : α) :
    List (List Key × α) → List (List Key × α)
  | [] => [(key, a)]
  | (k, b) :: rest =>
    if Key.sameItems k key then (k, if wins a b then a else b) :: rest
    else (k, b) :: settle wins key a rest

/-- One item per key, in the order in which the keys first appear. -/
def onePerKey {α : Type} (wins : α → α → Bool) (items : List (List Key × α)) : List α :=
  (items.foldl (fun settled (key, a) => settle wins key a settled) []).map Prod.snd

/-- The last item of every key. -/
def latestPerKey {α : Type} (items : List (List Key × α)) : List α :=
  onePerKey (fun _ _ => true) items

/-- Whether an item that arrives later takes the place of another: not before it in time, and with a
time if the other has one. -/
def supersedes {α : Type} (a b : Stamped α) : Bool :=
  match a.1, b.1 with
  | none, none => true
  | none, some _ => false
  | some _, none => true
  | some x, some y => y.order ≤ x.order

/-- The item of every key with the latest time. -/
def newestPerKey {α : Type} (items : List (List Key × Stamped α)) : List α :=
  (onePerKey supersedes items).map Prod.snd

/-! ## Reading rows -/

/-- The time that a row holds under a field. -/
def stampOf (field row : Value) : Result (Option Double) := do
  match ← row.memberAt field with
  | none => return none
  | some v => epochMillis v

/-- The key component that a row holds under a field.  In a text or a sequence a field can be found
but not read. -/
def keyComponent (row : Value) (field : String) : Result Key :=
  let found : Bool → Result Key := fun there => if there then fail .type else .ok .undefined
  match row with
  | .dict entries => .ok ((Entries.field? field entries).elim .undefined Value.freeze)
  | .text s => found (s.contains field)
  | .list items | .tuple items | .set items => found (items.any (·.same (.text field)))
  | .array _ items => found ((Value.leavesOf items).any (·.same (.text field)))
  | _ => fail .type

/-- The key of a row under some fields. -/
def keyOf (fields : List String) (row : Value) : Result (List Key) :=
  fields.mapM (keyComponent row)

/-- The number of every key's group, groups being numbered by their first key. -/
def groupNumbers : List (List Key) → List (List Key) → List Nat
  | [], _ => []
  | key :: rest, seen =>
    match seen.findIdx? (Key.sameItems · key) with
    | some n => n :: groupNumbers rest seen
    | none => seen.length :: groupNumbers rest (seen ++ [key])

/-- The numbers of the groups that equal keys make, in order of first appearance. -/
def keyGroups (keys : List (List Key)) : List Nat := groupNumbers keys []

/-- Items with the times that their rows hold under a field. -/
def withStamps {α : Type} (rowOf : α → Value) (field : Value) (items : List α) :
    Result (List (Stamped α)) :=
  items.mapM fun a => do return (← stampOf field (rowOf a), a)

/-- Items with the keys of their rows. -/
def withKeys {α : Type} (rowOf : α → Value) (fields : List String) (items : List α) :
    Result (List (List Key × α)) :=
  items.mapM fun a => do return (← keyOf fields (rowOf a), a)

/-! ## The view of a snapshot -/

/-- The view of items that carry rows, under a bound binding. -/
def boundView {α : Type} (rowOf : α → Value) (b : Binding) (field : FieldSpec) (items : List α) :
    Result (List α) :=
  match b.mode with
  | .axis => do return axisView b.range (← withStamps rowOf (.text field.first) items)
  | .frame => do return frameView (← withStamps rowOf (.text field.first) items)
  | .key =>
    match b.orderField with
    | none => do return latestPerKey (← withKeys rowOf field.toList items)
    | some order => do
      let stamped ← withStamps rowOf order items
      return newestPerKey (← withKeys (fun a => rowOf a.2) field.toList stamped)

/-- The items that a chart shows.  Without a binding, or with one that has no field, it shows all;
of none it shows none. -/
def viewOf {α : Type} (rowOf : α → Value) (binding : Option Binding) (items : List α) :
    Result (List α) :=
  match binding with
  | none => .ok items
  | some b =>
    match b.field with
    | none => .ok items
    | some field => if items.isEmpty then .ok items else boundView rowOf b field items

/-- The view of a snapshot. -/
def view (binding : Option Binding) (snapshot : List Row) : Result (List Row) :=
  viewOf Value.dict binding snapshot

/-- What is reported of a view: a binding without a field has no effect. -/
def viewLines (binding : Option Binding) (empty : Bool) : List Log.Line :=
  match binding with
  | some b =>
    if b.isBound || empty then []
    else
      [⟨.debug, .temporal, "temporal binding for mode=" ++ b.mode.word ++
        " has no field; passing through"⟩]
  | none => []

end LiveChart
