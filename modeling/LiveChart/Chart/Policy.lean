import LiveChart.Value.Arguments
import LiveChart.Stream.Buffer
/-!
# Streaming policies

A policy says how many rows are kept, how a batch is merged into them, and how long notifications
are held apart.

* `Policy.ofValues` : a policy from its three parts, each checked;
* `Policy.ofMapping` and `Policy.toMapping` : its wire form, read and written.
-/

namespace LiveChart

/-- The capacity of a buffer unless another is asked for. -/
def defaultCapacity : Nat := 1000

theorem defaultCapacity_pos : 0 < defaultCapacity := by decide

/-- How a buffer is kept and how often its changes are notified. -/
structure Policy where
  capacity : Nat := defaultCapacity
  mode : StreamingMode := .append
  /-- The least time between notifications, in milliseconds. -/
  throttle : Double := .zero
  capacity_pos : 0 < capacity := by first | exact defaultCapacity_pos | decide

namespace Policy

instance : Inhabited Policy := ⟨{}⟩

/-- The mode that a value names.  An array of one element that is its word is kept as the mode. -/
def modeOf (v : Value) : Result StreamingMode := do
  match ← Value.choose? StreamingMode.word StreamingMode.all v with
  | some mode => return mode
  | none => throw (.streamingMode v)

/-- The milliseconds of a duration. -/
def millisOf (d : Duration) : Double := (Double.ofFraction d.micros 1000000).mul (.ofNat 1000)

/-- The milliseconds that a value gives: none, a duration, or a number. -/
def throttleOf (v : Value) : Result Double := do
  let millis ← match v with
    | .null => pure .zero
    | .scalar (.duration d) => pure (millisOf d)
    | v => v.toDouble
  if millis.lt .zero then throw (.throttle v)
  return millis

/-- A policy of the given parts. -/
def ofValues (maxItems mode throttle : Value) : Result Policy := do
  let ⟨capacity, h⟩ ← capacityOf maxItems
  let mode ← modeOf mode
  let throttle ← throttleOf throttle
  return { capacity, mode, throttle, capacity_pos := h }

/-- The default capacity, as a value. -/
def defaultMaxItems : Value := .int defaultCapacity

/-- The default mode, as a value. -/
def defaultMode : Value := .text StreamingMode.append.word

/-- The default throttle, as a value. -/
def defaultThrottle : Value := .double .zero

/-- A policy from named arguments. -/
def ofArguments (v : Value) : Result Policy := do
  let args ← Arguments.ofValue ["max_items", "mode", "throttle"] [] v
  ofValues (args.get "max_items" defaultMaxItems) (args.get "mode" defaultMode)
    (args.get "throttle" defaultThrottle)

/-- A policy from its wire form, where the capacity may be any value with a whole number. -/
def ofMapping (v : Value) : Result Policy := do
  let given ← match ← v.member "maxItems" with
    | some w => pure w
    | none => pure ((← v.member "max_items").getD defaultMaxItems)
  let maxItems ← given.toInt
  let mode := (← v.member "mode").getD defaultMode
  let throttle := (← v.member "throttle").getD defaultThrottle
  ofValues (.int maxItems) mode throttle

/-- The wire form of a policy, by name. -/
def toFields (p : Policy) : List (String × Value) :=
  [("maxItems", .int p.capacity), ("mode", .text p.mode.word), ("throttle", .double p.throttle)]

/-- The wire form of a policy. -/
def toMapping (p : Policy) : Value := .dict (Entries.ofFields p.toFields)

/-- Equality of policies. -/
def same (p q : Policy) : Bool :=
  p.capacity == q.capacity && p.mode == q.mode && p.throttle.same q.throttle

end Policy

end LiveChart
