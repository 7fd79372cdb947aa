import LiveChart.Value.Basic
/-!
# Equality of values

Values are equal by what they stand for: numbers of every kind by their exact amount, moments by
their instant, sequences of one kind element by element, dictionaries and sets without regard to
order.  Not-a-number and bare objects equal nothing.

* `Scalar.same` and `Value.same` : equality;
* `Value.lookup?` : what a dictionary holds under a key.
-/

namespace LiveChart

/-! ## Scalars -/

/-- An amount that numbers of any kind can have. -/
inductive Amount where
  | finite (units : Int)
  | infinite (negative : Bool)
  deriving DecidableEq

/-- The amount of a double; not-a-number has none. -/
def Double.amount? (x : Double) : Option Amount :=
  match x with
  | .infinite negative => some (.infinite negative)
  | _ => x.rank.map .finite

/-- The whole number of a truth value. -/
def boolInt (b : Bool) : Int := if b then 1 else 0

namespace Scalar

/-- Whether a scalar is a number or a truth value. -/
def isNumeric : Scalar → Bool
  | .bool _ | .int _ | .double _ | .fixedInt .. | .fixedFloat .. | .flag _ => true
  | _ => false

/-- The amount of a numeric scalar. -/
def amount? : Scalar → Option Amount
  | .bool b | .flag b => some (.finite (boolInt b * one))
  | .int n | .fixedInt _ n => some (.finite (n * one))
  | .double x | .fixedFloat _ x => x.amount?
  | _ => none

/-- Equality of numeric scalars. -/
def sameAmount (a b : Scalar) : Bool :=
  match a.amount?, b.amount? with
  | some x, some y => x == y
  | _, _ => false

/-- Equality of moments: by instant if both know their offset, by the clock if neither does. -/
def sameMoment (s t : Moment) : Bool :=
  match s.ahead, t.ahead with
  | some _, some _ => s.instant == t.instant
  | none, none => s.micros == t.micros
  | _, _ => false

/-- Equality of ticks: both begin at the same time. -/
def sameTick (s t : Tick) : Bool :=
  match s.picos?, t.picos? with
  | some a, some b => a == b
  | _, _ => false

/-- Whether a tick of a clock's unit begins at a moment without offset. -/
def sameClock (t : Tick) (s : Moment) : Bool :=
  match t.picos?, s.ahead with
  | some p, none => t.unit.isClock && p == s.micros * 10 ^ 6
  | _, _ => false

/-- Equality of scalars. -/
def same (a b : Scalar) : Bool :=
  if a.isNumeric && b.isNumeric then a.sameAmount b
  else
    match a, b with
    | .null, .null => true
    | .text s, .text t => s == t
    | .bytes s, .bytes t | .bytes s, .byteArray t | .byteArray s, .bytes t
    | .byteArray s, .byteArray t => s == t
    | .day s, .day t => s == t
    | .moment s, .moment t => sameMoment s t
    | .duration s, .duration t => s == t
    | .tick s, .tick t => sameTick s t
    | .tick t, .moment s | .moment s, .tick t => sameClock t s
    | _, _ => false

end Scalar

/-! ## Values -/

namespace Value

mutual

/-- Equality of values. -/
def same : Value → Value → Bool
  | .scalar a, .scalar b => a.same b
  | .list xs, .list ys => sameItems xs ys
  | .tuple xs, .tuple ys => sameItems xs ys
  | .set xs, .set ys => xs.length == ys.length && allAmong xs ys
  | .dict xs, .dict ys => xs.length == ys.length && allEntriesAmong xs ys
  | .array _ xs, .array _ ys => sameItems xs ys
  | _, _ => false
termination_by structural v => v

/-- Equality of items, one by one. -/
def sameItems : List Value → List Value → Bool
  | [], [] => true
  | x :: xs, y :: ys => same x y && sameItems xs ys
  | _, _ => false
termination_by structural vs => vs

/-- Whether every item has an equal among others. -/
def allAmong : List Value → List Value → Bool
  | [], _ => true
  | x :: xs, ys => ys.any (fun y => same x y) && allAmong xs ys
termination_by structural vs => vs

/-- Whether every entry has an equal among others. -/
def allEntriesAmong : List (Value × Value) → List (Value × Value) → Bool
  | [], _ => true
  | (k, v) :: xs, ys => ys.any (fun (l, w) => same k l && same v w) && allEntriesAmong xs ys
termination_by structural es => es

end

/-! ## Keys of dictionaries -/

mutual

/-- Whether a value can be a key: containers that can change cannot. -/
def isHashable : Value → Bool
  | .scalar (.byteArray _) => false
  | .scalar _ => true
  | .tuple items => allHashable items
  | _ => false

/-- Whether all items can be keys. -/
def allHashable : List Value → Bool
  | [] => true
  | v :: rest => v.isHashable && allHashable rest

end

/-- What the entries hold under a key. -/
def lookup? {α : Type} (key : Value) (entries : Entries α) : Option α :=
  (entries.find? fun (k, _) => k.same key).map Prod.snd

/-- The entries with a key bound to a value: in its place if an equal key is there, else at the
end. -/
def bindKey {α : Type} (key : Value) (a : α) : Entries α → Entries α
  | [] => [(key, a)]
  | (k, b) :: rest => if k.same key then (k, a) :: rest else (k, b) :: bindKey key a rest

/-- A dictionary of the given bindings, of which the last for a key holds. -/
def dictOf (bindings : List (Value × Value)) : Value :=
  .dict (bindings.foldl (fun entries (k, v) => bindKey k v entries) [])

/-- A set of the given items. -/
def setOf (items : List Value) : Value :=
  .set (items.foldl (fun kept v => if kept.any (·.same v) then kept else kept ++ [v]) [])

end Value

end LiveChart
