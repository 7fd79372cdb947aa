import LiveChart.Value.Equality
import LiveChart.Value.Display
/-!
# Keys

A key is a frozen value: what is equal stays equal, and every container becomes one that cannot
change.  Sequences of all kinds become tuples, dictionaries become sets of pairs, the absent value
is undefined, and a byte array is marked by its kind and its quoted text.

* `Value.freeze` : the key of a value;
* `Key.same` : equality of keys.
-/

namespace LiveChart

/-- A frozen value. -/
inductive Key where
  | undefined
  | scalar (s : Scalar)
  | tuple (items : List Key)
  | set (items : List Key)

namespace Key

instance : Inhabited Key := ⟨undefined⟩

/-- The name of the undefined key. -/
def undefinedName : String := "UNDEFINED"

mutual

/-- Equality of keys. -/
def same : Key → Key → Bool
  | .undefined, .undefined => true
  | .scalar a, .scalar b => a.same b
  | .tuple xs, .tuple ys => sameItems xs ys
  | .set xs, .set ys => allAmong xs ys && ys.all fun y => anySame xs y
  | _, _ => false
termination_by structural k => k

/-- Equality of the items of keys, one by one. -/
def sameItems : List Key → List Key → Bool
  | [], [] => true
  | x :: xs, y :: ys => same x y && sameItems xs ys
  | _, _ => false
termination_by structural k => k

/-- Whether every item has an equal among others. -/
def allAmong : List Key → List Key → Bool
  | [], _ => true
  | x :: xs, ys => ys.any (fun y => same x y) && allAmong xs ys
termination_by structural k => k

/-- Whether an item equals a key. -/
def anySame : List Key → Key → Bool
  | [], _ => false
  | x :: xs, y => same x y || anySame xs y
termination_by structural k => k

end

end Key

namespace Value

mutual

/-- The key that a dictionary's key is, as it stands. -/
def toKey : Value → Key
  | .scalar s => .scalar s
  | .list items | .tuple items | .array _ items => .tuple (toKeys items)
  | .set items => .set (toKeys items)
  | .dict _ => .undefined

/-- The keys that some items are, as they stand. -/
def toKeys : List Value → List Key
  | [] => []
  | v :: rest => v.toKey :: toKeys rest

end

/-- The key of a scalar. -/
def freezeScalar (s : Scalar) : Key :=
  match s with
  | .null => .undefined
  | .byteArray _ =>
    .tuple [.scalar (.text "__unhashable__"), .scalar (.text (Value.scalar s).kind),
      .scalar (.text s.quoted)]
  | s => .scalar s

mutual

/-- The key of a value. -/
def freeze : Value → Key
  | .scalar s => freezeScalar s
  | .list items | .tuple items | .array _ items => .tuple (freezeItems items)
  | .set items => .set (freezeItems items)
  | .dict entries => .set (freezeEntries entries)

/-- The keys of items. -/
def freezeItems : List Value → List Key
  | [] => []
  | v :: rest => v.freeze :: freezeItems rest

/-- The keys of entries, each a pair of the entry's key and its frozen value. -/
def freezeEntries : List (Value × Value) → List Key
  | [] => []
  | (k, v) :: rest => .tuple [k.toKey, v.freeze] :: freezeEntries rest

end

end Value

end LiveChart
