import LiveChart.Value.Equality
import LiveChart.Number.Reading
import LiveChart.Error
/-!
# Taking values for what is needed

A number, a truth value, a sequence or a dictionary may be asked of any value.  Each reader here
gives what the value is good for, or says by a fault why it is good for nothing.

* `truth` : the truth of a value;
* `toDouble`, `toInt` : its number;
* `elements` : what it holds, one after another;
* `toEntries` : the dictionary that it makes;
* `itemAt` : what it holds under an index or a key.
-/

namespace LiveChart.Value

/-! ## Truth and words -/

/-- The truth of a scalar: zero, the empty text and the absent value are false. -/
def scalarTruth : Scalar → Bool
  | .null => false
  | .bool b | .flag b => b
  | .int n | .fixedInt _ n => n != 0
  | .double x | .fixedFloat _ x => !x.isZero
  | .text s => !s.isEmpty
  | .bytes bs | .byteArray bs => !bs.isEmpty
  | .duration d => d.micros != 0
  | .tick t => t.count != some 0
  | .day _ | .moment _ | .object => true

/-- The truth of a value: an empty container is false, and an array has the truth of its only
element. -/
def truth : Value → Result Bool
  | .scalar s => .ok (scalarTruth s)
  | .list items | .tuple items | .set items => .ok !items.isEmpty
  | .dict entries => .ok !entries.isEmpty
  | .array _ items =>
    match leavesOf items with
    | [.scalar s] => .ok (scalarTruth s)
    | [v] => .ok (match v with
      | .list items | .tuple items | .set items => !items.isEmpty
      | .dict entries => !entries.isEmpty
      | _ => true)
    | _ => fail .value

/-- Whether a value is a word; an array must have one element to be compared. -/
def isWord (word : String) : Value → Result Bool
  | .text s => .ok (s == word)
  | .array _ items =>
    match leavesOf items with
    | [.text s] => .ok (s == word)
    | [_] => .ok false
    | _ => fail .value
  | _ => .ok false

/-- The first of some choices whose word a value is.  An array of one element that is the word
chooses as the word does; readers keep the choice, and that an array was given is left out. -/
def choose? {α : Type} (word : α → String) : List α → Value → Result (Option α)
  | [], _ => .ok none
  | a :: rest, v => do if ← isWord (word a) v then .ok (some a) else choose? word rest v

/-! ## Numbers -/

/-- The double of a value.  A text or a byte string is read; a whole number may be out of range. -/
def toDouble : Value → Result Double
  | .scalar s =>
    match s with
    | .double x | .fixedFloat _ x => .ok x
    | .bool b | .flag b => .ok (Double.ofIntSaturating (boolInt b))
    | .int n | .fixedInt _ n =>
      match Double.ofInt? n with
      | some x => .ok x
      | none => fail .overflow
    | .text t =>
      match readDouble? t with
      | some x => .ok x
      | none => fail .value
    | .bytes bs | .byteArray bs =>
      match (asciiOfBytes? bs).bind readDouble? with
      | some x => .ok x
      | none => fail .value
    | .tick t =>
      match t.count with
      | some n => if t.isCalendar then fail .type else .ok (Double.ofIntSaturating n)
      | none => fail .type
    | _ => fail .type
  | _ => fail .type

/-- The whole number of a double, toward zero. -/
def doubleToInt (x : Double) : Result Int :=
  match x.trunc? with
  | some n => .ok n
  | none => fail (if x.isNaN then .value else .overflow)

/-- The whole number of a value, toward zero.  A text or a byte string is read. -/
def toInt : Value → Result Int
  | .scalar s =>
    match s with
    | .int n | .fixedInt _ n => .ok n
    | .bool b | .flag b => .ok (boolInt b)
    | .double x | .fixedFloat _ x => doubleToInt x
    | .text t =>
      match readInt? t with
      | some n => .ok n
      | none => fail .value
    | .bytes bs | .byteArray bs =>
      match (asciiOfBytes? bs).bind readInt? with
      | some n => .ok n
      | none => fail .value
    | .tick t =>
      match t.count with
      | some n => if t.isCalendar then fail .type else .ok n
      | none => fail .type
    | _ => fail .type
  | _ => fail .type

/-- Whether a scalar is a number below zero. -/
def scalarNegative : Scalar → Result Bool
  | .bool _ | .flag _ => .ok false
  | .int n | .fixedInt _ n => .ok (n < 0)
  | .double x | .fixedFloat _ x => .ok (x.lt .zero)
  | _ => fail .type

/-- Whether an element of an array is a number below zero. -/
def leafNegative : Value → Result Bool
  | .scalar s => scalarNegative s
  | _ => fail .type

/-- Whether a number is below zero.  An array must hold nothing but numbers, and only one. -/
def isNegative : Value → Result Bool
  | .scalar s => scalarNegative s
  | .array _ items => do
    match ← (leavesOf items).mapM leafNegative with
    | [negative] => .ok negative
    | _ => fail .value
  | _ => fail .type

/-! ## Sequences -/

/-- An element of an array as it stands by itself. -/
def elementOf (element : Element) (v : Value) : Value :=
  match element, v with
  | .whole w, .int n => .scalar (.fixedInt w n)
  | .real w, .double x => .scalar (.fixedFloat w x)
  | .flag, .bool b => .scalar (.flag b)
  | _, v => v

/-- The number of a byte. -/
def ofByte (b : UInt8) : Value := .int b.toNat

/-- What a value holds, one after another: the characters of a text, the numbers of bytes, the keys
of a dictionary. -/
def elements : Value → Result (List Value)
  | .scalar s =>
    match s with
    | .text t => .ok (t.toList.map fun c => text (String.singleton c))
    | .bytes bs | .byteArray bs => .ok (bs.map ofByte)
    | _ => fail .type
  | .list items | .tuple items | .set items => .ok items
  | .dict entries => .ok (entries.map Prod.fst)
  | .array element items => .ok (items.map (elementOf element))

/-- A list has its items as elements. -/
theorem elements_list (items : List Value) : elements (.list items) = .ok items := rfl

/-! ## Dictionaries -/

/-- The entries of a dictionary. -/
def entries? : Value → Option (List (Value × Value))
  | .dict entries => some entries
  | _ => none

/-- What a dictionary holds under a name; other values have no such operation. -/
def member (name : String) : Value → Result (Option Value)
  | .dict entries => .ok (Entries.field? name entries)
  | _ => fail .attribute

/-- What a dictionary holds under a key; other values have no such operation. -/
def memberAt (v key : Value) : Result (Option Value) :=
  match v with
  | .dict entries => if key.isHashable then .ok (lookup? key entries) else fail .type
  | _ => fail .attribute

/-- The key and the value of a pair. -/
def toPair (v : Value) : Result (Value × Value) := do
  match ← v.elements with
  | [k, w] => if k.isHashable then .ok (k, w) else fail .type
  | _ => fail .value

/-- The bindings of pairs, each after those before it. -/
def bindPairs : List Value → Entries Value → Result (Entries Value)
  | [], entries => .ok entries
  | v :: rest, entries => do
    let (k, w) ← toPair v
    bindPairs rest (bindKey k w entries)

/-- The dictionary that a value makes: its own entries, or the pairs that it holds. -/
def toEntries : Value → Result (Entries Value)
  | .dict entries => .ok entries
  | v => do bindPairs (← v.elements) []

/-! ## Indices -/

/-- The whole number of a value that can be an index. -/
def index? : Value → Option Int
  | .scalar (.int n) | .scalar (.fixedInt _ n) => some n
  | .scalar (.bool b) => some (boolInt b)
  | _ => none

/-- The item at a position, counted from the end if it is negative. -/
def atIndex {α : Type} (items : List α) (i : Int) : Option α :=
  let n := if i < 0 then i + items.length else i
  if n < 0 then none else items[n.toNat]?

/-- The item of a sequence at an index. -/
def itemOf (items : List Value) (key : Value) : Result Value :=
  match key.index? with
  | none => fail .type
  | some i =>
    match atIndex items i with
    | some v => .ok v
    | none => fail .index

/-- What a value holds under an index or a key. -/
def itemAt (v key : Value) : Result Value :=
  match v with
  | .dict entries =>
    if key.isHashable then
      match lookup? key entries with
      | some v => .ok v
      | none => fail .key
    else fail .type
  | .list items | .tuple items => itemOf items key
  | .array element items =>
    match key with
    | null | .bool _ | .scalar (.flag _) => fail .type
    | _ =>
      match key.index?.bind (atIndex items) with
      | some v => .ok (elementOf element v)
      | none => fail .index
  | .scalar s =>
    match s with
    | .text t => itemOf (t.toList.map fun c => text (String.singleton c)) key
    | .bytes bs | .byteArray bs => itemOf (bs.map ofByte) key
    | .fixedInt .. | .fixedFloat .. | .flag _ | .tick _ => fail .index
    | _ => fail .type
  | .set _ => fail .type

end LiveChart.Value
