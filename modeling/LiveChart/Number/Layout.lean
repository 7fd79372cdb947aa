import LiveChart.Number.Decimal
/-!
# Layouts of numbers

A layout says how a number with fixed places is written: fill and alignment within a width, sign,
separators between thousands, and the count of places.  It is read from a short text, in this order:
a fill and an alignment, a sign, `z` (no negative zero), `#` (always a point), a width, a separator,
a point with the places, and the letter `f`.

* `Layout.ofChars?` : the layout that a text asks for;
* `Layout.apply` : a number in a layout.
-/

namespace LiveChart

/-- Where a number stands within its width. -/
inductive Alignment where
  | left | right | center
  /-- At the right, with the fill between the sign and the digits. -/
  | afterSign
  deriving DecidableEq, Repr

/-- How a number is written. -/
structure Layout where
  fill : Char := ' '
  alignment : Alignment := .right
  /-- What stands in front of a number that is not negative. -/
  plus : Option Char := none
  noNegativeZero : Bool := false
  alwaysPoint : Bool := false
  width : Nat := 0
  separator : Option Char := none
  places : Nat := 6
  deriving DecidableEq, Repr

namespace Layout

/-! ## Reading -/

/-- The alignment that a character stands for. -/
def alignmentOf? : Char → Option Alignment
  | '<' => some .left
  | '>' => some .right
  | '^' => some .center
  | '=' => some .afterSign
  | _ => none

/-- A leading fill and alignment. -/
def readAlignment (l : Layout) : List Char → Layout × List Char
  | [] => (l, [])
  | c :: rest =>
    match rest with
    | d :: tail =>
      match alignmentOf? d with
      | some a => ({ l with fill := c, alignment := a }, tail)
      | none =>
        match alignmentOf? c with
        | some a => ({ l with alignment := a }, rest)
        | none => (l, c :: rest)
    | [] =>
      match alignmentOf? c with
      | some a => ({ l with alignment := a }, [])
      | none => (l, [c])

/-- A leading sign. -/
def readSign (l : Layout) : List Char → Layout × List Char
  | '+' :: rest => ({ l with plus := some '+' }, rest)
  | ' ' :: rest => ({ l with plus := some ' ' }, rest)
  | '-' :: rest => (l, rest)
  | cs => (l, cs)

/-- A leading letter `z`. -/
def readZero (l : Layout) : List Char → Layout × List Char
  | 'z' :: rest => ({ l with noNegativeZero := true }, rest)
  | cs => (l, cs)

/-- A leading number sign. -/
def readPoint (l : Layout) : List Char → Layout × List Char
  | '#' :: rest => ({ l with alwaysPoint := true }, rest)
  | cs => (l, cs)

/-- A leading number in digits of any script. -/
def readNumber (cs : List Char) : Option Nat × List Char :=
  let ds := cs.takeWhile fun c => (Text.digit? c).isSome
  let n := ds.foldl (fun n c => 10 * n + (Text.digit? c).getD 0) 0
  (if ds.isEmpty then none else some n, cs.drop ds.length)

/-- The greatest width. -/
def maxWidth : Nat := 2 ^ 63 - 1

/-- The greatest count of places. -/
def maxPlaces : Nat := 2 ^ 31 - 1

/-- A leading separator of thousands; two of them exclude each other. -/
def readSeparator? (l : Layout) : List Char → Option (Layout × List Char)
  | ',' :: '_' :: _ => none
  | '_' :: ',' :: _ => none
  | ',' :: rest => some ({ l with separator := some ',' }, rest)
  | '_' :: rest => some ({ l with separator := some '_' }, rest)
  | cs => some (l, cs)

/-- The point with the places, and the closing letter. -/
def readPlaces? (l : Layout) : List Char → Option Layout
  | ['f'] => some l
  | '.' :: rest =>
    match readNumber rest with
    | (some places, ['f']) => if places ≤ maxPlaces then some { l with places } else none
    | _ => none
  | _ => none

/-- The layout that a text asks for. -/
def ofChars? (cs : List Char) : Option Layout := do
  let (l, cs) := readAlignment {} cs
  let (l, cs) := readSign l cs
  let (l, cs) := readZero l cs
  let (l, cs) := readPoint l cs
  let (width, cs) := readNumber cs
  let width := width.getD 0
  if maxWidth < width then none
  else
    let (l, cs) ← readSeparator? { l with width } cs
    readPlaces? l cs

/-! ## Writing -/

/-- Digits with a separator before every three from the end. -/
def separateThousands (separator : Char) (ds : List Char) : List Char :=
  ds.zipIdx.flatMap fun (c, i) =>
    if 0 < i && (ds.length - i) % 3 = 0 then [separator, c] else [c]

/-- The characters of a magnitude. -/
def magnitude (l : Layout) (units : Nat) : List Char :=
  let (whole, fraction) := Double.fixedDigits l.places units
  let whole := match l.separator with
    | some s => separateThousands s whole
    | none => whole
  whole ++ (if l.places = 0 && !l.alwaysPoint then [] else ['.']) ++
    (if l.places = 0 then [] else fraction)

/-- Whether a number and the characters of its magnitude are a zero. -/
def isZeroText (cs : List Char) : Bool := cs.all fun c => !(c.isDigit && c != '0')

/-- A sign and the characters after it, within the width. -/
def within (l : Layout) (sign body : List Char) : List Char :=
  let missing := l.width - (sign.length + body.length)
  let filled := fun n => List.replicate n l.fill
  match l.alignment with
  | .left => sign ++ body ++ filled missing
  | .right => filled missing ++ sign ++ body
  | .center => filled (missing / 2) ++ sign ++ body ++ filled (missing - missing / 2)
  | .afterSign => sign ++ filled missing ++ body

/-- A number in a layout. -/
def apply (l : Layout) (x : Double) : String :=
  let body := match x with
    | .finite _ units _ => l.magnitude units
    | .infinite _ => ['i', 'n', 'f']
    | .nan => ['n', 'a', 'n']
  let negative := x.isNegative && !(l.noNegativeZero && x.isFinite && isZeroText body)
  let sign := if negative then ['-'] else l.plus.toList
  String.ofList (l.within sign body)

end Layout

end LiveChart
