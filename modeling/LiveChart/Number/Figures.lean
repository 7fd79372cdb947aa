import LiveChart.Number.Decimal
/-!
# Figures: numbers written alike

Figures are numbers that stand together and are written alike.  All have an exponent if one of them
is large or small or if their magnitudes lie far apart.  Their points meet: numbers without
exponents are padded on both sides, and numbers with exponents have the same count of decimal
places.  No number has more than `maxPlaces` places.

* `Figures.ofNumbers` : the form that some numbers share;
* `Figures.text` : a number in that form.
-/

namespace LiveChart

open Text (decimal paddedDecimal)

/-- The form that figures share. -/
structure Figures where
  /-- The format that the numbers are read back in. -/
  format : Format
  /-- The characters in front of the point. -/
  left : Nat
  /-- The characters behind the point and in front of the exponent. -/
  places : Nat
  /-- The digits of the exponent, if the numbers have one. -/
  exponentDigits : Option Nat
  deriving DecidableEq, Repr

namespace Figures

/-- The greatest count of decimal places. -/
def maxPlaces : Nat := 8

/-- The whole digits and the fraction of a magnitude: the fewest digits that read back, or fewer if
that takes too many places. -/
def positionalDigits (f : Format) (u : Nat) : List Char × List Char :=
  if u = 0 then (['0'], [])
  else
    let (ds, point) := Double.shortDigits f u
    let fraction := Double.fractionPart ds point
    if fraction.length ≤ maxPlaces then (Double.wholePart ds point, fraction)
    else
      let (whole, fraction) := Double.fixedDigits maxPlaces u
      (whole, Double.significant fraction)

/-- The first digit of a magnitude with the `places` digits after it, and its exponent.  The fewest
digits that read back are taken if they are as many, and the nearest digits otherwise. -/
def scientificDigits (f : Format) (places u : Nat) : List Char × Int :=
  if u = 0 then (List.replicate (places + 1) '0', 0)
  else
    let (ds, point) := Double.shortDigits f u
    if ds.length = places + 1 then (ds, point - 1)
    else
      let d := (Decimal.neighbours u (Decimal.leading u - places)).1
      let ds := decimal d.digits
      (ds.take (places + 1), d.exponent + ds.length - 1)

/-- How many places a magnitude takes behind its first digit. -/
def scientificPlaces (f : Format) (u : Nat) : Nat :=
  if u = 0 then 0
  else
    let n := (Double.shortDigits f u).1.length
    if n ≤ maxPlaces + 1 then n - 1
    else (Double.significant (scientificDigits f maxPlaces u).1).length - 1

/-- The greatest of some counts. -/
def greatest (ns : List Nat) : Nat := ns.foldl max 0

/-- The least of some counts, zero if there are none. -/
def least : List Nat → Nat
  | [] => 0
  | n :: ns => ns.foldl min n

/-- Whether numbers of the given magnitudes are written with exponents: the greatest has more whole
digits than the format or the places allow, the least is below a ten-thousandth, or their quotient
is above a thousand. -/
def needsExponent (short : ShortForm) (us : List Nat) : Bool :=
  let us := us.filter (· != 0)
  let top := greatest us
  let bottom := least us
  !us.isEmpty &&
    (10 ^ min maxPlaces short.wholeDigits * one ≤ top || bottom < short.format.round one (10 ^ 4) ||
      1000 * one < short.format.round (top * one) bottom)

/-- The characters that a sign takes. -/
def signWidth (negative : Bool) : Nat := if negative then 1 else 0

/-- The signs and the magnitudes of the finite numbers among some. -/
def finite (xs : List Double) : List (Bool × Nat) :=
  xs.filterMap fun
    | .finite negative u _ => some (negative, u)
    | _ => none

/-- The form that finite numbers share. -/
def ofFinite (short : ShortForm) (ms : List (Bool × Nat)) : Figures :=
  let us := ms.map Prod.snd
  if needsExponent short us then
    let places := greatest (us.map (scientificPlaces short.format))
    let exponents := us.map fun u => (scientificDigits short.format places u).2
    { format := short.format
      left := greatest (ms.map fun (negative, _) => signWidth negative + 1)
      places
      exponentDigits := some (greatest (exponents.map fun e => (paddedDecimal 2 e.natAbs).length)) }
  else
    let digits := fun u => positionalDigits short.format u
    { format := short.format
      left := greatest (ms.map fun (negative, u) => signWidth negative + (digits u).1.length)
      places := greatest (us.map fun u => (digits u).2.length)
      exponentDigits := none }

/-- The characters that every one of the figures takes. -/
def width (form : Figures) : Nat := form.left + 1 + form.places + form.exponentDigits.elim 0 (· + 2)

/-- The form that numbers share: that of the finite ones, widened for the words that stand for the
others. -/
def ofNumbers (short : ShortForm) (xs : List Double) : Figures :=
  let form := ofFinite short (finite xs)
  let word := greatest (xs.map fun
    | .finite .. => 0
    | .infinite true => 4
    | _ => 3)
  { form with left := form.left + (word - form.width) }

/-- Characters with blanks before them up to a width. -/
def padded (width : Nat) (cs : List Char) : List Char :=
  List.replicate (width - cs.length) ' ' ++ cs

/-- The characters of a finite number in a shared form. -/
def finiteText (form : Figures) (negative : Bool) (u : Nat) : List Char :=
  match form.exponentDigits with
  | some n =>
    let (ds, e) := scientificDigits form.format form.places u
    padded form.left (Double.signed negative (ds.take 1)) ++ '.' :: ds.drop 1 ++
      ['e', if e < 0 then '-' else '+'] ++ paddedDecimal n e.natAbs
  | none =>
    let (whole, fraction) := positionalDigits form.format u
    padded form.left (Double.signed negative whole) ++ '.' :: fraction ++
      List.replicate (form.places - fraction.length) ' '

/-- A number in a shared form. -/
def text (form : Figures) : Double → String
  | .finite negative u _ => String.ofList (form.finiteText negative u)
  | .infinite negative => String.ofList (padded form.width (Double.signed negative ['i', 'n', 'f']))
  | .nan => String.ofList (padded form.width ['n', 'a', 'n'])

end Figures

end LiveChart
