import LiveChart.Number.Double
import LiveChart.Text.Class
/-!
# Numbers in decimal digits

The shortest text of a number has the fewest significant digits that read back as the number in its
format, and of those the digits nearest to it.  It is positional from a ten-thousandth up to a bound
that depends on the format, and has an exponent of at least two digits elsewhere; a whole number in
positional form keeps `.0`.

* `Decimal.shortest` : the fewest digits that read back;
* `ShortForm` : the format and the bound;
* `Double.text` : the shortest text of a double;
* `Double.fixedDigits` : a given number of decimal places, a half going to the even neighbour.
-/

namespace LiveChart

open Text (decimal paddedDecimal)

/-- The number `digits * 10 ^ exponent`. -/
structure Decimal where
  digits : Nat
  exponent : Int
  deriving DecidableEq, Repr

namespace Decimal

/-- The numerator of a decimal, counted in units. -/
def num (d : Decimal) : Nat := d.digits * 10 ^ d.exponent.toNat * one

/-- The denominator of a decimal. -/
def den (d : Decimal) : Nat := 10 ^ (-d.exponent).toNat

/-- Whether a decimal rounds to the magnitude `u` in a format. -/
def readsBack (f : Format) (u : Nat) (d : Decimal) : Bool := f.round d.num d.den == u

/-- How often `u` has to be multiplied by ten to reach one, in at most `fuel` steps. -/
def zerosBefore : Nat → Nat → Nat
  | 0, _ => 0
  | fuel + 1, u => if one ≤ u then 0 else zerosBefore fuel (10 * u) + 1

/-- The exponent of the first significant digit of a positive magnitude. -/
def leading (u : Nat) : Int :=
  if one ≤ u then (decimal (u / one)).length - 1 else -(zerosBefore 400 u : Int)

/-- The two neighbours of a magnitude on the grid of step `10 ^ e`, the nearer one first and an even
one before an odd one. -/
def neighbours (u : Nat) (e : Int) : Decimal × Decimal :=
  let num := u * 10 ^ (-e).toNat
  let den := one * 10 ^ e.toNat
  let below := num / den
  let near := nearest num den
  let far := if near = below then below + 1 else below
  (⟨near, e⟩, ⟨far, e⟩)

/-- The first of `fuel` grids, each ten times finer than the last, with a neighbour that reads back;
the nearest neighbour on the last grid if there is none. -/
def search (f : Format) (u : Nat) : Nat → Int → Decimal
  | 0, e => (neighbours u e).1
  | fuel + 1, e =>
    let (near, far) := neighbours u e
    if readsBack f u near then near
    else if readsBack f u far then far
    else search f u fuel (e - 1)

/-- The fewest significant digits that read back as a positive magnitude of a format. -/
def shortest (f : Format) (u : Nat) : Decimal := search f u 17 (leading u)

end Decimal

/-! ## Short forms -/

/-- How numbers of a format are written in short: at most `wholeDigits` digits stand before the
point, and longer numbers get an exponent. -/
structure ShortForm where
  format : Format
  wholeDigits : Nat
  deriving DecidableEq, Repr

/-- The short form of the 64-bit format. -/
def short64 : ShortForm := ⟨binary64, 16⟩

/-- The short form of the 32-bit format. -/
def short32 : ShortForm := ⟨binary32, 6⟩

/-- The short form of the 16-bit format. -/
def short16 : ShortForm := ⟨binary16, 3⟩

/-- Whether a positive magnitude is written without an exponent.  The magnitude itself decides, and
not its digits: the 32-bit number nearest to `1e-04` lies below a ten-thousandth. -/
def ShortForm.isPositional (form : ShortForm) (u : Nat) : Bool :=
  one ≤ 10 ^ 4 * u && u < 10 ^ form.wholeDigits * one

namespace Double

/-- Digits without their trailing zeros. -/
def significant (ds : List Char) : List Char := (ds.reverse.dropWhile (· == '0')).reverse

/-- The digits in front of the point, where the point comes after `point` digits. -/
def wholePart (ds : List Char) (point : Int) : List Char :=
  if point ≤ 0 then ['0'] else ds.take point.toNat ++ List.replicate (point.toNat - ds.length) '0'

/-- The digits behind the point. -/
def fractionPart (ds : List Char) (point : Int) : List Char :=
  if point ≤ 0 then List.replicate (-point).toNat '0' ++ ds else ds.drop point.toNat

/-- The digits with a point among them; at least one digit stands on either side. -/
def positional (ds : List Char) (point : Int) : List Char :=
  let fraction := fractionPart ds point
  wholePart ds point ++ ['.'] ++ (if fraction.isEmpty then ['0'] else fraction)

/-- The digits with one before the point, and an exponent of at least two digits. -/
def scientific (ds : List Char) (e : Int) : List Char :=
  let fraction := ds.drop 1
  ds.take 1 ++ (if fraction.isEmpty then [] else '.' :: fraction) ++
    ['e', if e < 0 then '-' else '+'] ++ paddedDecimal 2 e.natAbs

/-- The fewest significant digits of a positive magnitude, and how many of them stand in front of
the point. -/
def shortDigits (f : Format) (u : Nat) : List Char × Int :=
  let d := Decimal.shortest f u
  let ds := decimal d.digits
  (significant ds, d.exponent + ds.length)

/-- The short text of a magnitude. -/
def magnitudeText (form : ShortForm) (u : Nat) : List Char :=
  if u = 0 then ['0', '.', '0']
  else
    let (ds, point) := shortDigits form.format u
    if form.isPositional u then positional ds point else scientific ds (point - 1)

/-- A text under a sign. -/
def signed (negative : Bool) (cs : List Char) : List Char := if negative then '-' :: cs else cs

/-- The text of a number in a short form. -/
def textIn (form : ShortForm) : Double → String
  | .finite negative u _ => String.ofList (signed negative (magnitudeText form u))
  | .infinite negative => String.ofList (signed negative ['i', 'n', 'f'])
  | .nan => "nan"

/-- The shortest text of a double. -/
def text (x : Double) : String := x.textIn short64

/-! ## Fixed places -/

/-- The whole digits and the `places` decimal digits nearest to a magnitude. -/
def fixedDigits (places u : Nat) : List Char × List Char :=
  let ds := paddedDecimal (places + 1) (nearest (u * 10 ^ places) one)
  (ds.take (ds.length - places), ds.drop (ds.length - places))

end Double

end LiveChart
