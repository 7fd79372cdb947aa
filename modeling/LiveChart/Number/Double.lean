import LiveChart.Number.Rounding
/-!
# Double-precision numbers

A double is a signed magnitude of the 64-bit format, an infinity, or not a number.  Order and
equality are those of the *rank*, the signed count of units, so they are the order of the integers;
arithmetic is exact on ranks and rounds once.

* `Double.rank` : the signed number of units, absent for not-a-number only;
* `Double.ofRatio` : the double nearest to a quotient of units;
* `Double.le_iff`, `Double.not_lt` : the order is the order of the ranks.
-/

namespace LiveChart

/-- A double-precision number; both zeros are kept apart. -/
inductive Double where
  | finite (negative : Bool) (units : Nat) (fits : binary64.Fits units)
  | infinite (negative : Bool)
  | nan
  deriving DecidableEq

namespace Double

/-! ## Building -/

/-- The double nearest to `num / den` units with the given sign; infinite past the ceiling. -/
def ofRatio (negative : Bool) (num den : Nat) : Double :=
  if h : binary64.round num den < 2 ^ binary64.ceiling then
    .finite negative (binary64.round num den) (binary64.fits_round num den h)
  else .infinite negative

/-- The double nearest to a signed number of units. -/
def ofUnits (z : Int) : Double := ofRatio (z < 0) z.natAbs 1

/-- Positive zero. -/
def zero : Double := .finite false 0 binary64.fits_zero

instance : Inhabited Double := ⟨zero⟩

/-- The double nearest to a whole number, infinite when it is out of range. -/
def ofIntSaturating (n : Int) : Double := ofUnits (n * one)

/-- The double nearest to a whole number, absent when it is out of range. -/
def ofInt? (n : Int) : Option Double :=
  match ofIntSaturating n with
  | .infinite _ => none
  | x => some x

/-- The double nearest to a small whole number. -/
def ofNat (n : Nat) : Double := ofIntSaturating n

/-- The double nearest to a fraction of whole numbers. -/
def ofFraction (num : Int) (den : Nat) : Double := ofRatio (num < 0) (num.natAbs * one) den

/-! ## Order -/

/-- Whether the sign is negative, also of a zero. -/
def isNegative : Double → Bool
  | .finite negative _ _ => negative
  | .infinite negative => negative
  | .nan => false

/-- The signed number of units; an infinity stands just past every finite magnitude. -/
def rank : Double → Option Int
  | .finite true u _ => some (-(u : Int))
  | .finite false u _ => some u
  | .infinite true => some (-(2 : Int) ^ binary64.ceiling)
  | .infinite false => some ((2 : Int) ^ binary64.ceiling)
  | .nan => none

/-- Not a number. -/
def isNaN : Double → Bool
  | .nan => true
  | _ => false

/-- Neither infinite nor not-a-number. -/
def isFinite : Double → Bool
  | .finite .. => true
  | _ => false

/-- Equal to zero, of either sign. -/
def isZero : Double → Bool
  | .finite _ u _ => u == 0
  | _ => false

/-- Strictly below; false when either side is not a number. -/
def lt (x y : Double) : Bool :=
  match x.rank, y.rank with
  | some a, some b => a < b
  | _, _ => false

/-- At most; false when either side is not a number. -/
def le (x y : Double) : Bool :=
  match x.rank, y.rank with
  | some a, some b => a ≤ b
  | _, _ => false

/-- Numerically equal: the zeros are equal, and not-a-number equals nothing. -/
def same (x y : Double) : Bool :=
  match x.rank, y.rank with
  | some a, some b => a == b
  | _, _ => false

/-- The place of a number in the order of all numbers, as an integer. -/
def order (x : Double) : Int := x.rank.getD 0

/-- The exact whole number that a finite double equals, if it is one. -/
def whole? : Double → Option Int
  | .finite negative u _ =>
    if u % one = 0 then some (if negative then -(u / one : Nat) else (u / one : Nat)) else none
  | _ => none

/-- The whole part, toward zero, of a finite double. -/
def trunc? : Double → Option Int
  | .finite true u _ => some (-((u / one : Nat) : Int))
  | .finite false u _ => some ((u / one : Nat) : Int)
  | _ => none

/-! ## Arithmetic -/

/-- The opposite. -/
def neg : Double → Double
  | .finite negative u h => .finite (!negative) u h
  | .infinite negative => .infinite (!negative)
  | .nan => .nan

/-- The sum of two signed magnitudes; an exact zero is negative only if both terms are. -/
def addUnits (nx : Bool) (u : Nat) (ny : Bool) (v : Nat) : Double :=
  let z := (if nx then -(u : Int) else u) + (if ny then -(v : Int) else v)
  if z = 0 then .finite (nx && ny) 0 binary64.fits_zero else ofUnits z

/-- The rounded sum. -/
def add : Double → Double → Double
  | .nan, _ => .nan
  | _, .nan => .nan
  | .infinite a, .infinite b => if a = b then .infinite a else .nan
  | .infinite a, .finite .. => .infinite a
  | .finite .., .infinite b => .infinite b
  | .finite nx u _, .finite ny v _ => addUnits nx u ny v

/-- The rounded difference. -/
def sub (x y : Double) : Double := add x y.neg

/-- The rounded product. -/
def mul : Double → Double → Double
  | .nan, _ => .nan
  | _, .nan => .nan
  | .infinite a, y => if y.isZero then .nan else .infinite (a != y.isNegative)
  | x, .infinite b => if x.isZero then .nan else .infinite (x.isNegative != b)
  | .finite nx u _, .finite ny v _ => ofRatio (nx != ny) (u * v) one

/-- The rounded quotient by a non-zero finite number; not a number for any other divisor. -/
def div : Double → Double → Double
  | .infinite a, .finite ny (_ + 1) _ => .infinite (a != ny)
  | .finite nx u _, .finite ny (v + 1) _ => ofRatio (nx != ny) (u * one) (v + 1)
  | _, _ => .nan

/-- The nearest number of a narrower format, infinite past its ceiling. -/
def narrow (f : Format) : Double → Double
  | .finite negative u _ =>
    let v := f.round u 1
    if v < 2 ^ f.ceiling then ofRatio negative v 1 else .infinite negative
  | x => x

/-! ## Laws of the order -/

/-- The order is the order of the ranks. -/
theorem le_iff {x y : Double} :
    x.le y = true ↔ ∃ a b, x.rank = some a ∧ y.rank = some b ∧ a ≤ b := by
  unfold le
  cases x.rank <;> cases y.rank <;> simp

/-- Two numbers are comparable. -/
theorem not_lt {x y : Double} (hx : x.isNaN = false) (hy : y.isNaN = false) :
    x.lt y = false ↔ y.le x = true := by
  have some_rank : ∀ w : Double, w.isNaN = false → ∃ a, w.rank = some a := by
    intro w hw
    cases w with
    | nan => simp [isNaN] at hw
    | infinite n => cases n <;> exact ⟨_, rfl⟩
    | finite n u h => cases n <;> exact ⟨_, rfl⟩
  obtain ⟨a, ha⟩ := some_rank x hx
  obtain ⟨b, hb⟩ := some_rank y hy
  simp [lt, le, ha, hb]

end Double

end LiveChart
