/-!
# Rounding a quotient onto a binary grid

A binary format keeps a fixed number of leading bits.  Its numbers are counted here in *units* of
`2 ^ -1074`, the finest step of the widest format, so that a magnitude is a natural number and
every comparison is a comparison of whole numbers.

* `nearest` : the whole number nearest to a quotient, a half going to the even neighbour;
* `Format.round` : the number of a format nearest to a quotient of units;
* `Format.fits_round` : what `Format.round` gives is a number of the format, unless it overflows.
-/

namespace LiveChart

/-! ## The nearest whole number -/

/-- The whole number nearest to `num / den`; a half goes to the even neighbour. -/
def nearest (num den : Nat) : Nat :=
  let q := num / den
  let r := num % den
  if 2 * r < den then q
  else if den < 2 * r then q + 1
  else q + q % 2

/-- Rounding goes at most one above the floor. -/
theorem nearest_le (num den : Nat) : nearest num den ≤ num / den + 1 := by
  unfold nearest
  dsimp only
  split
  · omega
  · split <;> omega

/-- Rounding never goes below the floor. -/
theorem le_nearest (num den : Nat) : num / den ≤ nearest num den := by
  unfold nearest
  dsimp only
  split
  · omega
  · split <;> omega

/-! ## Binary formats -/

-- a power is the one of the core library, also where another instance is at hand
attribute [instance (high), default_instance (high + 1)] instPowNat

/-- The exponent of the unit: one is `2 ^ unitExponent` units. -/
def unitExponent : Nat := 1074

/-- The number of units in one. -/
def one : Nat := 2 ^ unitExponent

/-- A binary format: its bits of precision, and in powers of two of a unit its finest step and the
first magnitude it cannot hold. -/
structure Format where
  /-- Leading bits kept. -/
  precision : Nat
  /-- The finest step is `2 ^ finest` units. -/
  finest : Nat
  /-- Magnitudes of `2 ^ ceiling` units and more overflow. -/
  ceiling : Nat
  deriving DecidableEq, Repr

/-- The 64-bit format. -/
def binary64 : Format := ⟨53, 0, 2098⟩

/-- The 32-bit format. -/
def binary32 : Format := ⟨24, 925, 1202⟩

/-- The 16-bit format. -/
def binary16 : Format := ⟨11, 1050, 1090⟩

namespace Format

/-- The exponent of the step between neighbours at a magnitude of about `q` units. -/
def stepAt (f : Format) (q : Nat) : Nat := max f.finest (q.log2 + 1 - f.precision)

/-- The number of the format nearest to `num / den` units, a half going to the even neighbour. -/
def round (f : Format) (num den : Nat) : Nat :=
  let s := f.stepAt (num / den)
  nearest num (den * 2 ^ s) * 2 ^ s

/-- The magnitudes of a format: few enough leading bits, on the finest grid, below the ceiling. -/
def Fits (f : Format) (u : Nat) : Prop :=
  u < 2 ^ f.ceiling ∧ ∃ m s, m ≤ 2 ^ f.precision ∧ f.finest ≤ s ∧ u = m * 2 ^ s

/-- Rounding keeps no more bits than the format has. -/
theorem nearest_step_le (f : Format) (num den : Nat) :
    nearest num (den * 2 ^ f.stepAt (num / den)) ≤ 2 ^ f.precision := by
  have hq : num / den < 2 ^ (f.stepAt (num / den) + f.precision) := by
    refine Nat.lt_of_lt_of_le (Nat.lt_log2_self (n := num / den)) ?_
    refine Nat.pow_le_pow_right (by decide) ?_
    unfold stepAt
    omega
  have hlt : num / (den * 2 ^ f.stepAt (num / den)) < 2 ^ f.precision := by
    rw [← Nat.div_div_eq_div_mul]
    refine Nat.div_lt_of_lt_mul ?_
    rwa [← Nat.pow_add]
  exact Nat.le_trans (nearest_le _ _) hlt

/-- Rounding gives a number of the format, unless it reaches the ceiling. -/
theorem fits_round (f : Format) (num den : Nat) (h : f.round num den < 2 ^ f.ceiling) :
    f.Fits (f.round num den) :=
  ⟨h, _, _, f.nearest_step_le num den, Nat.le_max_left _ _, rfl⟩

/-- Zero is a number of every format. -/
theorem fits_zero (f : Format) : f.Fits 0 :=
  ⟨Nat.two_pow_pos _, 0, f.finest, Nat.zero_le _, Nat.le_refl _, by simp⟩

end Format

end LiveChart
