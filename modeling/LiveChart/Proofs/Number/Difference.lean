import LiveChart.Proofs.Number.Monotone
/-!
# The sign of a difference

The finest step of the doubles is a double itself, so no difference of two different numbers is
rounded to zero: the rounded difference has the sign of the exact one.

* `Double.rounded_pos_iff` and `Double.rounded_neg_iff` : rounding keeps the sign;
* `Double.sub_eq_ofUnits` : a difference of different numbers depends on their places alone;
* `Double.zero_lt_sub_iff` and `Double.isZero_sub_iff` : the sign of a difference is that of the
  order.
-/

namespace LiveChart.Double

/-! ## Signs of rounded numbers -/

/-- One unit is a magnitude of the format. -/
theorem fits_unit : binary64.Fits 1 :=
  ⟨by decide +kernel, 1, 0, Nat.one_le_two_pow, le_rfl, rfl⟩

/-- Rounding keeps what is above zero there. -/
theorem rounded_pos_iff {z : ℤ} : 0 < rounded z ↔ 0 < z := by
  have hone : rounded 1 = 1 := congrArg Nat.cast (magnitude_of_fits fits_unit)
  constructor
  · intro h
    by_contra hz
    have hmono := rounded_mono (Int.not_lt.1 hz)
    rw [rounded_zero] at hmono
    omega
  · intro h
    have hmono := rounded_mono (show 1 ≤ z from h)
    omega

/-- Rounding keeps what is below zero there. -/
theorem rounded_neg_iff {z : ℤ} : rounded z < 0 ↔ z < 0 := by
  have hone : rounded (-1) = -1 :=
    congrArg (fun n : ℕ => -(n : ℤ)) (magnitude_of_fits fits_unit)
  constructor
  · intro h
    by_contra hz
    have hmono := rounded_mono (Int.not_lt.1 hz)
    rw [rounded_zero] at hmono
    omega
  · intro h
    have hmono := rounded_mono (show z ≤ -1 by omega)
    omega

/-- A number is zero at the place of zero. -/
theorem isZero_iff_order {x : Double} (hx : x.isNaN = false) : x.isZero = true ↔ x.order = 0 := by
  cases x with
  | nan => cases hx
  | infinite negative =>
    have hpos : 0 < 2 ^ binary64.ceiling := Nat.two_pow_pos _
    rw [order_infinite]
    refine ⟨fun h => (nomatch h), fun h => ?_⟩
    split_ifs at h <;> omega
  | finite negative u hu =>
    rw [order_finite, isZero, beq_iff_eq]
    split_ifs <;> omega

variable {x y w : Double}

/-! ## Places of finite numbers -/

/-- Finite numbers compare as their places do. -/
theorem lt_iff_of_isFinite (hx : x.isFinite = true) (hw : w.isFinite = true) :
    x.lt w = true ↔ x.order < w.order :=
  lt_iff_order (isNaN_of_isFinite hx) (isNaN_of_isFinite hw)

/-- Finite numbers are equal at one place. -/
theorem same_iff_of_isFinite (hx : x.isFinite = true) (hw : w.isFinite = true) :
    x.same w = true ↔ x.order = w.order :=
  same_iff_order (isNaN_of_isFinite hx) (isNaN_of_isFinite hw)

/-- Finite numbers differ at different places. -/
theorem same_eq_false_iff (hx : x.isFinite = true) (hw : w.isFinite = true) :
    x.same w = false ↔ x.order ≠ w.order := by
  rw [← Bool.not_eq_true, same_iff_of_isFinite hx hw]

/-! ## Differences -/

/-- The difference of different numbers is rounded from that of their places. -/
theorem sub_eq_ofUnits (hx : x.isFinite = true) (hw : w.isFinite = true)
    (h : x.order ≠ w.order) : x.sub w = ofUnits (x.order - w.order) := by
  cases x with
  | infinite => cases hx
  | nan => cases hx
  | finite nx u hu =>
    cases w with
    | infinite => cases hw
    | nan => cases hw
    | finite nw v hv =>
      have hz : (if nx then -(u : ℤ) else u) + (if !nw then -(v : ℤ) else v)
          = (finite nx u hu).order - (finite nw v hv).order := by
        rw [order_finite, order_finite]
        cases nw <;> simp [sub_eq_add_neg]
      show addUnits nx u (!nw) v = _
      unfold addUnits
      rw [hz]
      exact if_neg (sub_ne_zero.2 h)

/-- Equal numbers differ by the same from any other number. -/
theorem sub_eq_sub (hx : x.isFinite = true) (hy : y.isFinite = true) (hw : w.isFinite = true)
    (h : x.order = y.order) (hne : x.order ≠ w.order) : x.sub w = y.sub w := by
  rw [sub_eq_ofUnits hx hw hne, sub_eq_ofUnits hy hw (h ▸ hne), h]

/-- A difference of finite numbers is a number. -/
theorem isNaN_sub_finite (hx : x.isFinite = true) (hw : w.isFinite = true) :
    (x.sub w).isNaN = false := by
  cases x with
  | infinite => cases hx
  | nan => cases hx
  | finite nx u hu =>
    cases w with
    | infinite => cases hw
    | nan => cases hw
    | finite nw v hv => exact isNaN_addUnits nx u (!nw) v

/-- **A difference is above zero just if the first number is above the second.** -/
theorem zero_lt_sub_iff (hx : x.isFinite = true) (hw : w.isFinite = true) :
    zero.lt (x.sub w) = true ↔ w.lt x = true := by
  rw [lt_iff_order rfl (isNaN_sub_finite hx hw), order_sub hx hw, lt_iff_of_isFinite hw hx]
  exact rounded_pos_iff.trans Int.sub_pos

/-- **A difference is zero just if the numbers are equal.** -/
theorem isZero_sub_iff (hx : x.isFinite = true) (hw : w.isFinite = true) :
    (x.sub w).isZero = true ↔ x.same w = true := by
  rw [isZero_iff_order (isNaN_sub_finite hx hw), order_sub hx hw, same_iff_of_isFinite hx hw]
  constructor
  · intro h
    have hpos := rounded_pos_iff (z := x.order - w.order)
    have hneg := rounded_neg_iff (z := x.order - w.order)
    omega
  · intro h
    rw [h, sub_self, rounded_zero]

end LiveChart.Double
