import LiveChart.Proofs.Number.Monotone
import Mathlib.Tactic.Ring
/-!
# Whole numbers as doubles

Every whole number of at most 53 bits is a double.  Sums, products and quotients of such numbers
that are whole and of at most 53 bits again are found without rounding.  A product of any double by
such a number is rounded once, so it keeps the order.

* `Double.ofIntSaturating_eq` : a whole number as a double, without rounding;
* `Double.ofIntSaturating_mul`, `Double.ofIntSaturating_add` and `Double.ofIntSaturating_div` :
  arithmetic of whole numbers;
* `Double.order_mul_ofNat` : the product by a whole number, on the places in the order of numbers;
* `Double.zero_le_mul_mono` : a larger number has no smaller product;
* `Double.order_sub_anti` : a difference by a larger number is no larger.
-/

namespace LiveChart

/-! ## Common factors -/

/-- A common factor does not change the nearest whole number. -/
theorem nearest_mul_mul (a b : ℕ) {d : ℕ} (hd : 0 < d) : nearest (a * d) (b * d) = nearest a b := by
  have hlow : 2 * (a % b * d) < b * d ↔ 2 * (a % b) < b := by
    rw [← Nat.mul_assoc]
    exact Nat.mul_lt_mul_right hd
  have hhigh : b * d < 2 * (a % b * d) ↔ b < 2 * (a % b) := by
    rw [← Nat.mul_assoc]
    exact Nat.mul_lt_mul_right hd
  unfold nearest
  dsimp only
  rw [Nat.mul_div_mul_right a b hd, Nat.mul_mod_mul_right]
  simp only [hlow, hhigh]

/-- A common factor does not change what a quotient is rounded to. -/
theorem Format.round_mul_mul (f : Format) (a b : ℕ) {d : ℕ} (hd : 0 < d) :
    f.round (a * d) (b * d) = f.round a b := by
  simp only [Format.round, Nat.mul_div_mul_right a b hd, Nat.mul_right_comm b d,
    nearest_mul_mul a _ hd]

/-- A common factor does not change what a quotient by it is rounded to. -/
theorem Format.round_mul_self (f : Format) (n : ℕ) {d : ℕ} (hd : 0 < d) :
    f.round (n * d) d = f.round n 1 := by
  have h := f.round_mul_mul n 1 hd
  rwa [Nat.one_mul] at h

/-- There are units in one. -/
theorem one_pos : 0 < one := Nat.two_pow_pos _

/-- A product by a positive number is below zero just if the other number is. -/
theorem mul_neg_iff_left {m n : ℤ} (hn : 0 < n) : m * n < 0 ↔ m < 0 := by
  have h : m * n < 0 * n ↔ m < 0 := Int.mul_lt_mul_right hn
  rwa [Int.zero_mul] at h

namespace Double

/-- The place of the positive double nearest to a quotient. -/
theorem order_ofRatio (num den : ℕ) :
    (ofRatio false num den).order = (min (binary64.round num den) (2 ^ binary64.ceiling) : ℕ) := by
  unfold ofRatio
  split_ifs with hfits
  · rw [order_finite, if_neg (by decide), min_eq_left hfits.le]
  · rw [order_infinite, if_neg (by decide), min_eq_right (Nat.le_of_not_lt hfits)]

/-! ## Whole numbers -/

/-- A whole number of at most 53 bits is a magnitude of the format. -/
theorem fits_whole {n : ℕ} (h : n ≤ 2 ^ 53) : binary64.Fits (n * one) := by
  refine ⟨?_, n, unitExponent, h, Nat.zero_le _, rfl⟩
  calc n * one ≤ 2 ^ 53 * one := Nat.mul_le_mul_right _ h
    _ < 2 ^ binary64.ceiling := by decide +kernel

/-- A common factor does not change the double nearest to a quotient. -/
theorem ofRatio_mul_mul (negative : Bool) (a b : ℕ) {d : ℕ} (hd : 0 < d) :
    ofRatio negative (a * d) (b * d) = ofRatio negative a b := by
  simp only [ofRatio, binary64.round_mul_mul a b hd]

/-- The double nearest to a magnitude of the format is of that magnitude. -/
theorem ofRatio_of_fits (negative : Bool) {u : ℕ} (h : binary64.Fits u) :
    ofRatio negative u 1 = .finite negative u h := by
  have hround := binary64.round_of_fits (by decide) h
  unfold ofRatio
  rw [dif_pos (by rw [hround]; exact h.1)]
  simp only [hround]

/-- **A whole number of at most 53 bits is a double.** -/
theorem ofIntSaturating_eq {n : ℤ} (h : n.natAbs ≤ 2 ^ 53) :
    ofIntSaturating n = .finite (n < 0) (n.natAbs * one) (fits_whole h) := by
  have hsign : n * (one : ℤ) < 0 ↔ n < 0 :=
    mul_neg_iff_left (Int.natCast_pos.2 one_pos)
  have hunits : (n * (one : ℤ)).natAbs = n.natAbs * one := by
    rw [Int.natAbs_mul, Int.natAbs_natCast]
  unfold ofIntSaturating ofUnits
  simp only [hsign, hunits]
  exact ofRatio_of_fits _ (fits_whole h)

/-- The units of a whole number, by its sign and its magnitude. -/
theorem signed_natAbs (n : ℤ) : (if decide (n < 0) = true then -((n.natAbs * one : ℕ) : ℤ)
    else (n.natAbs * one : ℕ)) = n * one := by
  rw [Nat.cast_mul]
  split_ifs with hn
  · rw [Int.ofNat_natAbs_of_nonpos (of_decide_eq_true hn).le, Int.neg_mul, neg_neg]
  · rw [Int.natAbs_of_nonneg (by simpa using hn)]

/-- A whole number of at most 53 bits stands at its units. -/
theorem order_ofIntSaturating {n : ℤ} (h : n.natAbs ≤ 2 ^ 53) :
    (ofIntSaturating n).order = n * one := by
  rw [ofIntSaturating_eq h, order_finite, signed_natAbs]

/-- A natural number of at most 53 bits is a double. -/
theorem ofNat_eq {n : ℕ} (h : n ≤ 2 ^ 53) : ofNat n = .finite false (n * one) (fits_whole h) := by
  rw [ofNat, ofIntSaturating_eq (n := n) (by rwa [Int.natAbs_natCast])]
  simp only [Int.natAbs_natCast, decide_eq_false (Int.not_lt.2 (Int.natCast_nonneg n))]

/-- A whole number of at most 53 bits is the whole number that its double equals. -/
theorem whole?_ofIntSaturating {n : ℤ} (h : n.natAbs ≤ 2 ^ 53) :
    (ofIntSaturating n).whole? = some n := by
  rw [ofIntSaturating_eq h, whole?, Nat.mul_mod_left, if_pos rfl, Nat.mul_div_cancel _ one_pos]
  simp only [decide_eq_true_eq]
  split_ifs with hsign
  · exact congrArg some (by omega)
  · exact congrArg some (by omega)

/-- A whole number of at most 53 bits is in the range of doubles. -/
theorem ofInt?_eq_some {n : ℤ} (h : n.natAbs ≤ 2 ^ 53) : ofInt? n = some (ofIntSaturating n) := by
  unfold ofInt?
  rw [ofIntSaturating_eq h]

/-! ## Arithmetic of whole numbers -/

/-- The quotient by a finite double that is not zero. -/
theorem finite_div (nx : Bool) (u : ℕ) (hu : binary64.Fits u) (ny : Bool) {v : ℕ}
    (hv : binary64.Fits v) (hzero : v ≠ 0) :
    (finite nx u hu).div (finite ny v hv) = ofRatio (nx != ny) (u * one) v := by
  cases v with
  | zero => exact absurd rfl hzero
  | succ v => rfl

section Arithmetic

variable {m n : ℤ} (hm : m.natAbs ≤ 2 ^ 53) (hn : n.natAbs ≤ 2 ^ 53)
include hm hn

/-- **The product of whole numbers**, of which the second is positive. -/
theorem ofIntSaturating_mul (hpos : 0 < n) (h : (m * n).natAbs ≤ 2 ^ 53) :
    (ofIntSaturating m).mul (ofIntSaturating n) = ofIntSaturating (m * n) := by
  have hsign : (decide (m < 0) != decide (n < 0)) = decide (m * n < 0) := by
    rw [decide_eq_false (Int.not_lt.2 hpos.le), Bool.bne_false]
    exact decide_eq_decide.2 (mul_neg_iff_left hpos).symm
  have hunits : m.natAbs * one * (n.natAbs * one) = (m * n).natAbs * one * one := by
    rw [Int.natAbs_mul]
    ring
  rw [ofIntSaturating_eq hm, ofIntSaturating_eq hn, ofIntSaturating_eq h]
  show ofRatio (decide (m < 0) != decide (n < 0)) (m.natAbs * one * (n.natAbs * one)) one = _
  have hfactor := ofRatio_mul_mul (decide (m * n < 0)) ((m * n).natAbs * one) 1 one_pos
  rw [Nat.one_mul] at hfactor
  rw [hsign, hunits, hfactor, ofRatio_of_fits _ (fits_whole h)]

/-- **The quotient of whole numbers**, of which the second is positive and divides the first. -/
theorem ofIntSaturating_div (hpos : 0 < n) (h : (m * n).natAbs ≤ 2 ^ 53) :
    (ofIntSaturating (m * n)).div (ofIntSaturating n) = ofIntSaturating m := by
  have hsign : (decide (m * n < 0) != decide (n < 0)) = decide (m < 0) := by
    rw [decide_eq_false (Int.not_lt.2 hpos.le), Bool.bne_false]
    exact decide_eq_decide.2 (mul_neg_iff_left hpos)
  have hden : 0 < n.natAbs * one := Nat.mul_pos (Int.natAbs_pos.2 hpos.ne') one_pos
  have hunits : (m * n).natAbs * one * one = m.natAbs * one * (n.natAbs * one) := by
    rw [Int.natAbs_mul]
    ring
  have hfactor := ofRatio_mul_mul (decide (m < 0)) (m.natAbs * one) 1 hden
  rw [Nat.one_mul] at hfactor
  rw [ofIntSaturating_eq hm, ofIntSaturating_eq hn, ofIntSaturating_eq h,
    finite_div _ _ _ _ _ hden.ne', hsign, hunits, hfactor, ofRatio_of_fits _ (fits_whole hm)]

/-- **The sum of whole numbers.** -/
theorem ofIntSaturating_add :
    (ofIntSaturating m).add (ofIntSaturating n) = ofIntSaturating (m + n) := by
  rw [ofIntSaturating_eq hm, ofIntSaturating_eq hn]
  show addUnits _ _ _ _ = _
  unfold addUnits
  simp only [signed_natAbs]
  rw [← Int.add_mul]
  by_cases hzero : (m + n) * (one : ℤ) = 0
  · have hsum : m + n = 0 :=
      (mul_eq_zero.1 hzero).resolve_right (Int.natCast_pos.2 one_pos).ne'
    have hsign : (decide (m < 0) && decide (n < 0)) = false := by
      rw [Bool.and_eq_false_iff, decide_eq_false_iff_not, decide_eq_false_iff_not]
      omega
    rw [if_pos hzero, hsign, hsum, ofIntSaturating_eq (by decide)]
    simp
  · rw [if_neg hzero]
    rfl

end Arithmetic

/-! ## Products by a whole number -/

/-- The place of the double nearest to a signed number of units. -/
theorem order_ofRatio_one (negative : Bool) (n : ℕ) :
    (ofRatio negative n 1).order = if negative then -(magnitude n : ℤ) else magnitude n := by
  unfold ofRatio magnitude
  split_ifs with hfits hsign hsign
  · rw [order_finite, if_pos hsign, min_eq_left hfits.le]
  · rw [order_finite, if_neg hsign, min_eq_left hfits.le]
  · rw [order_infinite, if_pos hsign, min_eq_right (Nat.le_of_not_lt hfits)]
  · rw [order_infinite, if_neg hsign, min_eq_right (Nat.le_of_not_lt hfits)]

/-- No number of units is rounded past the ceiling. -/
theorem rounded_le_ceiling (z : ℤ) : rounded z ≤ (2 ^ binary64.ceiling : ℕ) := by
  have h : magnitude z.natAbs ≤ 2 ^ binary64.ceiling := min_le_right _ _
  unfold rounded
  split_ifs <;> omega

/-- A finite double stands before the upper infinity. -/
theorem order_lt_ceiling {x : Double} (hx : x.isFinite = true) :
    x.order < (2 ^ binary64.ceiling : ℕ) := by
  cases x with
  | infinite => cases hx
  | nan => cases hx
  | finite negative u hu =>
    have := hu.1
    rw [order_finite]
    split_ifs <;> omega

/-- What is not below a number that is not below zero is not below zero. -/
theorem zero_le_trans {x y : Double} (hx : zero.le x = true) (hxy : x.le y = true) :
    zero.le y = true := by
  obtain ⟨a, b, ha, hb, hab⟩ := le_iff.1 hx
  obtain ⟨b', c, hb', hc, hbc⟩ := le_iff.1 hxy
  obtain rfl := Option.some.inj (hb.symm.trans hb')
  exact le_iff.2 ⟨a, c, ha, hc, hab.trans hbc⟩

/-- **The product of a finite double by a whole number** stands where the exact one is rounded to. -/
theorem order_mul_ofNat {k : ℕ} (hk : k ≤ 2 ^ 53) {x : Double} (hx : x.isFinite = true) :
    (x.mul (ofNat k)).order = rounded (x.order * k) := by
  cases x with
  | infinite => cases hx
  | nan => cases hx
  | finite negative u hu =>
    have hunits : u * (k * one) = u * k * one := (Nat.mul_assoc _ _ _).symm
    -- the unit of the factor cancels against that of the product
    have hproduct : (finite negative u hu).mul (ofNat k) = ofRatio negative (u * k) 1 := by
      rw [ofNat_eq hk]
      show ofRatio (negative != false) (u * (k * one)) one = _
      have hfactor := ofRatio_mul_mul negative (u * k) 1 one_pos
      rw [Nat.one_mul] at hfactor
      rw [Bool.bne_false, hunits, hfactor]
    rw [hproduct, order_ofRatio_one, order_finite]
    cases negative with
    | false =>
      rw [if_neg (by decide), if_neg (by decide), ← Nat.cast_mul, rounded, if_neg (by omega),
        Int.natAbs_natCast]
    | true =>
      rw [if_pos rfl, if_pos rfl, Int.neg_mul, ← Nat.cast_mul, rounded, Int.natAbs_neg,
        Int.natAbs_natCast]
      split_ifs with hzero
      · rfl
      · -- a negative product that is not below zero is zero
        have hnone : u * k = 0 := by omega
        rw [hnone, magnitude_of_fits binary64.fits_zero]
        rfl

section Products

variable {k : ℕ} (hpos : 0 < k) (hk : k ≤ 2 ^ 53)
include hpos hk

/-- The product of the upper infinity is the upper infinity. -/
theorem infinite_mul_ofNat : (infinite false).mul (ofNat k) = infinite false := by
  have hzero : (finite false (k * one) (fits_whole hk)).isZero = false :=
    beq_false_of_ne (Nat.mul_pos hpos one_pos).ne'
  rw [ofNat_eq hk]
  show (if (finite false (k * one) (fits_whole hk)).isZero then nan
    else infinite (false != false)) = _
  rw [hzero]
  rfl

/-- **A larger number that is not below zero has no smaller product.** -/
theorem zero_le_mul_mono {x y : Double} (hx : zero.le x = true) (hxy : x.le y = true) :
    (x.mul (ofNat k)).order ≤ (y.mul (ofNat k)).order := by
  have hy := zero_le_trans hx hxy
  have hplace := (le_iff_order (zero_le_iff.1 hx).1 (zero_le_iff.1 hy).1).1 hxy
  rcases zero_le_cases hy with rfl | ⟨hyFinite, -⟩
  · rw [infinite_mul_ofNat hpos hk, order_infinite, if_neg (by decide)]
    rcases zero_le_cases hx with rfl | ⟨hxFinite, -⟩
    · rw [infinite_mul_ofNat hpos hk, order_infinite, if_neg (by decide)]
    · rw [order_mul_ofNat hk hxFinite]
      exact rounded_le_ceiling _
  · rcases zero_le_cases hx with rfl | ⟨hxFinite, -⟩
    · -- nothing finite lies behind the upper infinity
      have hlt := order_lt_ceiling hyFinite
      rw [order_infinite, if_neg (by decide)] at hplace
      omega
    · rw [order_mul_ofNat hk hxFinite, order_mul_ofNat hk hyFinite]
      exact rounded_mono (Int.mul_le_mul_of_nonneg_right hplace (Int.natCast_nonneg k))

end Products

/-! ## Differences -/

/-- No number of units is rounded below the lower infinity. -/
theorem neg_ceiling_le_rounded (z : ℤ) : -((2 ^ binary64.ceiling : ℕ) : ℤ) ≤ rounded z := by
  have h : magnitude z.natAbs ≤ 2 ^ binary64.ceiling := min_le_right _ _
  unfold rounded
  split_ifs <;> omega

/-- An infinity less a finite double is the infinity. -/
theorem infinite_sub {w : Double} (hw : w.isFinite = true) (negative : Bool) :
    (infinite negative).sub w = infinite negative := by
  cases w with
  | finite => rfl
  | infinite => cases hw
  | nan => cases hw

/-- **A rounded difference by a larger number is no larger.** -/
theorem order_sub_anti (x : Double) {w v : Double} (hw : zero.le w = true) (hwv : w.le v = true) :
    (x.sub v).order ≤ (x.sub w).order := by
  have hv := zero_le_trans hw hwv
  have hplace := (le_iff_order (zero_le_iff.1 hw).1 (zero_le_iff.1 hv).1).1 hwv
  rcases zero_le_cases hw with rfl | ⟨hwFinite, -⟩
  · -- only the upper infinity is not below it
    obtain rfl : v = infinite false := by
      refine (zero_le_cases hv).resolve_right fun h => ?_
      have hlt := order_lt_ceiling h.1
      rw [order_infinite, if_neg (by decide)] at hplace
      omega
    exact le_rfl
  · cases x with
    | nan => exact le_rfl
    | infinite negative =>
      rw [infinite_sub hwFinite]
      rcases zero_le_cases hv with rfl | ⟨hvFinite, -⟩
      · rw [order_infinite]
        cases negative with
        | false => exact Int.natCast_nonneg _
        | true => exact (order_infinite true).le
      · rw [infinite_sub hvFinite]
    | finite negative u hu =>
      rw [order_sub rfl hwFinite]
      rcases zero_le_cases hv with rfl | ⟨hvFinite, -⟩
      · rw [order_sub_infinite rfl]
        exact neg_ceiling_le_rounded _
      · rw [order_sub rfl hvFinite]
        exact rounded_mono (Int.sub_le_sub_left hplace _)

/-- A difference by zero stands where the number does. -/
theorem order_sub_zero (x : Double) : (x.sub zero).order = x.order := by
  cases x with
  | finite negative u hu =>
    rw [order_sub rfl rfl]
    show rounded ((finite negative u hu).order - 0) = _
    rw [sub_zero, rounded_order rfl]
  | infinite negative => rfl
  | nan => rfl

end Double

end LiveChart
