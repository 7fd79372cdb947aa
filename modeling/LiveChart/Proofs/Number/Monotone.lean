import LiveChart.Number.Double
import Mathlib.Data.Nat.Log
import Mathlib.Tactic.Positivity
/-!
# Rounding keeps the order

Rounding a magnitude is monotone and leaves the numbers of the format alone, so the rounded
difference of two doubles is monotone in its first term, antitone in its second, and never above
the first if the second is not below zero.

* `Format.round_mono` : a larger quotient never rounds to a smaller one;
* `Format.round_of_fits` : a number of the format rounds to itself;
* `Double.order_sub` : the rounded difference, on the places in the order of numbers;
* `Double.eq_of_fineOrder_eq` : a finite double is known by its place, the zeros apart.
-/

namespace LiveChart

/-! ## The nearest whole number -/

/-- A larger numerator has no smaller nearest whole number. -/
theorem nearest_mono {a b : ℕ} (d : ℕ) (h : a ≤ b) : nearest a d ≤ nearest b d := by
  have hdiv : a / d ≤ b / d := Nat.div_le_div_right h
  rcases Nat.eq_or_lt_of_le hdiv with heq | hlt
  · -- one whole part: the remainders are ordered as the numerators
    have ha := Nat.div_add_mod a d
    have hb := Nat.div_add_mod b d
    rw [heq] at ha
    have hmod : a % d ≤ b % d := by omega
    unfold nearest
    dsimp only
    rw [heq]
    split_ifs <;> omega
  · calc nearest a d ≤ a / d + 1 := nearest_le a d
      _ ≤ b / d := hlt
      _ ≤ nearest b d := le_nearest b d

/-- A multiple of the denominator is divided exactly. -/
theorem nearest_mul_self (k : ℕ) {d : ℕ} (hd : 0 < d) : nearest (k * d) d = k := by
  unfold nearest
  simp [Nat.mul_div_cancel _ hd, hd]

/-! ## Binary formats -/

namespace Format

variable (f : Format)

/-- A whole number of units is rounded to a multiple of its step. -/
theorem round_one (n : ℕ) : f.round n 1 = nearest n (2 ^ f.stepAt n) * 2 ^ f.stepAt n := by
  simp only [round, Nat.div_one, Nat.one_mul]

/-- A rounded quotient is at most two to the power of its step and the precision. -/
theorem round_le (num den : ℕ) :
    f.round num den ≤ 2 ^ (f.precision + f.stepAt (num / den)) := by
  rw [round, Nat.pow_add]
  exact Nat.mul_le_mul_right _ (f.nearest_step_le num den)

/-- Above the finest grid, rounding does not go below the quotient's power of two. -/
theorem pow_le_round {num den : ℕ} (hquot : num / den ≠ 0)
    (hstep : f.finest < f.stepAt (num / den)) (hp : 0 < f.precision) :
    2 ^ (f.precision + f.stepAt (num / den) - 1) ≤ f.round num den := by
  rw [round]
  set q := num / den with hq
  have hlog : f.precision + f.stepAt q - 1 = q.log2 := by
    unfold stepAt at hstep ⊢
    omega
  have hle : f.stepAt q ≤ q.log2 := by omega
  have hpow : 2 ^ (q.log2 - f.stepAt q) ≤ num / (den * 2 ^ f.stepAt q) := by
    rw [← Nat.div_div_eq_div_mul, ← hq, Nat.le_div_iff_mul_le (Nat.two_pow_pos _), ← Nat.pow_add,
      Nat.sub_add_cancel hle]
    exact Nat.log2_self_le hquot
  rw [hlog]
  calc 2 ^ q.log2 = 2 ^ (q.log2 - f.stepAt q) * 2 ^ f.stepAt q := by
        rw [← Nat.pow_add, Nat.sub_add_cancel hle]
    _ ≤ nearest num (den * 2 ^ f.stepAt q) * 2 ^ f.stepAt q :=
        Nat.mul_le_mul_right _ (le_trans hpow (le_nearest _ _))

/-- The step does not shrink as magnitudes grow. -/
theorem stepAt_mono {a b : ℕ} (h : a ≤ b) : f.stepAt a ≤ f.stepAt b := by
  have hlog : a.log2 ≤ b.log2 := by
    rw [Nat.log2_eq_log_two, Nat.log2_eq_log_two]
    exact Nat.log_mono_right h
  unfold stepAt
  omega

/-- **A larger quotient never rounds to a smaller one.** -/
theorem round_mono (hp : 0 < f.precision) {a b den : ℕ} (h : a ≤ b) :
    f.round a den ≤ f.round b den := by
  have hquot : a / den ≤ b / den := Nat.div_le_div_right h
  rcases Nat.eq_or_lt_of_le (f.stepAt_mono hquot) with heq | hlt
  · rw [round, round, heq]
    exact Nat.mul_le_mul_right _ (nearest_mono _ h)
  · -- between two steps stands a power of two that neither quotient crosses
    have hfine : f.finest < f.stepAt (b / den) := by
      have : f.finest ≤ f.stepAt (a / den) := Nat.le_max_left _ _
      omega
    have hb : b / den ≠ 0 := by
      intro hb
      rw [hb] at hfine
      unfold stepAt at hfine
      simp only [Nat.log2_zero] at hfine
      omega
    calc f.round a den ≤ 2 ^ (f.precision + f.stepAt (a / den)) := f.round_le a den
      _ ≤ 2 ^ (f.precision + f.stepAt (b / den) - 1) := Nat.pow_le_pow_right (by decide) (by omega)
      _ ≤ f.round b den := f.pow_le_round hb hfine hp

/-- The step of a number of the format divides it. -/
theorem two_pow_stepAt_dvd (hp : 0 < f.precision) {u : ℕ} (h : f.Fits u) :
    2 ^ f.stepAt u ∣ u := by
  obtain ⟨-, m, s, hm, hs, rfl⟩ := h
  rcases Nat.eq_zero_or_pos m with rfl | hpos
  · simp
  have hlog : (m * 2 ^ s).log2 ≤ f.precision + s := by
    rw [← Nat.lt_succ_iff, Nat.log2_lt (by positivity), Nat.succ_eq_add_one, Nat.pow_succ,
      Nat.pow_add]
    have := Nat.mul_le_mul_right (2 ^ s) hm
    have hpow : 0 < 2 ^ f.precision * 2 ^ s := by positivity
    omega
  by_cases hstep : f.stepAt (m * 2 ^ s) ≤ s
  · exact Dvd.dvd.mul_left (pow_dvd_pow 2 hstep) m
  · -- only the largest number of leading bits reaches the next step
    have hlog' : (m * 2 ^ s).log2 = f.precision + s := by
      unfold stepAt at hstep
      omega
    have hle : 2 ^ (f.precision + s) ≤ m * 2 ^ s := by
      rw [← hlog']
      exact Nat.log2_self_le (by positivity)
    have hm' : m = 2 ^ f.precision := by
      rw [Nat.pow_add] at hle
      exact Nat.le_antisymm hm (Nat.le_of_mul_le_mul_right hle (Nat.two_pow_pos s))
    rw [hm', ← Nat.pow_add]
    refine pow_dvd_pow 2 ?_
    rw [hm', ← Nat.pow_add] at hlog'
    unfold stepAt
    rw [hlog']
    omega

/-- **A number of the format rounds to itself.** -/
theorem round_of_fits (hp : 0 < f.precision) {u : ℕ} (h : f.Fits u) : f.round u 1 = u := by
  obtain ⟨k, hk⟩ := f.two_pow_stepAt_dvd hp h
  rw [Nat.mul_comm] at hk
  have hnear := nearest_mul_self k (Nat.two_pow_pos (f.stepAt u))
  rw [← hk] at hnear
  rw [round_one, hnear, ← hk]

/-- Nothing rounds to nothing. -/
theorem round_zero (den : ℕ) : f.round 0 den = 0 := by
  simp [round, nearest]

end Format

/-! ## Rounded differences of doubles -/

namespace Double

/-- The magnitude of the double nearest to a number of units; an overflow stands at the ceiling. -/
def magnitude (n : ℕ) : ℕ := min (binary64.round n 1) (2 ^ binary64.ceiling)

/-- A larger number of units has no smaller magnitude. -/
theorem magnitude_mono {m n : ℕ} (h : m ≤ n) : magnitude m ≤ magnitude n :=
  min_le_min_right _ (binary64.round_mono (by decide) h)

/-- A magnitude of the format stays as it is. -/
theorem magnitude_of_fits {u : ℕ} (h : binary64.Fits u) : magnitude u = u := by
  rw [magnitude, binary64.round_of_fits (by decide) h]
  exact min_eq_left h.1.le

/-- The place of the double nearest to a signed number of units. -/
def rounded (z : ℤ) : ℤ := if z < 0 then -(magnitude z.natAbs : ℤ) else magnitude z.natAbs

/-- The place of a finite double. -/
theorem order_finite (negative : Bool) (u : ℕ) (h : binary64.Fits u) :
    (finite negative u h).order = if negative then -(u : ℤ) else u := by
  cases negative <;> rfl

/-- The place of an infinity: just past every finite number. -/
theorem order_infinite (negative : Bool) :
    (infinite negative).order =
      if negative then -((2 ^ binary64.ceiling : ℕ) : ℤ) else (2 ^ binary64.ceiling : ℕ) := by
  rw [Nat.cast_pow]
  cases negative <;> rfl

/-- A number of units is rounded to the double of its place. -/
theorem order_ofUnits (z : ℤ) : (ofUnits z).order = rounded z := by
  unfold ofUnits ofRatio rounded magnitude
  split_ifs with hfits hz hz
  · rw [order_finite, min_eq_left hfits.le, if_pos (decide_eq_true hz)]
  · rw [order_finite, min_eq_left hfits.le, if_neg (by simpa using hz)]
  · rw [order_infinite, min_eq_right (Nat.le_of_not_lt hfits), if_pos (decide_eq_true hz)]
  · rw [order_infinite, min_eq_right (Nat.le_of_not_lt hfits), if_neg (by simpa using hz)]

/-- Rounding signed units is monotone. -/
theorem rounded_mono {a b : ℤ} (h : a ≤ b) : rounded a ≤ rounded b := by
  unfold rounded
  split_ifs with ha hb
  · have := magnitude_mono (show b.natAbs ≤ a.natAbs by omega)
    omega
  · omega
  · omega
  · have := magnitude_mono (show a.natAbs ≤ b.natAbs by omega)
    omega

/-- No units round to the place of zero. -/
theorem rounded_zero : rounded 0 = 0 := by
  have h := magnitude_of_fits binary64.fits_zero
  unfold rounded
  rw [if_neg (by decide), Int.natAbs_zero, h]
  rfl

/-- A finite double stands at its own place. -/
theorem rounded_order {x : Double} (hx : x.isFinite = true) : rounded x.order = x.order := by
  cases x with
  | infinite => simp [isFinite] at hx
  | nan => simp [isFinite] at hx
  | finite negative u h =>
    have hu := magnitude_of_fits h
    rw [order_finite]
    cases negative with
    | false =>
      rw [if_neg (by decide), rounded, if_neg (by omega), Int.natAbs_natCast, hu]
    | true =>
      rw [if_pos rfl, rounded, Int.natAbs_neg, Int.natAbs_natCast, hu]
      split_ifs <;> omega

/-- A sum of signed magnitudes stands where the exact one is rounded to. -/
theorem order_addUnits (nx : Bool) (u : ℕ) (ny : Bool) (v : ℕ) :
    (addUnits nx u ny v).order =
      rounded ((if nx then -(u : ℤ) else u) + (if ny then -(v : ℤ) else v)) := by
  unfold addUnits
  dsimp only
  by_cases h0 : (if nx then -(u : ℤ) else u) + (if ny then -(v : ℤ) else v) = 0
  · rw [if_pos h0, order_finite, h0, rounded_zero]
    split_ifs <;> rfl
  · rw [if_neg h0]
    exact order_ofUnits _

/-- **The rounded sum of finite doubles stands where the exact one is rounded to.** -/
theorem order_add {x w : Double} (hx : x.isFinite = true) (hw : w.isFinite = true) :
    (x.add w).order = rounded (x.order + w.order) := by
  cases x with
  | infinite => simp [isFinite] at hx
  | nan => simp [isFinite] at hx
  | finite nx u hu =>
    cases w with
    | infinite => simp [isFinite] at hw
    | nan => simp [isFinite] at hw
    | finite ny v hv =>
      rw [order_finite, order_finite]
      exact order_addUnits nx u ny v

/-- **The rounded difference of finite doubles stands where the exact one is rounded to.** -/
theorem order_sub {x w : Double} (hx : x.isFinite = true) (hw : w.isFinite = true) :
    (x.sub w).order = rounded (x.order - w.order) := by
  cases x with
  | infinite => simp [isFinite] at hx
  | nan => simp [isFinite] at hx
  | finite nx u hu =>
    cases w with
    | infinite => simp [isFinite] at hw
    | nan => simp [isFinite] at hw
    | finite ny v hv =>
      have hz : (if nx then -(u : ℤ) else u) - (if ny then -(v : ℤ) else v)
          = (if nx then -(u : ℤ) else u) + (if !ny then -(v : ℤ) else v) := by
        cases ny <;> simp [sub_eq_add_neg]
      rw [order_finite, order_finite, hz]
      exact order_addUnits nx u (!ny) v

/-- A finite double less an infinite one stands below every finite number. -/
theorem order_sub_infinite {x : Double} (hx : x.isFinite = true) :
    (x.sub (infinite false)).order = -((2 ^ binary64.ceiling : ℕ) : ℤ) := by
  cases x with
  | infinite => simp [isFinite] at hx
  | nan => simp [isFinite] at hx
  | finite nx u hu => exact order_infinite true

/-- A finite double stands above the lower infinity. -/
theorem neg_ceiling_le_order {x : Double} (hx : x.isFinite = true) :
    -((2 ^ binary64.ceiling : ℕ) : ℤ) ≤ x.order := by
  cases x with
  | infinite => simp [isFinite] at hx
  | nan => simp [isFinite] at hx
  | finite nx u hu =>
    have := hu.1
    rw [order_finite]
    split_ifs <;> omega

/-- What is a number has a rank, which is its place. -/
theorem rank_eq {w : Double} (hw : w.isNaN = false) : w.rank = some w.order := by
  cases w with
  | nan => cases hw
  | infinite negative => cases negative <;> rfl
  | finite negative => cases negative <;> rfl

/-- What is finite is a number. -/
theorem isNaN_of_isFinite {x : Double} (hx : x.isFinite = true) : x.isNaN = false := by
  cases x with
  | nan => cases hx
  | _ => rfl

/-- Numbers compare as their places do. -/
theorem le_iff_order {x y : Double} (hx : x.isNaN = false) (hy : y.isNaN = false) :
    x.le y = true ↔ x.order ≤ y.order := by
  rw [le, rank_eq hx, rank_eq hy]
  exact decide_eq_true_iff

/-- Numbers compare as their places do. -/
theorem lt_iff_order {x y : Double} (hx : x.isNaN = false) (hy : y.isNaN = false) :
    x.lt y = true ↔ x.order < y.order := by
  rw [lt, rank_eq hx, rank_eq hy]
  exact decide_eq_true_iff

/-- Numbers are equal at one place. -/
theorem same_iff_order {x y : Double} (hx : x.isNaN = false) (hy : y.isNaN = false) :
    x.same y = true ↔ x.order = y.order := by
  rw [same, rank_eq hx, rank_eq hy]
  exact beq_iff_eq

/-- Not to be below zero is to be a number at a place that is not. -/
theorem zero_le_iff {w : Double} : zero.le w = true ↔ w.isNaN = false ∧ 0 ≤ w.order := by
  rw [le_iff]
  constructor
  · rintro ⟨a, b, ha, hb, hab⟩
    have ha0 : a = 0 := (Option.some.inj ha).symm
    refine ⟨?_, by rw [order, hb, Option.getD_some, ← ha0]; exact hab⟩
    cases w with
    | nan => cases hb
    | _ => rfl
  · rintro ⟨hw, horder⟩
    exact ⟨0, w.order, rfl, rank_eq hw, horder⟩

/-- A double that is not below zero is finite or the upper infinity, at a place not below zero. -/
theorem zero_le_cases {w : Double} (hw : zero.le w = true) :
    w = infinite false ∨ (w.isFinite = true ∧ 0 ≤ w.order) := by
  obtain ⟨hnumber, horder⟩ := zero_le_iff.1 hw
  cases w with
  | finite => exact Or.inr ⟨rfl, horder⟩
  | nan => cases hnumber
  | infinite negative =>
    cases negative with
    | false => exact Or.inl rfl
    | true =>
      rw [order_infinite, if_pos rfl] at horder
      have : 0 < 2 ^ binary64.ceiling := Nat.two_pow_pos _
      omega

/-- The upper infinity is not below zero. -/
theorem zero_le_infinite : zero.le (infinite false) = true :=
  zero_le_iff.2 ⟨rfl, by rw [order_infinite]; exact Int.natCast_nonneg _⟩

/-- A product of what is not below zero and what is above it is not below zero. -/
theorem zero_le_mul {x y : Double} (hx : zero.le x = true) (hy : y.isFinite = true)
    (hpos : 0 < y.order) : zero.le (x.mul y) = true := by
  cases y with
  | infinite => cases hy
  | nan => cases hy
  | finite ny v hv =>
    rw [order_finite] at hpos
    obtain rfl : ny = false := by
      cases ny with
      | false => rfl
      | true => rw [if_pos rfl] at hpos; omega
    rcases zero_le_cases hx with rfl | ⟨hfinite, horder⟩
    · -- the other factor is not zero, so the product is the infinity
      have hzero : (finite false v hv).isZero = false := by
        rw [if_neg (by decide)] at hpos
        exact beq_false_of_ne (by omega)
      show zero.le (if (finite false v hv).isZero then nan else infinite (false != false)) = true
      rw [hzero]
      exact zero_le_infinite
    · cases x with
      | infinite => cases hfinite
      | nan => cases hfinite
      | finite nx u hu =>
        rw [order_finite] at horder
        show zero.le (ofRatio (nx != false) (u * v) one) = true
        unfold ofRatio
        cases nx with
        | false =>
          split_ifs with hfits
          · exact zero_le_iff.2 ⟨rfl, Int.natCast_nonneg _⟩
          · exact zero_le_infinite
        | true =>
          -- of the negative numbers only the zero is not below zero
          obtain rfl : u = 0 := by rw [if_pos rfl] at horder; omega
          have hround : binary64.round (0 * v) one = 0 := by rw [Nat.zero_mul, Format.round_zero]
          rw [dif_pos (by rw [hround]; exact Nat.two_pow_pos _)]
          exact zero_le_iff.2 ⟨rfl, by rw [order_finite, hround]; decide⟩

/-- **The rounded difference is monotone in its first term.** -/
theorem order_sub_mono {x y w : Double} (hx : x.isFinite = true) (hy : y.isFinite = true)
    (hw : zero.le w = true) (h : x.order ≤ y.order) : (x.sub w).order ≤ (y.sub w).order := by
  rcases zero_le_cases hw with rfl | ⟨hfin, -⟩
  · rw [order_sub_infinite hx, order_sub_infinite hy]
  · rw [order_sub hx hfin, order_sub hy hfin]
    exact rounded_mono (by omega)

/-- **A rounded difference by what is not below zero does not exceed its first term.** -/
theorem order_sub_le {x w : Double} (hx : x.isFinite = true) (hw : zero.le w = true) :
    (x.sub w).order ≤ x.order := by
  rcases zero_le_cases hw with rfl | ⟨hfin, hpos⟩
  · rw [order_sub_infinite hx]
    exact neg_ceiling_le_order hx
  · rw [order_sub hx hfin]
    calc rounded (x.order - w.order) ≤ rounded x.order := rounded_mono (by omega)
      _ = x.order := rounded_order hx

/-- The double nearest to a quotient is a number. -/
theorem isNaN_ofRatio (negative : Bool) (num den : ℕ) :
    (ofRatio negative num den).isNaN = false := by
  unfold ofRatio
  split_ifs <;> rfl

/-- A sum of signed magnitudes is a number. -/
theorem isNaN_addUnits (nx : Bool) (u : ℕ) (ny : Bool) (v : ℕ) :
    (addUnits nx u ny v).isNaN = false := by
  unfold addUnits
  dsimp only
  by_cases h0 : (if nx then -(u : ℤ) else u) + (if ny then -(v : ℤ) else v) = 0
  · rw [if_pos h0]
    rfl
  · rw [if_neg h0]
    exact isNaN_ofRatio ..

/-- A finite double less what is not below zero is a number. -/
theorem isNaN_sub {x w : Double} (hx : x.isFinite = true) (hw : zero.le w = true) :
    (x.sub w).isNaN = false := by
  cases x with
  | infinite => cases hx
  | nan => cases hx
  | finite nx u hu =>
    rcases zero_le_cases hw with rfl | ⟨hfinite, -⟩
    · rfl
    · cases w with
      | infinite => cases hfinite
      | nan => cases hfinite
      | finite ny v hv => exact isNaN_addUnits nx u (!ny) v

/-! ## Places with the zeros apart -/

/-- The place of a number among all numbers, the negative zero right before the other. -/
def fineOrder (x : Double) : ℤ := 2 * x.order + if x.isNegative then 0 else 1

/-- What is not behind another with the zeros apart is not behind it. -/
theorem order_le_of_fineOrder_le {x y : Double} (h : x.fineOrder ≤ y.fineOrder) :
    x.order ≤ y.order := by
  unfold fineOrder at h
  split_ifs at h <;> omega

/-- **Finite doubles of one place, the zeros apart, are one double.** -/
theorem eq_of_fineOrder_eq {x y : Double} (hx : x.isFinite = true) (hy : y.isFinite = true)
    (h : x.fineOrder = y.fineOrder) : x = y := by
  have horder : x.order = y.order :=
    le_antisymm (order_le_of_fineOrder_le h.le) (order_le_of_fineOrder_le h.ge)
  cases x with
  | infinite => cases hx
  | nan => cases hx
  | finite nx u hu =>
    cases y with
    | infinite => cases hy
    | nan => cases hy
    | finite ny v hv =>
      -- with equal orders the places differ just in the sign
      have hsign : nx = ny := by
        unfold fineOrder at h
        rw [horder] at h
        cases nx <;> cases ny <;> simp [isNegative] at h ⊢
      subst hsign
      rw [order_finite, order_finite] at horder
      have huv : u = v := by
        split_ifs at horder <;> omega
      subst huv
      rfl

end Double

end LiveChart
