import LiveChart.Proofs.Number.Monotone
/-!
# Whole numbers out of the range of doubles

The greatest double is followed by no other, and a whole number that is nearer to the power of two
behind it, or midway, has no nearest double.

* `Double.limit` : the least whole number out of range;
* `Double.ofInt?_eq_none` : a whole number is out of range just from the limit on.
-/

namespace LiveChart.Double

/-- The least whole number out of range: it lies midway between the greatest double and the power
of two behind it. -/
def limit : ℕ := 2 ^ 1024 - 2 ^ 970

/-- The limit is rounded up to the ceiling. -/
theorem ceiling_le_round_limit : 2 ^ binary64.ceiling ≤ binary64.round (limit * one) 1 := by
  decide +kernel

/-- The whole number before the limit is rounded to what is below the ceiling. -/
theorem round_pred_limit_lt : binary64.round ((limit - 1) * one) 1 < 2 ^ binary64.ceiling := by
  decide +kernel

/-- **A whole number is out of the range of doubles just from the limit on.** -/
theorem ofInt?_eq_none {n : ℤ} : ofInt? n = none ↔ limit ≤ n.natAbs := by
  have hunits : (n * one).natAbs = n.natAbs * one := by rw [Int.natAbs_mul, Int.natAbs_natCast]
  have hround : ofInt? n = none ↔ 2 ^ binary64.ceiling ≤ binary64.round (n.natAbs * one) 1 := by
    unfold ofInt? ofIntSaturating ofUnits ofRatio
    rw [hunits]
    split_ifs with hfits
    · simpa using hfits
    · simpa using hfits
  rw [hround]
  constructor
  · intro h
    by_contra hlt
    have hle : n.natAbs * one ≤ (limit - 1) * one := Nat.mul_le_mul_right _ (by omega)
    have hmono : binary64.round (n.natAbs * one) 1 ≤ binary64.round ((limit - 1) * one) 1 :=
      binary64.round_mono (by decide) hle
    have hbelow := round_pred_limit_lt
    omega
  · intro h
    exact le_trans ceiling_le_round_limit
      (binary64.round_mono (by decide) (Nat.mul_le_mul_right _ h))

end LiveChart.Double
