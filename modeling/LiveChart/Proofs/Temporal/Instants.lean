import LiveChart.Proofs.Number.Whole
import LiveChart.Temporal.Window
/-!
# Instants of the calendar

A form of labels takes the dates of the two ends of a window.  A number of milliseconds becomes one
of microseconds first, by a product and a sum that are rounded, and this must lie between the first
instant of the calendar and the instant that ends it.  The doubles around these two instants lie
more than a microsecond apart, so the rounding moves no number across either.

* `microsOfUnits` : the microseconds of a magnitude, and `microsOfUnits_mono`;
* `InCalendar` : a number of milliseconds is an instant of the calendar;
* `inCalendar_iff` : the instants of the calendar are known by their microseconds;
* `maskOfWindow_cases` : when there is a form of labels for a window.
-/

namespace LiveChart

/-! ## Rounded products -/

/-- One is a magnitude of the format. -/
theorem fits_one : binary64.Fits one :=
  ⟨by decide +kernel, 1, unitExponent, by decide, by decide, by rw [Nat.one_mul, one]⟩

/-- A thousand is a magnitude of the format. -/
theorem fits_thousand : binary64.Fits (1000 * one) := Double.fits_whole (by decide)

/-- A thousand as a double. -/
theorem ofNat_thousand : Double.ofNat 1000 = .finite false (1000 * one) fits_thousand :=
  Double.ofNat_eq (by decide)

/-! ## Microseconds of a magnitude -/

/-- The rounded microseconds of a part of a millisecond, in units. -/
def microsOfPart (part : ℕ) : ℕ := ((Double.ofUnits part).mul (.ofNat 1000)).order.toNat

/-- The part and its product by a thousand are rounded one after the other. -/
theorem microsOfPart_eq {part : ℕ} (h : part ≤ one) :
    microsOfPart part = Double.magnitude (binary64.round part 1 * 1000) := by
  have hround : binary64.round part 1 < 2 ^ binary64.ceiling := by
    calc binary64.round part 1 ≤ binary64.round one 1 := binary64.round_mono (by decide) h
      _ = one := binary64.round_of_fits (by decide) fits_one
      _ < 2 ^ binary64.ceiling := fits_one.1
  have hpart : Double.ofUnits part = .finite false _ (binary64.fits_round part 1 hround) := by
    rw [Double.ofUnits, Int.natAbs_natCast, Double.ofRatio, dif_pos hround,
      decide_eq_false (by omega)]
  have hunits : binary64.round part 1 * (1000 * one) = binary64.round part 1 * 1000 * one :=
    (Nat.mul_assoc _ _ _).symm
  have hproduct : (Double.ofUnits part).mul (.ofNat 1000)
      = Double.ofRatio false (binary64.round part 1 * 1000 * one) one := by
    rw [hpart, ofNat_thousand, ← hunits]
    rfl
  have hpos : 0 < one := Nat.two_pow_pos _
  rw [microsOfPart, hproduct, Double.order_ofRatio, binary64.round_mul_self _ hpos,
    Int.toNat_natCast, Double.magnitude]

/-- A larger part has no fewer microseconds. -/
theorem microsOfPart_mono {p q : ℕ} (h : p ≤ q) (hq : q ≤ one) :
    microsOfPart p ≤ microsOfPart q := by
  rw [microsOfPart_eq (h.trans hq), microsOfPart_eq hq]
  exact Double.magnitude_mono (Nat.mul_le_mul_right _ (binary64.round_mono (by decide) h))

/-- A part of a millisecond has no more than a thousand microseconds. -/
theorem microsOfPart_le {p : ℕ} (h : p ≤ one) : microsOfPart p ≤ 1000 * one := by
  calc microsOfPart p ≤ microsOfPart one := microsOfPart_mono h le_rfl
    _ = Double.magnitude (one * 1000) := by
      rw [microsOfPart_eq le_rfl, binary64.round_of_fits (by decide) fits_one]
    _ = 1000 * one := by rw [Nat.mul_comm, Double.magnitude_of_fits fits_thousand]

/-- The microseconds of a magnitude of milliseconds in units. -/
def microsOfUnits (u : ℕ) : ℕ := nearest (u / one * 1000 * one + microsOfPart (u % one)) one

/-- The microseconds of a double are those of its magnitude. -/
theorem microsOfMillis_finite (negative : Bool) (u : ℕ) (h : binary64.Fits u) :
    microsOfMillis (.finite negative u h) =
      .ok (if negative then -(microsOfUnits u : ℤ) else microsOfUnits u) := rfl

/-- **A larger magnitude has no fewer microseconds.** -/
theorem microsOfUnits_mono {u v : ℕ} (h : u ≤ v) : microsOfUnits u ≤ microsOfUnits v := by
  have hpos : 0 < one := Nat.two_pow_pos _
  refine nearest_mono one ?_
  rcases Nat.eq_or_lt_of_le (Nat.div_le_div_right (c := one) h) with heq | hlt
  · -- one whole number of milliseconds: the parts are ordered as the magnitudes
    have hu := Nat.div_add_mod u one
    have hv := Nat.div_add_mod v one
    rw [heq] at hu
    have hpart := microsOfPart_mono (show u % one ≤ v % one by omega) (Nat.mod_lt v hpos).le
    rw [heq]
    exact Nat.add_le_add_left hpart _
  · have hpart := microsOfPart_le (Nat.mod_lt u hpos).le
    have hwhole := Nat.mul_le_mul_right (1000 * one) hlt
    rw [Nat.succ_mul] at hwhole
    rw [Nat.mul_assoc, Nat.mul_assoc]
    omega

/-! ## The ends of the calendar -/

/-- The milliseconds from the first instant of the calendar to 1970. -/
def millisBefore : ℕ := 62135596800000

/-- The milliseconds from 1970 to the instant that ends the calendar. -/
def millisAfter : ℕ := 253402300800000

/-- The exponent of the step of the doubles before the first instant, a hundred and twenty-eighth of
a millisecond. -/
def stepBefore : ℕ := unitExponent - 7

/-- The exponent of the step of the doubles before the end, a thirty-second of a millisecond. -/
def stepAfter : ℕ := unitExponent - 5

/-- The first instant of the calendar. -/
theorem firstMicros_eq : firstMicros = -((millisBefore * 1000 : ℕ) : ℤ) := by decide

/-- The instant that ends the calendar. -/
theorem endMicros_eq : endMicros = (millisAfter * 1000 : ℕ) := by decide

/-- Two numbers with a common divisor differ by it or more. -/
theorem add_le_of_dvd {d a b : ℕ} (ha : d ∣ a) (hb : d ∣ b) (h : a < b) : a + d ≤ b := by
  have hd := Nat.le_of_dvd (Nat.sub_pos_of_lt h) (Nat.dvd_sub hb ha)
  omega

/-- A magnitude of the format is a multiple of the steps at lower ones. -/
theorem Format.Fits.two_pow_dvd {u v s : ℕ} (hu : binary64.Fits u) (hv : v ≤ u)
    (hs : s ≤ binary64.stepAt v) : 2 ^ s ∣ u :=
  (pow_dvd_pow 2 (hs.trans (binary64.stepAt_mono hv))).trans
    (binary64.two_pow_stepAt_dvd (by decide) hu)

/-- The magnitudes that lie between the first instant and 1970. -/
theorem microsOfUnits_le_iff {u : ℕ} (hu : binary64.Fits u) :
    microsOfUnits u ≤ millisBefore * 1000 ↔ u ≤ millisBefore * one := by
  constructor
  · intro h
    by_contra hlt
    -- what lies past the first instant lies a whole step past it, which rounding does not undo
    have hfirst : 2 ^ stepBefore ∣ millisBefore * one := by decide +kernel
    have hdvd : 2 ^ stepBefore ∣ u := hu.two_pow_dvd (Nat.le_of_not_le hlt) (by decide +kernel)
    have hmicros := microsOfUnits_mono (add_le_of_dvd hfirst hdvd (Nat.lt_of_not_le hlt))
    have hpast : millisBefore * 1000 < microsOfUnits (millisBefore * one + 2 ^ stepBefore) := by
      decide +kernel
    exact absurd h (Nat.not_le.2 (hpast.trans_le hmicros))
  · intro h
    have hfirst : microsOfUnits (millisBefore * one) = millisBefore * 1000 := by decide +kernel
    exact hfirst ▸ microsOfUnits_mono h

/-- The magnitudes that lie between 1970 and the end. -/
theorem microsOfUnits_lt_iff {u : ℕ} (hu : binary64.Fits u) :
    microsOfUnits u < millisAfter * 1000 ↔ u < millisAfter * one := by
  constructor
  · intro h
    by_contra hle
    have hend : microsOfUnits (millisAfter * one) = millisAfter * 1000 := by decide +kernel
    have hmicros := microsOfUnits_mono (Nat.le_of_not_lt hle)
    omega
  · intro h
    have hlast : microsOfUnits (millisAfter * one - 2 ^ stepAfter) < millisAfter * 1000 := by
      decide +kernel
    refine Nat.lt_of_le_of_lt (microsOfUnits_mono ?_) hlast
    -- low magnitudes are far from the end, and the others lie on a grid that holds the end too
    by_cases hlow : u ≤ 2 ^ 1121
    · exact hlow.trans (by decide +kernel)
    · have hend : 2 ^ stepAfter ∣ millisAfter * one := by decide +kernel
      have hdvd : 2 ^ stepAfter ∣ u := hu.two_pow_dvd (Nat.le_of_not_le hlow) (by decide +kernel)
      exact Nat.le_sub_of_add_le (add_le_of_dvd hdvd hend h)

/-- A number of milliseconds is an instant of the calendar. -/
def InCalendar (x : Double) : Prop :=
  -((millisBefore * one : ℕ) : ℤ) ≤ x.order ∧ x.order < (millisAfter * one : ℕ)

/-- The instants of the calendar are known by their microseconds. -/
theorem inCalendar_iff {x : Double} {n : ℤ} (h : microsOfMillis x = .ok n) :
    InCalendar x ↔ firstMicros ≤ n ∧ n < endMicros := by
  cases x with
  | nan => cases h
  | infinite negative => cases h
  | finite negative u hu =>
    rw [microsOfMillis_finite] at h
    obtain rfl := Except.ok.inj h
    have hbefore := microsOfUnits_le_iff hu
    have hafter := microsOfUnits_lt_iff hu
    have hsome : 0 < millisAfter * one := by decide +kernel
    have hsome' : 0 < millisAfter := by decide
    rw [InCalendar, firstMicros_eq, endMicros_eq, Double.order_finite]
    cases negative with
    | false =>
      rw [if_neg (by decide), if_neg (by decide)]
      omega
    | true =>
      rw [if_pos rfl, if_pos rfl]
      omega

/-- No infinity is an instant. -/
theorem not_inCalendar_infinite (negative : Bool) : ¬InCalendar (.infinite negative) := by
  have hbefore : millisBefore * one < 2 ^ binary64.ceiling := by decide +kernel
  have hafter : millisAfter * one < 2 ^ binary64.ceiling := by decide +kernel
  rw [InCalendar, Double.order_infinite]
  generalize 2 ^ binary64.ceiling = ceiling at hbefore hafter
  cases negative with
  | false =>
    rw [if_neg (by decide)]
    omega
  | true =>
    rw [if_pos rfl]
    omega

/-! ## Forms of labels -/

/-- The instant of a number of milliseconds. -/
def instantOf (x : Double) : Result ℤ := do inCalendar (← microsOfMillis x)

/-- Microseconds within the calendar are an instant, and others are out of range. -/
theorem inCalendar_eq (n : ℤ) :
    inCalendar n = if firstMicros ≤ n ∧ n < endMicros then .ok n else fail .overflow := by
  rw [inCalendar]
  exact if_congr (by simp) rfl rfl

/-- A number of milliseconds has an instant just if it is one of the calendar, and is out of range
otherwise. -/
theorem instantOf_cases {x : Double} (hx : x.isNaN = false) :
    (InCalendar x ∧ ∃ n, instantOf x = .ok n) ∨
      (¬InCalendar x ∧ instantOf x = fail .overflow) := by
  cases h : microsOfMillis x with
  | ok n =>
    have hn : instantOf x = inCalendar n := by
      rw [instantOf, h]
      rfl
    rw [hn, inCalendar_eq, inCalendar_iff h]
    by_cases hin : firstMicros ≤ n ∧ n < endMicros
    · exact .inl ⟨hin, n, if_pos hin⟩
    · exact .inr ⟨hin, if_neg hin⟩
  | error e =>
    cases x with
    | nan => cases hx
    | finite negative u hu => cases h
    | infinite negative => exact .inr ⟨not_inCalendar_infinite negative, rfl⟩

/-- The form of labels for a window is that of the dates of its ends. -/
theorem maskOfWindow_eq (w : Double × Double) : maskOfWindow w = do
    let start ← instantOf w.1
    let stop ← instantOf w.2
    return maskOfDates (dateOfMicros start) (dateOfMicros stop) := by
  show (microsOfMillis w.1 >>= fun n => inCalendar n >>= fun start =>
    microsOfMillis w.2 >>= fun n => inCalendar n >>= fun stop => _) = _
  rw [instantOf, instantOf]
  simp only [bind_assoc]

/-- **There is a form of labels for a window just if its ends are instants of the calendar**, and it
is out of range otherwise. -/
theorem maskOfWindow_cases {w : Double × Double} (hlo : w.1.isNaN = false)
    (hhi : w.2.isNaN = false) :
    ((InCalendar w.1 ∧ InCalendar w.2) ∧ ∃ mask, maskOfWindow w = .ok mask) ∨
      (¬(InCalendar w.1 ∧ InCalendar w.2) ∧ maskOfWindow w = fail .overflow) := by
  rw [maskOfWindow_eq]
  obtain ⟨hstart, start, hlo⟩ | ⟨hstart, hlo⟩ := instantOf_cases hlo
  · obtain ⟨hstop, stop, hhi⟩ | ⟨hstop, hhi⟩ := instantOf_cases hhi
    · rw [hlo, hhi]
      exact .inl ⟨⟨hstart, hstop⟩, _, rfl⟩
    · rw [hlo, hhi]
      exact .inr ⟨fun h => hstop h.2, rfl⟩
  · rw [hlo]
    exact .inr ⟨fun h => hstart h.1, rfl⟩

end LiveChart
