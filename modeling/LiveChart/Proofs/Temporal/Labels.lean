import LiveChart.Proofs.Temporal.Instants
import LiveChart.Proofs.Time.CivilOrder
/-!
# The detail of time labels

The form of time labels is chosen by the dates of the two ends of a window.  A wider window has no
finer labels, since the parts of a date change in the order of their rank: while the year stays the
months follow in order, and while the month stays the days do.

* `level_maskOfDates_mono` : wider pairs of dates have no finer labels;
* `Value.IsMillis` : the values that a window can begin and end with;
* `microsOfValue_eq` : the microseconds of such a value, and `microsAt_mono`;
* `maskOf_coarsens` : a wider window has no finer labels;
* `maskOf_showsClock_iff` : the windows whose labels show the time of day.
-/

namespace LiveChart

/-! ## Forms of labels in order -/

/-- How coarse a form of labels is. -/
def Mask.level : Mask → ℕ
  | .clock => 0
  | .dayAndClock => 1
  | .day => 2
  | .year => 3

/-- A form of labels shows the time of day. -/
def Mask.ShowsClock (m : Mask) : Prop := "HH:mm:ss".toList <:+: m.pattern.toList

/-- The two finest forms show the time of day. -/
theorem Mask.showsClock_iff (m : Mask) : m.ShowsClock ↔ m.level ≤ 1 := by
  unfold ShowsClock
  cases m <;> decide

/-- **Wider pairs of dates have no finer labels.** -/
theorem level_maskOfDates_mono {c a b d : Civil} (hca : ¬a.Before c) (hab : ¬b.Before a)
    (hbd : ¬d.Before b) : (maskOfDates a b).level ≤ (maskOfDates c d).level := by
  unfold Civil.Before at hca hab hbd
  unfold maskOfDates
  by_cases hyear : c.year = d.year
  · -- all four dates lie in one year, so their months are in order
    have hinner : a.year = b.year := by omega
    rw [if_neg (not_not.2 hyear), if_neg (not_not.2 hinner)]
    by_cases hmonth : c.month = d.month
    · -- and in one month, so their days are
      have hinner : a.month = b.month := by omega
      rw [if_neg (not_not.2 hmonth), if_neg (not_not.2 hinner)]
      split_ifs <;> simp only [Mask.level] <;> omega
    · rw [if_pos hmonth]
      split_ifs <;> simp only [Mask.level] <;> omega
  · rw [if_pos hyear]
    split_ifs <;> simp only [Mask.level] <;> omega

/-! ## Microseconds of values -/

/-- The values that a window can begin and end with, each with its milliseconds in units: whole
numbers, truth values, and finite doubles. -/
inductive Value.IsMillis : Value → ℤ → Prop where
  | whole (n : ℤ) : IsMillis (.int n) (n * one)
  | flag (b : Bool) : IsMillis (.bool b) (boolInt b * one)
  | double {x : Double} (hx : x.isFinite = true) : IsMillis (.double x) x.order
  | fixed {x : Double} (hx : x.isFinite = true) :
    IsMillis (.scalar (.fixedFloat .float64 x)) x.order

/-- The microseconds at a number of units of a millisecond. -/
def microsAt (u : ℤ) : ℤ := if u < 0 then -(microsOfUnits u.natAbs : ℤ) else microsOfUnits u.natAbs

/-- **At a larger number of units there are no fewer microseconds.** -/
theorem microsAt_mono {u v : ℤ} (h : u ≤ v) : microsAt u ≤ microsAt v := by
  unfold microsAt
  by_cases hu : u < 0
  · by_cases hv : v < 0
    · -- below zero the larger number has the smaller magnitude
      have hmicros : microsOfUnits v.natAbs ≤ microsOfUnits u.natAbs :=
        microsOfUnits_mono (by omega)
      rw [if_pos hu, if_pos hv]
      omega
    · rw [if_pos hu, if_neg hv]
      omega
  · have hmicros : microsOfUnits u.natAbs ≤ microsOfUnits v.natAbs :=
      microsOfUnits_mono (by omega)
    rw [if_neg hu, if_neg (by omega)]
    omega

/-- Whole milliseconds have a thousand microseconds each. -/
theorem microsOfUnits_whole (n : ℕ) : microsOfUnits (n * one) = n * 1000 := by
  have hpart : microsOfPart 0 = 0 := by
    rw [microsOfPart_eq (Nat.zero_le one), Format.round_zero, Nat.zero_mul,
      Double.magnitude_of_fits binary64.fits_zero]
  rw [microsOfUnits, Nat.mul_div_cancel n one_pos, Nat.mul_mod_left, hpart, Nat.add_zero]
  exact nearest_mul_self _ one_pos

/-- Whole milliseconds, also below zero, have a thousand microseconds each. -/
theorem microsAt_whole (n : ℤ) : microsAt (n * one) = n * 1000 := by
  have hunits : (n * one).natAbs = n.natAbs * one := by rw [Int.natAbs_mul, Int.natAbs_natCast]
  have hpos : (0 : ℤ) < one := by exact_mod_cast one_pos
  rw [microsAt, hunits, microsOfUnits_whole]
  split_ifs with hneg
  · have hn : n < 0 := (mul_neg_iff_left hpos).1 hneg
    omega
  · have hn : ¬n < 0 := fun h => hneg ((mul_neg_iff_left hpos).2 h)
    omega

/-- The microseconds of a finite double are those at its place. -/
theorem microsOfMillis_eq {x : Double} (hx : x.isFinite = true) :
    microsOfMillis x = .ok (microsAt x.order) := by
  cases x with
  | nan => cases hx
  | infinite => cases hx
  | finite negative u hu =>
    rw [microsOfMillis_finite, Double.order_finite, microsAt]
    cases negative with
    | false =>
      have hpos : ¬(u : ℤ) < 0 := by omega
      rw [if_neg Bool.false_ne_true, if_neg Bool.false_ne_true, if_neg hpos, Int.natAbs_natCast]
    | true =>
      rw [if_pos rfl, if_pos rfl, Int.natAbs_neg, Int.natAbs_natCast]
      split_ifs with hneg
      · rfl
      · -- both zeros are at one place
        have hzero : u = 0 * one := by omega
        rw [hzero, microsOfUnits_whole]
        rfl

namespace Value.IsMillis

variable {v : Value} {u : ℤ}

/-- **The microseconds of a value** are those at its units. -/
theorem microsOfValue_eq (h : v.IsMillis u) : microsOfValue v = .ok (microsAt u) := by
  cases h with
  | whole n =>
    rw [microsAt_whole]
    rfl
  | flag b =>
    rw [microsAt_whole]
    rfl
  | double hx => exact microsOfMillis_eq hx
  | fixed hx => exact microsOfMillis_eq hx

end Value.IsMillis

/-! ## Dates of values -/

/-- A number of units of a millisecond lies in the calendar. -/
def WithinCalendar (u : ℤ) : Prop :=
  -((millisBefore * one : ℕ) : ℤ) ≤ u ∧ u < (millisAfter * one : ℕ)

/-- What lies between two places in the calendar lies there too. -/
theorem WithinCalendar.between {t u w : ℤ} (ht : WithinCalendar t) (hw : WithinCalendar w)
    (htu : t ≤ u) (huw : u ≤ w) : WithinCalendar u := ⟨ht.1.trans htu, huw.trans_lt hw.2⟩

/-- A value in the calendar has microseconds in the calendar. -/
theorem WithinCalendar.micros {v : Value} {u : ℤ} (h : WithinCalendar u) (hv : v.IsMillis u) :
    firstMicros ≤ microsAt u ∧ microsAt u < endMicros := by
  have hwhole : ∀ n : ℤ, u = n * one → firstMicros ≤ microsAt u ∧ microsAt u < endMicros := by
    rintro n rfl
    have hpos : (0 : ℤ) < one := by exact_mod_cast one_pos
    obtain ⟨hfirst, hlast⟩ := h
    rw [Nat.cast_mul, ← Int.neg_mul] at hfirst
    rw [Nat.cast_mul] at hlast
    have hlow := le_of_mul_le_mul_right hfirst hpos
    have hhigh := lt_of_mul_lt_mul_right hlast hpos.le
    rw [microsAt_whole, firstMicros_eq, endMicros_eq]
    omega
  cases hv with
  | whole n => exact hwhole n rfl
  | flag b => exact hwhole _ rfl
  | double hx => exact (inCalendar_iff (microsOfMillis_eq hx)).1 h
  | fixed hx => exact (inCalendar_iff (microsOfMillis_eq hx)).1 h

/-- The days of the calendar are in use. -/
theorem inUse_of_micros {n : ℤ} (h : firstMicros ≤ n ∧ n < endMicros) :
    Calendar.InUse (n / microsPerDay) := by
  have hfirst : firstMicros = -719162 * microsPerDay := by decide
  have hend : endMicros = 2932897 * microsPerDay := by decide
  have hday : microsPerDay = 86400000000 := rfl
  rw [hfirst, hend, hday] at h
  rw [Calendar.inUse_iff, hday]
  omega

/-- Later microseconds of the calendar are of no earlier date. -/
theorem not_before_of_micros {m n : ℤ} (hm : firstMicros ≤ m ∧ m < endMicros)
    (hn : firstMicros ≤ n ∧ n < endMicros) (h : m ≤ n) :
    ¬(dateOfMicros n).Before (dateOfMicros m) :=
  Calendar.not_before_of_le (inUse_of_micros hm) (inUse_of_micros hn)
    (Int.ediv_le_ediv (by decide) h)

/-- The form of labels for values in the calendar is that of their dates. -/
theorem maskOf_eq {a b : Value} {u v : ℤ} (ha : a.IsMillis u) (hb : b.IsMillis v)
    (hu : WithinCalendar u) (hv : WithinCalendar v) :
    maskOf a b = .ok (maskOfDates (dateOfMicros (microsAt u)) (dateOfMicros (microsAt v))) := by
  rw [maskOf, ha.microsOfValue_eq, hb.microsOfValue_eq]
  show (inCalendar _ >>= fun start => inCalendar _ >>= fun stop => _) = _
  rw [inCalendar_eq, inCalendar_eq, if_pos (hu.micros ha), if_pos (hv.micros hb)]
  rfl

/-! ## Wider windows -/

/-- **A wider window has no finer labels.**  Where one window lies within another, and the outer
one in the calendar, both have a form of labels, and that of the outer one is no finer. -/
theorem maskOf_coarsens {a b c d : Value} {t u v w : ℤ} (hc : c.IsMillis t) (ha : a.IsMillis u)
    (hb : b.IsMillis v) (hd : d.IsMillis w) (htu : t ≤ u) (huv : u ≤ v) (hvw : v ≤ w)
    (hfirst : WithinCalendar t) (hlast : WithinCalendar w) :
    ∃ inner outer, maskOf a b = .ok inner ∧ maskOf c d = .ok outer ∧
      inner.level ≤ outer.level := by
  have hu : WithinCalendar u := hfirst.between hlast htu (huv.trans hvw)
  have hv : WithinCalendar v := hfirst.between hlast (htu.trans huv) hvw
  refine ⟨_, _, maskOf_eq ha hb hu hv, maskOf_eq hc hd hfirst hlast, ?_⟩
  apply level_maskOfDates_mono
  · exact not_before_of_micros (hfirst.micros hc) (hu.micros ha) (microsAt_mono htu)
  · exact not_before_of_micros (hu.micros ha) (hv.micros hb) (microsAt_mono huv)
  · exact not_before_of_micros (hv.micros hb) (hlast.micros hd) (microsAt_mono hvw)

/-- January, from its first day to its last, lies within the span up to the first of March, where
the day of the month is one again. -/
theorem maskOf_coarsens_march :
    let day : ℤ := 86400000
    (0 * one ≤ Double.zero.order ∧ Double.zero.order ≤ 30 * day * one ∧
      30 * day * one ≤ 59 * day * one) ∧
    (WithinCalendar (0 * one) ∧ WithinCalendar (59 * day * one)) ∧
      ∃ inner outer, maskOf (.double .zero) (.int (30 * day)) = .ok inner ∧
        maskOf (.int 0) (.int (59 * day)) = .ok outer ∧ inner.level ≤ outer.level := by
  have horder : 0 * one ≤ Double.zero.order ∧ Double.zero.order ≤ 30 * 86400000 * one ∧
      30 * 86400000 * one ≤ 59 * 86400000 * (one : ℤ) := by decide +kernel
  have hwithin : WithinCalendar (0 * one) ∧ WithinCalendar (59 * 86400000 * one) := by
    unfold WithinCalendar
    decide +kernel
  exact ⟨horder, hwithin, maskOf_coarsens (.whole 0) (.double rfl) (.whole _) (.whole _) horder.1
    horder.2.1 horder.2.2 hwithin.1 hwithin.2⟩

/-! ## The time of day -/

/-- Dates in one month, at most a day apart, have labels with the time of day, and no others. -/
theorem showsClock_maskOfDates_iff (c c' : Civil) : (maskOfDates c c').ShowsClock ↔
    c.year = c'.year ∧ c.month = c'.month ∧ (c.day - c'.day).natAbs ≤ 1 := by
  rw [Mask.showsClock_iff]
  unfold maskOfDates
  split_ifs <;> simp only [Mask.level] <;> omega

/-- Two days have labels with the time of day just if they are one, or the second is the next one
and begins no month. -/
theorem showsClock_days_iff {m n : ℤ} (hm : Calendar.InUse m) (hn : Calendar.InUse n)
    (h : m ≤ n) : (maskOfDates (Calendar.civilOfDay m) (Calendar.civilOfDay n)).ShowsClock ↔
      n = m ∨ n = m + 1 ∧ (Calendar.civilOfDay n).day ≠ 1 := by
  rw [showsClock_maskOfDates_iff]
  constructor
  · rintro ⟨hyear, hmonth, hdays⟩
    have hapart := Calendar.day_sub_day hyear hmonth
    obtain rfl | rfl : n = m ∨ n = m + 1 := by omega
    · exact .inl rfl
    · exact .inr ⟨rfl, (Calendar.same_month_succ_iff hm hn).1 ⟨hyear, hmonth⟩⟩
  · rintro (rfl | ⟨rfl, hday⟩)
    · exact ⟨rfl, rfl, by omega⟩
    · obtain ⟨hyear, hmonth⟩ := (Calendar.same_month_succ_iff hm hn).2 hday
      have hapart := Calendar.day_sub_day hyear hmonth
      exact ⟨hyear, hmonth, by omega⟩

/-- **The windows whose labels show the time of day** are those whose ends have one date, or the
dates of a day and the next day, unless the next day begins a month. -/
theorem maskOf_showsClock_iff {a b : Value} {u v : ℤ} (ha : a.IsMillis u) (hb : b.IsMillis v)
    (huv : u ≤ v) (hfirst : WithinCalendar u) (hlast : WithinCalendar v) :
    ∃ m n mask, microsOfValue a = .ok m ∧ microsOfValue b = .ok n ∧ maskOf a b = .ok mask ∧
      (mask.ShowsClock ↔ n / microsPerDay = m / microsPerDay ∨
        n / microsPerDay = m / microsPerDay + 1 ∧ (dateOfMicros n).day ≠ 1) := by
  refine ⟨_, _, _, ha.microsOfValue_eq, hb.microsOfValue_eq, maskOf_eq ha hb hfirst hlast, ?_⟩
  have hm := inUse_of_micros (hfirst.micros ha)
  have hn := inUse_of_micros (hlast.micros hb)
  have hle : microsAt u / microsPerDay ≤ microsAt v / microsPerDay :=
    Int.ediv_le_ediv (by decide) (microsAt_mono huv)
  exact showsClock_days_iff hm hn hle

/-- The milliseconds at a number of hours after the midnight that begins a day. -/
def millisAtHour (day hour : ℤ) : ℤ := (day * 24 + hour) * 3600000

/-- Around the midnight before a leap day, which begins no month. -/
theorem maskOf_showsClock_leapDay :
    let first := millisAtHour 18321 (-1)
    let last := millisAtHour 18321 1
    (first * one ≤ last * (one : ℤ) ∧ WithinCalendar (first * one) ∧
      WithinCalendar (last * one)) ∧
    ∃ m n mask, microsOfValue (.int first) = .ok m ∧ microsOfValue (.int last) = .ok n ∧
      maskOf (.int first) (.int last) = .ok mask ∧
      (mask.ShowsClock ↔ n / microsPerDay = m / microsPerDay ∨
        n / microsPerDay = m / microsPerDay + 1 ∧ (dateOfMicros n).day ≠ 1) := by
  intro first last
  have hwithin : first * one ≤ last * (one : ℤ) ∧ WithinCalendar (first * one) ∧
      WithinCalendar (last * one) := by
    unfold WithinCalendar
    decide +kernel
  exact ⟨hwithin, maskOf_showsClock_iff (.whole first) (.whole last) hwithin.1 hwithin.2.1
    hwithin.2.2⟩

/-- Around the midnight between two months the labels do not show the time of day, though the dates
are those of a day and the next day. -/
theorem maskOf_turnOfMonth :
    ¬∀ (a b : Value) (u v : ℤ), a.IsMillis u → b.IsMillis v → u ≤ v → WithinCalendar u →
      WithinCalendar v → ∀ m n, microsOfValue a = .ok m → microsOfValue b = .ok n →
        n / microsPerDay ≤ m / microsPerDay + 1 →
          ∃ mask, maskOf a b = .ok mask ∧ mask.ShowsClock := by
  intro h
  have hwithin : millisAtHour 31 (-1) * one ≤ millisAtHour 31 1 * (one : ℤ) ∧
      WithinCalendar (millisAtHour 31 (-1) * one) ∧
      WithinCalendar (millisAtHour 31 1 * one) := by
    unfold WithinCalendar
    decide +kernel
  obtain ⟨mask, hmask, hshows⟩ := h _ _ _ _ (.whole (millisAtHour 31 (-1)))
    (.whole (millisAtHour 31 1)) hwithin.1 hwithin.2.1 hwithin.2.2 _ _ rfl rfl (by decide)
  have hday : maskOf (.int (millisAtHour 31 (-1))) (.int (millisAtHour 31 1)) = .ok .day := rfl
  obtain rfl : .day = mask := Except.ok.inj (hday.symm.trans hmask)
  exact absurd ((Mask.showsClock_iff .day).1 hshows) (by decide)

end LiveChart
