import LiveChart.Time.Calendar
import Mathlib.Algebra.Order.Ring.Int
import Mathlib.Tactic.IntervalCases
/-!
# Days and their civil dates

A day of the cycle of 400 years lies in one of its centuries, in one of the spans of four years of
the century, and in a year of the span.  The day beyond 365 days is there only in the last year of a
span, and in the last span of a century only in the last century.

* `exists_place` : every day of a cycle has such a place;
* `civilOfDay_eq` : the civil date of a day, by its place;
* `dayOfCivil_civilOfDay` : the day of the civil date of a day;
* `isValid_civilOfDay` : the civil date of a day of the calendar in use is valid.
-/

namespace LiveChart.Calendar

/-- The place of a day in a cycle: the century, the span of four years, the year of the span, and
the day of the year, all from zero. -/
structure Place (dayOfCycle century span year day : ℤ) : Prop where
  century_nonneg : 0 ≤ century
  century_le : century ≤ 3
  span_nonneg : 0 ≤ span
  span_le : span ≤ 24
  year_nonneg : 0 ≤ year
  year_le : year ≤ 3
  day_nonneg : 0 ≤ day
  day_le : day ≤ 365
  /-- A year with a leap day is the last of its span. -/
  year_eq : day = 365 → year = 3
  /-- A year with a leap day in the last span of a century is in the last century. -/
  century_eq : day = 365 → span = 24 → century = 3
  dayOfCycle_eq : dayOfCycle = 36524 * century + 1461 * span + 365 * year + day

/-- Every day of a cycle has a place. -/
theorem exists_place {d : ℤ} (h : 0 ≤ d) (hlt : d < daysPerCycle) :
    ∃ century span year day, Place d century span year day := by
  unfold daysPerCycle at hlt
  -- the last day of a cycle is one more than the centuries have
  obtain ⟨c, hc, r, hr⟩ : ∃ c, (0 ≤ c ∧ c ≤ 3) ∧ ∃ r, 0 ≤ r ∧ d = 36524 * c + r ∧ r ≤ 36524 ∧
      (r = 36524 → c = 3) := by
    by_cases hlast : d = 146096
    · exact ⟨3, by omega, 36524, by omega⟩
    · exact ⟨d / 36524, by omega, d % 36524, by omega⟩
  -- and so is the last day of a span
  obtain ⟨y, hy, t, ht⟩ : ∃ y, (0 ≤ y ∧ y ≤ 3) ∧ ∃ t, 0 ≤ t ∧ r % 1461 = 365 * y + t ∧ t ≤ 365 ∧
      (t = 365 → y = 3) := by
    by_cases hlast : r % 1461 = 1460
    · exact ⟨3, by omega, 365, by omega⟩
    · exact ⟨r % 1461 / 365, by omega, r % 1461 % 365, by omega⟩
  exact ⟨c, r / 1461, y, t, by omega, by omega, by omega, by omega, by omega, by omega, by omega,
    by omega, by omega, by omega, by omega⟩

variable {n cycle dayOfCycle century span year day : ℤ}

/-- The year of the cycle that a day lies in. -/
theorem Place.yearOfCycle_eq (h : Place dayOfCycle century span year day) :
    (dayOfCycle - dayOfCycle / 1460 + dayOfCycle / 36524 - dayOfCycle / 146096) / 365
      = 100 * century + 4 * span + year := by
  obtain ⟨hc, hc', hs, hs', hy, hy', hd, hd', hyear, hcentury, rfl⟩ := h
  -- a quotient is one more late in its span, and at the end of the cycle
  by_cases hlast : day = 365 ∧ span = 24
  · obtain ⟨rfl, rfl⟩ := hlast
    obtain rfl := hyear rfl
    obtain rfl := hcentury rfl rfl
    rfl
  · have hcenturies : (36524 * century + 1461 * span + 365 * year + day) / 36524 = century := by
      omega
    have hcycles : (36524 * century + 1461 * span + 365 * year + day) / 146096 = 0 := by omega
    rw [hcenturies, hcycles]
    omega

/-- The day of the year that a day lies in. -/
theorem Place.dayOfYear_eq (h : Place dayOfCycle century span year day) :
    dayOfCycle - (365 * (100 * century + 4 * span + year)
      + (100 * century + 4 * span + year) / 4 - (100 * century + 4 * span + year) / 100) = day := by
  obtain ⟨hc, hc', hs, hs', hy, hy', hd, hd', -, -, rfl⟩ := h
  omega

/-- The month of a day of the year, from zero. -/
def monthOf (day : ℤ) : ℤ := (5 * day + 2) / 153

/-- There are twelve months. -/
theorem Place.monthOf_le (h : Place dayOfCycle century span year day) :
    0 ≤ monthOf day ∧ monthOf day ≤ 11 := by
  have hnonneg := h.day_nonneg
  have hle := h.day_le
  unfold monthOf
  omega

/-- **The date of a day, by its place**: ten months end a civil year, and two begin the next. -/
theorem civilOfDay_eq
    (h : Place ((n + epochShift) % daysPerCycle) century span year day) :
    civilOfDay n
      = ⟨100 * century + 4 * span + year + (n + epochShift) / daysPerCycle * 400
          + (if monthOf day < 10 then 0 else 1),
        if monthOf day < 10 then monthOf day + 3 else monthOf day - 9,
        day - (153 * monthOf day + 2) / 5 + 1⟩ := by
  have hmonth := h.monthOf_le
  unfold civilOfDay
  simp only [h.yearOfCycle_eq, h.dayOfYear_eq]
  rw [← monthOf]
  congr 2
  split_ifs <;> omega

/-- **The day of the civil date of a day** is the day. -/
theorem dayOfCivil_civilOfDay (n : ℤ) : dayOfCivil (civilOfDay n) = n := by
  have hpos : 0 < daysPerCycle := by decide
  obtain ⟨c, s, y, t, h⟩ := exists_place (Int.emod_nonneg (n + epochShift) hpos.ne')
    (Int.emod_lt_of_pos (n + epochShift) hpos)
  have hmonth := h.monthOf_le
  rw [civilOfDay_eq h]
  have hcycle := Int.mul_ediv_add_emod (n + epochShift) daysPerCycle
  rw [h.dayOfCycle_eq] at hcycle
  obtain ⟨hc, hc', hs, hs', hy, hy', -, -, -, -, -⟩ := h
  generalize (n + epochShift) / daysPerCycle = cycle at hcycle ⊢
  generalize monthOf t = m at hmonth ⊢
  -- in the year that begins in March, the month and the year are those of the place
  have hmonthOf : ((if m < 10 then m + 3 else m - 9) + 9) % 12 = m := by
    split_ifs <;> omega
  have hyear : (if (if m < 10 then m + 3 else m - 9) ≤ 2
      then 100 * c + 4 * s + y + cycle * 400 + (if m < 10 then 0 else 1) - 1
      else 100 * c + 4 * s + y + cycle * 400 + (if m < 10 then 0 else 1))
      = 100 * c + 4 * s + y + cycle * 400 := by
    split_ifs <;> omega
  have hcycleOf : (100 * c + 4 * s + y + cycle * 400) / 400 = cycle := by omega
  have hyearOf : (100 * c + 4 * s + y + cycle * 400) % 400 = 100 * c + 4 * s + y := by omega
  unfold dayOfCivil
  simp only [hyear, hmonthOf, hcycleOf, hyearOf]
  unfold daysPerCycle epochShift at *
  omega

/-- A year has a leap day if it ends a span, and if it ends a century ends a cycle. -/
theorem Place.isLeap_of_day (h : Place dayOfCycle century span year day) (hday : day = 365)
    (cycle : ℤ) : isLeap (100 * century + 4 * span + year + cycle * 400 + 1) = true := by
  have hyear := h.year_eq hday
  have hcentury := h.century_eq hday
  obtain ⟨hc, hc', hs, hs', -, -, -, -, -, -, -⟩ := h
  unfold isLeap
  simp only [Bool.and_eq_true, Bool.or_eq_true, beq_iff_eq, bne_iff_ne]
  omega

/-- No month is longer than 31 days. -/
theorem monthLength_le (y m : ℤ) : monthLength y m ≤ 31 := by
  unfold monthLength
  split_ifs <;> decide

/-- No day of a month lies past its length. -/
theorem Place.le_monthLength (h : Place dayOfCycle century span year day) (cycle : ℤ) :
    day - (153 * monthOf day + 2) / 5 + 1 ≤
      monthLength (100 * century + 4 * span + year + cycle * 400
          + (if monthOf day < 10 then 0 else 1))
        (if monthOf day < 10 then monthOf day + 3 else monthOf day - 9) := by
  obtain ⟨hmonth, hmonth'⟩ := h.monthOf_le
  have hle := h.day_le
  have hmonthOf : monthOf day = (5 * day + 2) / 153 := rfl
  by_cases hlast : monthOf day = 11
  · -- February has a day more in a leap year
    rw [hlast]
    show day - (153 * 11 + 2) / 5 + 1
      ≤ if isLeap (100 * century + 4 * span + year + cycle * 400 + 1) then 29 else 28
    split_ifs with hleap
    · omega
    · have hday : day ≠ 365 := fun hday => hleap (h.isLeap_of_day hday cycle)
      omega
  · generalize monthOf day = m at hmonth hmonth' hmonthOf hlast ⊢
    unfold monthLength
    interval_cases m <;> simp <;> omega

/-- A day of the calendar in use. -/
def InUse (n : ℤ) : Prop :=
  dayOfCivil ⟨minYear, 1, 1⟩ ≤ n ∧ n < dayOfCivil ⟨maxYear + 1, 1, 1⟩

/-- **The civil date of a day of the calendar in use is valid.** -/
theorem isValid_civilOfDay {n : ℤ} (hn : InUse n) : isValid (civilOfDay n) = true := by
  obtain ⟨hge, hlt⟩ := hn
  have hfirst : dayOfCivil ⟨minYear, 1, 1⟩ = -719162 := by decide
  have hlast : dayOfCivil ⟨maxYear + 1, 1, 1⟩ = 2932897 := by decide
  rw [hfirst] at hge
  rw [hlast] at hlt
  have hpos : 0 < daysPerCycle := by decide
  obtain ⟨c, s, y, t, h⟩ := exists_place (Int.emod_nonneg (n + epochShift) hpos.ne')
    (Int.emod_lt_of_pos (n + epochShift) hpos)
  have hmonth := h.monthOf_le
  have hday : monthOf t = (5 * t + 2) / 153 := rfl
  have hlength := h.le_monthLength ((n + epochShift) / daysPerCycle)
  have hcycle := Int.mul_ediv_add_emod (n + epochShift) daysPerCycle
  rw [h.dayOfCycle_eq] at hcycle
  rw [civilOfDay_eq h]
  obtain ⟨hc, hc', hs, hs', hy, hy', ht, ht', -, -, -⟩ := h
  generalize (n + epochShift) / daysPerCycle = cycle at hcycle hlength ⊢
  generalize monthOf t = m at hmonth hday hlength ⊢
  unfold daysPerCycle epochShift at hcycle
  unfold isValid minYear maxYear
  simp only [Bool.and_eq_true, decide_eq_true_eq]
  -- the year and the month from both sides, and the day from below
  refine ⟨⟨⟨⟨⟨?_, ?_⟩, ?_⟩, ?_⟩, ?_⟩, hlength⟩
  · split_ifs <;> omega
  · split_ifs <;> omega
  · split_ifs <;> omega
  · split_ifs <;> omega
  · omega

/-- The year of a day of the calendar in use has up to four digits, and its month and day have up to
two. -/
theorem civilOfDay_bounds {n : ℤ} (h : InUse n) :
    (1 ≤ (civilOfDay n).year ∧ (civilOfDay n).year ≤ 9999) ∧
      (1 ≤ (civilOfDay n).month ∧ (civilOfDay n).month ≤ 12) ∧
      (1 ≤ (civilOfDay n).day ∧ (civilOfDay n).day ≤ 31) := by
  have hvalid := isValid_civilOfDay h
  have hlength := monthLength_le (civilOfDay n).year (civilOfDay n).month
  unfold isValid minYear maxYear at hvalid
  simp only [Bool.and_eq_true, decide_eq_true_eq] at hvalid
  omega

end LiveChart.Calendar
