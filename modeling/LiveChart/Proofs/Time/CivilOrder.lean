import LiveChart.Proofs.Time.StampRange
/-!
# The order of dates

Dates are ordered by their years, then by their months, then by their days.  The days that they
number have the same order, since a month never runs into the next one, nor a year.

* `Civil.Before` : the order of dates;
* `Calendar.dayOfCivil_eq` : the day number of a date, counted from the March of its year;
* `Calendar.dayOfCivil_lt` : an earlier date has a lower day number;
* `Calendar.not_before_of_le` : a lower day number has no later date;
* `Calendar.civilOfDay_dayOfCivil` : the date of the day of a date;
* `Calendar.same_month_succ_iff` : the next day lies in another month just if it is the first of it.
-/

namespace LiveChart

/-- A date comes before another: by its year, or in the same year by its month, or in the same month
by its day. -/
def Civil.Before (c c' : Civil) : Prop :=
  c.year < c'.year ∨
    c.year = c'.year ∧ (c.month < c'.month ∨ c.month = c'.month ∧ c.day < c'.day)

/-- Of two dates one comes before the other, unless they are the same. -/
theorem Civil.before_or_before {c c' : Civil} (h : c ≠ c') : c.Before c' ∨ c'.Before c := by
  obtain ⟨y, m, d⟩ := c
  obtain ⟨y', m', d'⟩ := c'
  rw [Ne, Civil.mk.injEq] at h
  unfold Before
  dsimp only
  omega

namespace Calendar

/-! ## Years that begin in March -/

/-- The year of a date, if years begin in March. -/
def marchYear (c : Civil) : ℤ := if c.month ≤ 2 then c.year - 1 else c.year

/-- The month of a date from zero, if years begin in March. -/
def marchMonth (c : Civil) : ℤ := (c.month + 9) % 12

/-- The day number of the first of March. -/
def yearStart (y : ℤ) : ℤ := 365 * y + y / 4 - y / 100 + y / 400 - epochShift

/-- The days from the first of March to the beginning of a month. -/
def monthStart (m : ℤ) : ℤ := (153 * m + 2) / 5

/-- **The day number of a date, counted from the March of its year.** -/
theorem dayOfCivil_eq (c : Civil) :
    dayOfCivil c = yearStart (marchYear c) + monthStart (marchMonth c) + c.day - 1 := by
  unfold dayOfCivil marchYear marchMonth yearStart monthStart daysPerCycle
  dsimp only
  omega

/-- Later years begin no earlier. -/
theorem yearStart_mono {y y' : ℤ} (h : y ≤ y') : yearStart y ≤ yearStart y' := by
  unfold yearStart
  omega

/-- A year has a day more than 365 if it ends with a leap day. -/
theorem yearStart_succ (y : ℤ) :
    yearStart (y + 1) = yearStart y + 365 + if isLeap (y + 1) then 1 else 0 := by
  unfold yearStart isLeap
  simp only [Bool.and_eq_true, Bool.or_eq_true, beq_iff_eq, bne_iff_ne]
  split_ifs <;> omega

/-- Later months begin no earlier. -/
theorem monthStart_mono {m m' : ℤ} (h : m ≤ m') : monthStart m ≤ monthStart m' := by
  unfold monthStart
  omega

/-! ## Valid dates -/

section Valid

variable {c c' : Civil}

/-- The bounds of a valid date. -/
theorem bounds_of_isValid (h : isValid c = true) :
    (1 ≤ c.month ∧ c.month ≤ 12) ∧ 1 ≤ c.day ∧ c.day ≤ monthLength c.year c.month := by
  unfold isValid at h
  simp only [Bool.and_eq_true, decide_eq_true_eq] at h
  omega

/-- A month ends before the next one begins. -/
theorem monthStart_add_day_le (h : isValid c = true) (hm : marchMonth c < 11) :
    monthStart (marchMonth c) + c.day ≤ monthStart (marchMonth c + 1) := by
  obtain ⟨⟨hmonth, hmonth'⟩, -, hday⟩ := bounds_of_isValid h
  obtain ⟨year, month, day⟩ := c
  unfold marchMonth at hm ⊢
  unfold monthLength at hday
  unfold monthStart
  dsimp only at *
  interval_cases month <;> simp at hm hday ⊢ <;> omega

/-- **A year ends before the next one begins.** -/
theorem dayOfCivil_lt_yearStart (h : isValid c = true) :
    dayOfCivil c < yearStart (marchYear c + 1) := by
  have hsucc := yearStart_succ (marchYear c)
  have hmonth : marchMonth c ≤ 11 := by
    unfold marchMonth
    omega
  rw [dayOfCivil_eq]
  rcases hmonth.lt_or_eq with hlt | hlast
  · have hday := monthStart_add_day_le h hlt
    have hnext : monthStart (marchMonth c + 1) ≤ monthStart 11 := monthStart_mono hlt
    have hfebruary : monthStart 11 = 337 := rfl
    split_ifs at hsucc <;> omega
  · -- the last month is February, whose length is that of the year
    obtain ⟨⟨hlow, hhigh⟩, -, hday⟩ := bounds_of_isValid h
    have htwo : c.month = 2 := by
      unfold marchMonth at hlast
      omega
    have hyear : marchYear c + 1 = c.year := by
      unfold marchYear
      rw [if_pos htwo.le]
      omega
    have hfebruary : monthStart (marchMonth c) = 337 := by rw [hlast]; rfl
    rw [htwo] at hday
    unfold monthLength at hday
    rw [hyear] at hsucc ⊢
    rw [if_pos (by rfl)] at hday
    split_ifs at hsucc hday <;> omega

/-- A year begins no later than its days. -/
theorem yearStart_le_dayOfCivil (h : isValid c = true) :
    yearStart (marchYear c) ≤ dayOfCivil c := by
  obtain ⟨-, hday, -⟩ := bounds_of_isValid h
  have hmonth : 0 ≤ monthStart (marchMonth c) := by
    unfold monthStart marchMonth
    omega
  rw [dayOfCivil_eq]
  omega

/-- **An earlier date has a lower day number.** -/
theorem dayOfCivil_lt (hc : isValid c = true) (hc' : isValid c' = true) (h : c.Before c') :
    dayOfCivil c < dayOfCivil c' := by
  obtain ⟨⟨hlow, hhigh⟩, -, -⟩ := bounds_of_isValid hc
  obtain ⟨⟨hlow', hhigh'⟩, hday', -⟩ := bounds_of_isValid hc'
  -- the order by years from March is the same order
  have hmarch : marchYear c < marchYear c' ∨ marchYear c = marchYear c' ∧
      (marchMonth c < marchMonth c' ∨ marchMonth c = marchMonth c' ∧ c.day < c'.day) := by
    unfold Civil.Before at h
    unfold marchYear marchMonth
    omega
  rcases hmarch with hyear | ⟨hyear, hmonth | ⟨hmonth, hday⟩⟩
  · calc dayOfCivil c
        < yearStart (marchYear c + 1) := dayOfCivil_lt_yearStart hc
      _ ≤ yearStart (marchYear c') := yearStart_mono hyear
      _ ≤ dayOfCivil c' := yearStart_le_dayOfCivil hc'
  · have hlast : marchMonth c < 11 := by
      unfold marchMonth at hmonth ⊢
      omega
    have hend := monthStart_add_day_le hc hlast
    have hnext : monthStart (marchMonth c + 1) ≤ monthStart (marchMonth c') :=
      monthStart_mono hmonth
    rw [dayOfCivil_eq, dayOfCivil_eq, hyear]
    omega
  · rw [dayOfCivil_eq, dayOfCivil_eq, hyear, hmonth]
    omega

/-- **The date of the day of a date** is the date. -/
theorem civilOfDay_dayOfCivil (h : isValid c = true) : civilOfDay (dayOfCivil c) = c := by
  have hvalid := isValid_civilOfDay (inUse_dayOfCivil h)
  have hday := dayOfCivil_civilOfDay (dayOfCivil c)
  by_contra hne
  rcases Civil.before_or_before hne with hbefore | hbefore
  · have hlt := dayOfCivil_lt hvalid h hbefore
    omega
  · have hlt := dayOfCivil_lt h hvalid hbefore
    omega

end Valid

/-! ## Days in use -/

variable {m n : ℤ}

/-- **A lower day number has no later date.** -/
theorem not_before_of_le (hm : InUse m) (hn : InUse n) (h : m ≤ n) :
    ¬(civilOfDay n).Before (civilOfDay m) := by
  intro hbefore
  have hlt := dayOfCivil_lt (isValid_civilOfDay hn) (isValid_civilOfDay hm) hbefore
  rw [dayOfCivil_civilOfDay, dayOfCivil_civilOfDay] at hlt
  omega

/-- The days of one month are as far apart as their numbers. -/
theorem day_sub_day (hyear : (civilOfDay m).year = (civilOfDay n).year)
    (hmonth : (civilOfDay m).month = (civilOfDay n).month) :
    (civilOfDay n).day - (civilOfDay m).day = n - m := by
  have hm := dayOfCivil_eq (civilOfDay m)
  have hn := dayOfCivil_eq (civilOfDay n)
  rw [dayOfCivil_civilOfDay] at hm hn
  unfold marchYear marchMonth at hm hn
  rw [hyear, hmonth] at hm
  omega

/-- The day before a day that is not the first of its month lies in the same month. -/
theorem civilOfDay_pred (hn : InUse n) (h : (civilOfDay n).day ≠ 1) :
    civilOfDay (n - 1) = { civilOfDay n with day := (civilOfDay n).day - 1 } := by
  have hvalid := isValid_civilOfDay hn
  obtain ⟨-, hday, hlength⟩ := bounds_of_isValid hvalid
  set c := civilOfDay n with hc
  have hbefore : isValid { c with day := c.day - 1 } = true := by
    unfold isValid at hvalid ⊢
    simp only [Bool.and_eq_true, decide_eq_true_eq] at hvalid ⊢
    omega
  have hnumber : dayOfCivil { c with day := c.day - 1 } = n - 1 := by
    have hself := dayOfCivil_civilOfDay n
    rw [← hc, dayOfCivil_eq] at hself
    rw [dayOfCivil_eq]
    unfold marchYear marchMonth at hself ⊢
    dsimp only at hself ⊢
    omega
  rw [← hnumber, civilOfDay_dayOfCivil hbefore]

/-- **The next day lies in another month just if it is the first of it.** -/
theorem same_month_succ_iff (hn : InUse n) (hnext : InUse (n + 1)) :
    (civilOfDay n).year = (civilOfDay (n + 1)).year ∧
        (civilOfDay n).month = (civilOfDay (n + 1)).month ↔
      (civilOfDay (n + 1)).day ≠ 1 := by
  constructor
  · rintro ⟨hyear, hmonth⟩
    obtain ⟨-, hday, -⟩ := bounds_of_isValid (isValid_civilOfDay hn)
    have hapart := day_sub_day hyear hmonth
    omega
  · intro hday
    have hpred := civilOfDay_pred hnext hday
    rw [Int.add_sub_cancel] at hpred
    rw [hpred]
    exact ⟨rfl, rfl⟩

end Calendar

end LiveChart
