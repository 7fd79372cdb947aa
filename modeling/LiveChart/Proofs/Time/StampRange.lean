import LiveChart.Proofs.Time.Calendar
import LiveChart.Time.Iso
/-!
# What is read from a text is a moment of the calendar

A text may be no moment, but what is read from it is one of the calendar in use, whose offset from
UTC, if it has one, is less than a day.

* `Calendar.inUse_dayOfCivil` : the day of a valid date is in use;
* `Iso.readDay?_inUse` : every day that is read is in use;
* `Iso.Clock.Sound` : a time of day as it is read, and `Iso.readClock?_sound`;
* `Iso.readStamp?_inUse` : a moment that is read is one of the calendar in use.
-/

namespace LiveChart

/-! ## Days -/

namespace Calendar

/-- The days in use, by their numbers. -/
theorem inUse_iff {n : ℤ} : InUse n ↔ -719162 ≤ n ∧ n < 2932897 := by
  have hfirst : dayOfCivil ⟨minYear, 1, 1⟩ = -719162 := by decide
  have hlast : dayOfCivil ⟨maxYear + 1, 1, 1⟩ = 2932897 := by decide
  rw [InUse, hfirst, hlast]

/-- **The day of a valid date is in use.** -/
theorem inUse_dayOfCivil {c : Civil} (h : isValid c = true) : InUse (dayOfCivil c) := by
  have hlength := monthLength_le c.year c.month
  obtain ⟨year, month, day⟩ := c
  unfold isValid minYear maxYear at h
  simp only [Bool.and_eq_true, decide_eq_true_eq] at h hlength
  obtain ⟨⟨⟨⟨⟨hyear, hyear'⟩, hmonth⟩, hmonth'⟩, hday⟩, hday'⟩ := h
  rw [inUse_iff]
  unfold dayOfCivil daysPerCycle epochShift
  dsimp only
  interval_cases month <;> norm_num <;> omega

/-- The first week of a year holds the fourth of January. -/
theorem weekStart_bounds (year : ℤ) :
    dayOfCivil ⟨year, 1, 4⟩ - 6 ≤ weekStart year ∧ weekStart year ≤ dayOfCivil ⟨year, 1, 4⟩ := by
  unfold weekStart weekday
  dsimp only
  omega

/-- The first week of a year in use begins no earlier than the calendar. -/
theorem le_weekStart {year : ℤ} (h : minYear ≤ year) : -719162 ≤ weekStart year := by
  unfold minYear at h
  rcases h.eq_or_lt with rfl | hlt
  · -- the calendar begins with a Monday
    decide
  · have hstart := (weekStart_bounds year).1
    unfold dayOfCivil daysPerCycle epochShift at hstart
    norm_num at hstart
    omega

/-- **The day of a week of a year in use is in use**, if its own year is not past the last one. -/
theorem inUse_of_dayOfWeek? {year week day n : ℤ} (h : dayOfWeek? year week day = some n)
    (hfirst : minYear ≤ year) (hlast : year ≤ maxYear) (hcivil : (civilOfDay n).year ≤ maxYear) :
    InUse n := by
  have hstart := le_weekStart hfirst
  have hnext := (weekStart_bounds (year + 1)).2
  unfold dayOfWeek? at h
  dsimp only at h
  split_ifs at h with hweek
  obtain rfl := Option.some.inj h
  simp only [Bool.and_eq_true, decide_eq_true_eq] at hweek
  set n := weekStart year + (week - 1) * 7 + (day - 1) with hn
  have hbelow : n < weekStart (year + 1) := by omega
  have hend : dayOfCivil ⟨year + 1, 1, 4⟩ ≤ 2932900 := by
    unfold maxYear at hlast
    unfold dayOfCivil daysPerCycle epochShift
    norm_num
    omega
  rw [inUse_iff]
  refine ⟨by omega, ?_⟩
  -- the last week may run into the year after the last one, whose days are not in use
  by_contra hlate
  have hlow : 2932897 ≤ n := not_lt.1 hlate
  have hhigh : n < 2932900 := by omega
  clear_value n
  interval_cases n <;> exact absurd hcivil (by decide)

end Calendar

namespace Iso

/-! ## Numbers -/

/-- A digit is below ten. -/
theorem digit_lt {c : Char} (h : isDigit c = true) : c.toNat - 48 < 10 := by
  unfold isDigit Text.asciiDigit? at h
  split_ifs at h with hrange
  · simp only [Bool.and_eq_true, decide_eq_true_eq] at hrange
    omega
  · cases h

/-- A number goes on with as many digits as there are characters. -/
theorem foldl_digits_bounds {cs : List Char} (h : ∀ c ∈ cs, isDigit c = true) {m : ℤ} {k : ℕ}
    (hm : 0 ≤ m) (hlt : m < 10 ^ k) :
    0 ≤ cs.foldl (fun (n : ℤ) c => 10 * n + (c.toNat - 48 : ℕ)) m ∧
      cs.foldl (fun (n : ℤ) c => 10 * n + (c.toNat - 48 : ℕ)) m < 10 ^ (k + cs.length) := by
  induction cs generalizing m k with
  | nil => exact ⟨hm, hlt⟩
  | cons c cs ih =>
    obtain ⟨hc, hcs⟩ := List.forall_mem_cons.1 h
    have hdigit := digit_lt hc
    have hnext : 10 * m + (c.toNat - 48 : ℕ) < 10 ^ (k + 1) := by
      rw [pow_succ]
      omega
    have hall := ih hcs (m := 10 * m + (c.toNat - 48 : ℕ)) (by omega) hnext
    rwa [Nat.add_assoc, Nat.add_comm 1] at hall

/-- A number that is read has no more digits than characters. -/
theorem number?_bounds {cs : List Char} {n : ℤ} (h : number? cs = some n) :
    0 ≤ n ∧ n < 10 ^ cs.length := by
  unfold number? at h
  split_ifs at h with hdigits
  obtain rfl := Option.some.inj h
  have hall := foldl_digits_bounds (k := 0) (List.all_eq_true.1 hdigits) le_rfl (by decide)
  rwa [Nat.zero_add] at hall

/-- A number of two digits is below a hundred. -/
theorem twoDigits?_bounds {cs rest : List Char} {n : ℤ} (h : twoDigits? cs = some (n, rest)) :
    0 ≤ n ∧ n < 100 := by
  unfold twoDigits? at h
  split at h
  · obtain ⟨m, hm, hpair⟩ := Option.map_eq_some_iff.1 h
    obtain ⟨rfl, -⟩ := Prod.mk.inj hpair
    exact number?_bounds hm
  · cases h

/-! ## Days that are read -/

/-- A day that is read by month is in use. -/
theorem inUse_of_dayOfMonth? {y m d : List Char} {n : ℤ} (h : dayOfMonth? y m d = some n) :
    Calendar.InUse n := by
  unfold dayOfMonth? at h
  obtain ⟨year, -, h⟩ := Option.bind_eq_some_iff.1 h
  obtain ⟨month, -, h⟩ := Option.bind_eq_some_iff.1 h
  obtain ⟨day, -, h⟩ := Option.bind_eq_some_iff.1 h
  dsimp only at h
  split_ifs at h with hvalid
  obtain rfl := Option.some.inj h
  exact Calendar.inUse_dayOfCivil hvalid

/-- A day that is read by week is in use. -/
theorem inUse_of_dayOfWeek? {y w d : List Char} {n : ℤ} (h : dayOfWeek? y w d = some n) :
    Calendar.InUse n := by
  unfold dayOfWeek? at h
  obtain ⟨year, -, h⟩ := Option.bind_eq_some_iff.1 h
  obtain ⟨week, -, h⟩ := Option.bind_eq_some_iff.1 h
  obtain ⟨day, -, h⟩ := Option.bind_eq_some_iff.1 h
  obtain ⟨m, hm, h⟩ := Option.bind_eq_some_iff.1 h
  split_ifs at h with hrange
  obtain rfl := Option.some.inj h
  simp only [Bool.and_eq_true, decide_eq_true_eq] at hrange
  exact Calendar.inUse_of_dayOfWeek? hm hrange.1.1 hrange.1.2 hrange.2

/-- **Every day that is read is in use.** -/
theorem readDay?_inUse {cs : List Char} {n : ℤ} (h : readDay? cs = some n) :
    Calendar.InUse n := by
  unfold readDay? at h
  split at h
  · exact inUse_of_dayOfWeek? h
  · exact inUse_of_dayOfWeek? h
  · exact inUse_of_dayOfWeek? h
  · exact inUse_of_dayOfWeek? h
  · exact inUse_of_dayOfMonth? h
  · exact inUse_of_dayOfMonth? h
  · cases h

/-! ## Times of day that are read -/

/-- A time of day as it is read: its fields have two digits, and its fraction is less than a
second. -/
structure Clock.Sound (t : Clock) : Prop where
  hour : 0 ≤ t.hour ∧ t.hour < 100
  minute : 0 ≤ t.minute ∧ t.minute < 100
  second : 0 ≤ t.second ∧ t.second < 100
  micro : 0 ≤ t.micro ∧ t.micro < 10 ^ 6

/-- A fraction of a second is less than a second. -/
theorem fraction?_bounds {cs : List Char} {n : ℤ} {leftOver : Bool}
    (h : fraction? cs = some (n, leftOver)) : 0 ≤ n ∧ n < 10 ^ 6 := by
  unfold fraction? at h
  obtain ⟨m, hm, h⟩ := Option.bind_eq_some_iff.1 h
  obtain ⟨rfl, -⟩ := Prod.mk.inj (Option.some.inj h)
  obtain ⟨hpos, hlt⟩ := number?_bounds hm
  have hlength : (cs.take 6).length ≤ 6 := List.length_take_le ..
  refine ⟨by positivity, ?_⟩
  calc m * 10 ^ (6 - (cs.take 6).length)
      < 10 ^ (cs.take 6).length * 10 ^ (6 - (cs.take 6).length) := by gcongr
    _ = 10 ^ 6 := by rw [← pow_add, Nat.add_sub_cancel' hlength]

section Clocks

variable {t u : Clock} {cs : List Char} {leftOver colons : Bool}

theorem Clock.Sound.withFraction? (ht : t.Sound) (h : withFraction? t cs = some (u, leftOver)) :
    u.Sound := by
  obtain ⟨⟨n, b⟩, hn, hpair⟩ := Option.map_eq_some_iff.1 h
  obtain ⟨rfl, -⟩ := Prod.mk.inj hpair
  exact { ht with micro := fraction?_bounds hn }

theorem Clock.Sound.withLast? (ht : t.Sound) {c : Char} (h : withLast? t c = some (u, leftOver)) :
    u.Sound := by
  unfold Iso.withLast? at h
  split_ifs at h
  obtain ⟨rfl, -⟩ := Prod.mk.inj (Option.some.inj h)
  exact ht

theorem Clock.Sound.readSecondTail? (ht : t.Sound)
    (h : readSecondTail? colons t cs = some (u, leftOver)) : u.Sound := by
  unfold Iso.readSecondTail? at h
  split at h
  · obtain ⟨rfl, -⟩ := Prod.mk.inj (Option.some.inj h)
    exact ht
  · exact ht.withLast? h
  · split_ifs at h
    · exact ht.withFraction? h
    · exact ht.withFraction? h

theorem Clock.Sound.readMinuteTail? (ht : t.Sound)
    (h : readMinuteTail? colons t cs = some (u, leftOver)) : u.Sound := by
  unfold Iso.readMinuteTail? at h
  split at h
  · obtain ⟨rfl, -⟩ := Prod.mk.inj (Option.some.inj h)
    exact ht
  · exact ht.withLast? h
  · next c rest _ =>
    -- what the seconds are read of does not matter
    generalize (if colons = true then rest else c :: rest) = digits at h
    split_ifs at h
    · exact ht.withFraction? h
    · obtain ⟨⟨second, tail⟩, hsecond, h⟩ := Option.bind_eq_some_iff.1 h
      have hnext : { t with second }.Sound := { ht with second := twoDigits?_bounds hsecond }
      exact hnext.readSecondTail? h

theorem Clock.Sound.readHourTail? (ht : t.Sound) (h : readHourTail? t cs = some (u, leftOver)) :
    u.Sound := by
  unfold Iso.readHourTail? at h
  split at h
  · obtain ⟨rfl, -⟩ := Prod.mk.inj (Option.some.inj h)
    exact ht
  · exact ht.withLast? h
  · next c rest _ =>
    dsimp only at h
    generalize (if (c == ':') = true then rest else c :: rest) = digits at h
    split_ifs at h
    · exact ht.withFraction? h
    · obtain ⟨⟨minute, tail⟩, hminute, h⟩ := Option.bind_eq_some_iff.1 h
      have hnext : { t with minute }.Sound := { ht with minute := twoDigits?_bounds hminute }
      exact hnext.readMinuteTail? h

/-- **A time of day that is read is sound.** -/
theorem readClock?_sound (h : readClock? cs = some (t, leftOver)) : t.Sound := by
  unfold readClock? at h
  obtain ⟨⟨hour, tail⟩, hhour, h⟩ := Option.bind_eq_some_iff.1 h
  have hnone : (0 : ℤ) ≤ 0 ∧ (0 : ℤ) < 100 := by decide
  have hwhole : (0 : ℤ) ≤ 0 ∧ (0 : ℤ) < 10 ^ 6 := by decide
  have hnew : (⟨hour, 0, 0, 0⟩ : Clock).Sound := ⟨twoDigits?_bounds hhour, hnone, hnone, hwhole⟩
  exact hnew.readHourTail? h

end Clocks

/-- An offset that is read is less than a day. -/
theorem offset?_bounds {negative : Bool} {cs : List Char} {ahead : ℤ}
    (h : offset? negative cs = some ahead) : (ahead.natAbs : ℤ) < microsPerDay := by
  unfold offset? at h
  obtain ⟨⟨t, leftOver⟩, ht, h⟩ := Option.bind_eq_some_iff.1 h
  have hsound := readClock?_sound ht
  have hpos : 0 ≤ t.micros := by
    obtain ⟨⟨hhour, -⟩, ⟨hminute, -⟩, ⟨hsecond, -⟩, ⟨hmicro, -⟩⟩ := hsound
    unfold Clock.micros microsPerSecond
    omega
  dsimp only at h
  split_ifs at h with hout hnegative <;>
    simp only [Bool.or_eq_true, decide_eq_true_eq, not_or, not_le] at hout
  · obtain rfl := Option.some.inj h
    omega
  · obtain rfl := Option.some.inj h
    omega

/-- A time of day that is read is one of a day, and its offset is less than a day. -/
theorem readTime?_bounds {cs : List Char} {micros : ℤ} {ahead : Option ℤ}
    (h : readTime? cs = some (micros, ahead)) :
    (0 ≤ micros ∧ micros < microsPerDay) ∧ ∀ a ∈ ahead, (a.natAbs : ℤ) < microsPerDay := by
  unfold readTime? at h
  obtain ⟨⟨t, leftOver⟩, ht, h⟩ := Option.bind_eq_some_iff.1 h
  dsimp only at h
  -- the reading bounds the parts from below, and the check from above
  have hday : t.isValid = true → 0 ≤ t.micros ∧ t.micros < microsPerDay := by
    intro hvalid
    obtain ⟨⟨hhour, -⟩, ⟨hminute, -⟩, ⟨hsecond, -⟩, ⟨hmicro, hmicro'⟩⟩ := readClock?_sound ht
    unfold Clock.isValid at hvalid
    simp only [Bool.and_eq_true, decide_eq_true_eq] at hvalid
    unfold Clock.micros microsPerDay secondsPerDay microsPerSecond
    omega
  -- whichever way the offset is read, the check of the time of day comes last
  have hdone : ∀ read : Option ℤ, (∀ a ∈ read, (a.natAbs : ℤ) < microsPerDay) →
      (if t.isValid = true then some (t.micros, read) else none) = some (micros, ahead) →
        (0 ≤ micros ∧ micros < microsPerDay) ∧ ∀ a ∈ ahead, (a.natAbs : ℤ) < microsPerDay := by
    intro read hread h
    split_ifs at h with hvalid
    obtain ⟨rfl, rfl⟩ := Prod.mk.inj (Option.some.inj h)
    exact ⟨hday hvalid, hread⟩
  split at h
  · by_cases hleft : leftOver = true
    · rw [if_pos hleft] at h
      cases h
    · rw [if_neg hleft] at h
      exact hdone none (fun _ ha => nomatch ha) h
  · next rest _ =>
    by_cases hleft : isLeftOver rest = true
    · rw [if_pos hleft] at h
      cases h
    · rw [if_neg hleft] at h
      refine hdone (some 0) ?_ h
      rintro a ⟨⟩
      decide
  · obtain ⟨read, hread, h⟩ := Option.bind_eq_some_iff.1 h
    obtain ⟨a, ha, rfl⟩ := Option.map_eq_some_iff.1 hread
    refine hdone (some a) ?_ h
    rintro b ⟨⟩
    exact offset?_bounds ha

/-! ## Moments that are read -/

/-- **A moment that is read is one of the calendar in use**, with an offset of less than a day. -/
theorem readMoment?_inUse {cs : List Char} {t : Moment} (h : readMoment? cs = some t) :
    Calendar.InUse t.day.number ∧ ∀ a ∈ t.ahead, (a.natAbs : ℤ) < microsPerDay := by
  unfold readMoment? at h
  obtain ⟨day, hday, h⟩ := Option.bind_eq_some_iff.1 h
  have huse := readDay?_inUse hday
  have hnumber : ∀ micros, 0 ≤ micros → micros < microsPerDay →
      (day * microsPerDay + micros) / microsPerDay = day := by
    unfold microsPerDay secondsPerDay microsPerSecond
    omega
  dsimp only at h
  split at h
  · obtain rfl := Option.some.inj h
    have hstart := hnumber 0 le_rfl (by decide)
    rw [Int.add_zero] at hstart
    refine ⟨?_, fun _ ha => nomatch ha⟩
    rwa [Moment.day, hstart]
  · obtain ⟨⟨micros, ahead⟩, htime, h⟩ := Option.bind_eq_some_iff.1 h
    obtain rfl := Option.some.inj h
    obtain ⟨⟨hpos, hlt⟩, hahead⟩ := readTime?_bounds htime
    refine ⟨?_, hahead⟩
    rwa [Moment.day, hnumber micros hpos hlt]

/-- **A moment that is read between blanks is one of the calendar in use**, with a letter `Z` or
without. -/
theorem readStamp?_inUse {s : String} {t : Moment} (h : readStamp? s = some t) :
    Calendar.InUse t.day.number ∧ ∀ a ∈ t.ahead, (a.natAbs : ℤ) < microsPerDay := by
  unfold readStamp? at h
  dsimp only at h
  split at h
  · cases h
  · split_ifs at h
    · exact readMoment?_inUse h
    · exact readMoment?_inUse h

end Iso

end LiveChart
