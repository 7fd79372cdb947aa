import LiveChart.Time.Iso
import LiveChart.Proofs.Time.Calendar
import Mathlib.Data.List.Basic
/-!
# Moments written and read

A moment is written as its date, a separator, its time of day to some precision, and its offset from
UTC if it has one.  What is so written, to a precision that loses nothing, reads back as the moment.

* `Spells` : characters that spell a number in a width;
* `Precision.clockText` and `Moment.isoText` : a time of day and a moment as written;
* `readClock?_clockText` and `readDay?_text` : the parts read back;
* `readMoment?_isoText` : the moment reads back;
* `readStamp?_isoText` : a moment between blanks reads back, also with a letter `Z` for the offset
  zero.
-/

namespace LiveChart

open Text (decimal paddedDecimal)

/-! ## Numbers of a width -/

namespace Iso

/-- Characters are the digits of a number, as many as the width says. -/
structure Spells (width : ℕ) (n : ℤ) (cs : List Char) : Prop where
  length_eq : cs.length = width
  digits : ∀ c ∈ cs, isDigit c = true
  number : number? cs = some n

/-- A digit is no character that is no digit. -/
theorem ne_of_isDigit {c d : Char} (hc : isDigit c = true) (hd : isDigit d = false) : c ≠ d := by
  rintro rfl
  rw [hc] at hd
  cases hd

/-- A digit of the core library is a digit. -/
theorem isDigit_of_isDigit {c : Char} (h : c.isDigit = true) : isDigit c = true := by
  have hrange : 48 ≤ c.val ∧ c.val ≤ 57 := by simpa [Char.isDigit] using h
  have hge : 48 ≤ c.toNat := UInt32.le_iff_toNat_le.1 hrange.1
  have hle : c.toNat ≤ 57 := UInt32.le_iff_toNat_le.1 hrange.2
  unfold isDigit Text.asciiDigit?
  rw [if_pos (by simp only [Bool.and_eq_true, decide_eq_true_eq]; omega)]
  rfl

/-- The characters of a padded number are digits. -/
theorem isDigit_of_mem_paddedDecimal {width n : ℕ} {c : Char} (h : c ∈ paddedDecimal width n) :
    isDigit c = true := by
  rcases List.mem_append.1 h with h | h
  · rw [(List.mem_replicate.1 h).2]
    decide
  · exact isDigit_of_isDigit (Nat.isDigit_of_mem_toDigits (by decide) (by decide) h)

/-- A padded number is read as the number. -/
theorem number?_paddedDecimal (width n : ℕ) : number? (paddedDecimal width n) = some n := by
  have hall : (paddedDecimal width n).all isDigit = true :=
    List.all_eq_true.2 fun _ => isDigit_of_mem_paddedDecimal
  have hfold : ∀ (cs : List Char) (k : ℕ),
      cs.foldl (fun (m : ℤ) c => 10 * m + (c.toNat - 48 : ℕ)) k
        = (Nat.ofDigitChars 10 cs k : ℤ) := by
    intro cs
    induction cs with
    | nil => exact fun _ => rfl
    | cons c cs ih =>
      intro k
      have hstep : (10 * (k : ℤ) + (c.toNat - 48 : ℕ)) = ((10 * k + (c.toNat - 48) : ℕ) : ℤ) := by
        push_cast
        rfl
      rw [List.foldl_cons, hstep, ih]
      rfl
  have hzeros : ∀ k : ℕ, Nat.ofDigitChars 10 (List.replicate k '0') 0 = 0 := by
    intro k
    induction k with
    | zero => rfl
    | succ k ih => exact ih
  rw [number?, if_pos hall]
  refine congrArg some ((hfold _ 0).trans ?_)
  rw [paddedDecimal, Nat.ofDigitChars_append, hzeros]
  exact congrArg Nat.cast Nat.ofDigitChars_ten_toDigits

/-- A number that is not below zero is padded without a sign. -/
theorem toList_pad (width k : ℕ) : (pad width (k : ℤ)).toList = paddedDecimal width k := by
  rw [pad, if_neg (by omega), String.toList_ofList, Int.natAbs_natCast]

/-- The characters of a padded number that is not below zero are digits. -/
theorem isDigit_of_mem_pad {width : ℕ} {n : ℤ} (h : 0 ≤ n) {c : Char}
    (hc : c ∈ (pad width n).toList) : isDigit c = true := by
  obtain ⟨k, rfl⟩ := Int.eq_ofNat_of_zero_le h
  rw [toList_pad] at hc
  exact isDigit_of_mem_paddedDecimal hc

/-- **A number below the bound of its width spells itself when padded.** -/
theorem spells_pad {width : ℕ} (hwidth : 0 < width) {n : ℤ} (h : 0 ≤ n) (hlt : n < 10 ^ width) :
    Spells width n (pad width n).toList := by
  obtain ⟨k, rfl⟩ := Int.eq_ofNat_of_zero_le h
  rw [toList_pad]
  refine ⟨?_, fun _ => isDigit_of_mem_paddedDecimal, number?_paddedDecimal width k⟩
  have hlength : (decimal k).length ≤ width :=
    (Nat.length_toDigits_le_iff (by decide) hwidth).2 (by exact_mod_cast hlt)
  rw [paddedDecimal, List.length_append, List.length_replicate]
  omega

/-- A number of two digits at most spells itself in the width two. -/
theorem spells_two {n : ℤ} (h : 0 ≤ n) (hlt : n < 100) : Spells 2 n (pad 2 n).toList :=
  spells_pad (by decide) h hlt

end Iso

/-! ## Moments as written -/

/-- How far a written time of day goes. -/
inductive Precision where
  | hours | minutes | seconds | millis | micros
  deriving DecidableEq

namespace Precision

/-- The microseconds of the last part that is written. -/
def step : Precision → ℤ
  | .hours => 3600 * microsPerSecond
  | .minutes => 60 * microsPerSecond
  | .seconds => microsPerSecond
  | .millis => 1000
  | .micros => 1

/-- A day is a whole number of steps of any precision. -/
theorem step_dvd (precision : Precision) : precision.step ∣ microsPerDay := by
  cases precision <;> decide

/-- The time of day of a number of microseconds since midnight, as far as the precision goes. -/
def clockText (precision : Precision) (micros : ℤ) : String :=
  let s := micros / microsPerSecond
  let micro := micros % microsPerSecond
  let hour := pad 2 (s / 3600)
  let minute := hour ++ ":" ++ pad 2 (s / 60 % 60)
  let second := minute ++ ":" ++ pad 2 (s % 60)
  match precision with
  | .hours => hour
  | .minutes => minute
  | .seconds => second
  | .millis => second ++ "." ++ pad 3 (micro / 1000)
  | .micros => second ++ "." ++ pad 6 micro

/-- What holds of padded numbers, and is kept when they are put together by colons and points, holds
of a time of day. -/
theorem clockText_induct {P : String → Prop} (precision : Precision) {micros : ℤ} (h : 0 ≤ micros)
    (number : ∀ width n, 0 ≤ n → P (pad width n))
    (join : ∀ s t mark, mark = ":" ∨ mark = "." → P s → P t → P (s ++ mark ++ t)) :
    P (precision.clockText micros) := by
  have hhour := number 2 (micros / 1000000 / 3600) (by omega)
  have hminute := join _ _ ":" (.inl rfl) hhour (number 2 (micros / 1000000 / 60 % 60) (by omega))
  have hsecond := join _ _ ":" (.inl rfl) hminute (number 2 (micros / 1000000 % 60) (by omega))
  cases precision with
  | hours => exact hhour
  | minutes => exact hminute
  | seconds => exact hsecond
  | millis =>
    exact join _ _ "." (.inr rfl) hsecond (number 3 (micros % 1000000 / 1000) (by omega))
  | micros => exact join _ _ "." (.inr rfl) hsecond (number 6 (micros % 1000000) (by omega))

/-- What is shown of a time of day. -/
def clock (precision : Precision) (micros : ℤ) : Iso.Clock :=
  let s := micros / microsPerSecond
  let micro := micros % microsPerSecond
  match precision with
  | .hours => ⟨s / 3600, 0, 0, 0⟩
  | .minutes => ⟨s / 3600, s / 60 % 60, 0, 0⟩
  | .seconds => ⟨s / 3600, s / 60 % 60, s % 60, 0⟩
  | .millis => ⟨s / 3600, s / 60 % 60, s % 60, micro / 1000 * 1000⟩
  | .micros => ⟨s / 3600, s / 60 % 60, s % 60, micro⟩

/-- What is shown is the time of day, if that is a multiple of the last part. -/
theorem micros_clock (precision : Precision) {micros : ℤ} (hstep : micros % precision.step = 0) :
    (precision.clock micros).micros = micros := by
  unfold step microsPerSecond at hstep
  unfold clock Iso.Clock.micros microsPerSecond
  cases precision <;> dsimp only at hstep ⊢ <;> omega

/-- What is shown is a time of day. -/
theorem isValid_clock (precision : Precision) {micros : ℤ} (hlt : micros < microsPerDay) :
    (precision.clock micros).isValid = true := by
  unfold microsPerDay secondsPerDay microsPerSecond at hlt
  unfold clock Iso.Clock.isValid microsPerSecond
  cases precision <;> simp only [Bool.and_eq_true, decide_eq_true_eq] <;> omega

/-- The precision that shows a moment: to the second, and to the microsecond if it has a part of a
second. -/
def auto (t : Moment) : Precision := if t.subsecond = 0 then .seconds else .micros

/-- A moment shown to the precision that shows it loses nothing. -/
theorem step_auto (t : Moment) : t.micros % (auto t).step = 0 := by
  unfold auto
  split_ifs with h
  · exact h
  · exact Int.emod_one _

end Precision

namespace Moment

/-- An offset as written, if there is one. -/
def zoneText : Option ℤ → String
  | some ahead => offsetText ahead
  | none => ""

/-- A moment as written: its date, a separator, its time of day and its offset. -/
def isoText (separator : Char) (precision : Precision) (t : Moment) : String :=
  t.day.text ++ String.singleton separator ++ precision.clockText (t.micros % microsPerDay) ++
    zoneText t.ahead

/-- The plain text of a moment is one way of writing it. -/
theorem text_eq_isoText (t : Moment) : t.text = t.isoText ' ' (.auto t) := by
  have hdvd : t.micros % microsPerDay % microsPerSecond = t.subsecond :=
    Int.emod_emod_of_dvd _ (by decide)
  have hseparator : String.singleton ' ' = " " := by decide
  unfold text isoText Precision.auto Precision.clockText
  rw [hdvd, hseparator]
  cases t.ahead <;> split_ifs <;> simp [secondOfDay, zoneText, String.append_assoc]

end Moment

namespace Iso

variable {width : ℕ} {n : ℤ} {cs : List Char}

/-! ## Reading numbers of a width -/

/-- Two digits are read off the front. -/
theorem twoDigits?_of_spells (h : Spells 2 n cs) (rest : List Char) :
    twoDigits? (cs ++ rest) = some (n, rest) := by
  obtain ⟨a, b, rfl⟩ := List.length_eq_two.1 h.length_eq
  show (number? [a, b]).map (·, rest) = _
  rw [h.number]
  rfl

/-- A fraction of at most six digits counts them from the first. -/
theorem fraction?_of_spells (h : Spells width n cs) (hwidth : width ≤ 6) :
    fraction? cs = some (n * 10 ^ (6 - width), false) := by
  have htake : cs.take 6 = cs := List.take_of_length_le (h.length_eq.trans_le hwidth)
  have hdrop : cs.drop 6 = [] := List.drop_of_length_le (h.length_eq.trans_le hwidth)
  rw [fraction?, htake, hdrop, h.number, h.length_eq]
  rfl

/-! ## Reading times of day -/

variable {t : Clock}

/-- The minutes after a colon. -/
theorem readHourTail?_of_spells (h : Spells 2 n cs) (rest : List Char) :
    readHourTail? t (':' :: (cs ++ rest)) = readMinuteTail? true { t with minute := n } rest := by
  have htwo := twoDigits?_of_spells h rest
  obtain ⟨a, b, rfl⟩ := List.length_eq_two.1 h.length_eq
  show (twoDigits? ([a, b] ++ rest)).bind _ = _
  rw [htwo]
  rfl

/-- The seconds after a colon. -/
theorem readMinuteTail?_of_spells (h : Spells 2 n cs) (rest : List Char) :
    readMinuteTail? true t (':' :: (cs ++ rest))
      = readSecondTail? true { t with second := n } rest := by
  have htwo := twoDigits?_of_spells h rest
  obtain ⟨a, b, rfl⟩ := List.length_eq_two.1 h.length_eq
  show (twoDigits? ([a, b] ++ rest)).bind _ = _
  rw [htwo]
  rfl

/-- The fraction after a point. -/
theorem readSecondTail?_of_spells (h : Spells width n cs) (hpos : 0 < width) (hwidth : width ≤ 6) :
    readSecondTail? true t ('.' :: cs)
      = some ({ t with micro := n * 10 ^ (6 - width) }, false) := by
  have hfraction := fraction?_of_spells h hwidth
  cases cs with
  | nil => exact absurd h.length_eq hpos.ne
  | cons c cs =>
    show withFraction? t (c :: cs) = _
    rw [withFraction?, hfraction]
    rfl

/-- The hours come first. -/
theorem readClock?_of_spells (h : Spells 2 n cs) (rest : List Char) :
    readClock? (cs ++ rest) = readHourTail? { hour := n } rest := by
  rw [readClock?, twoDigits?_of_spells h]
  rfl

/-- Hours and minutes between which there is a colon. -/
theorem readClock?_minutes {hour minute : ℤ} {hs ms : List Char} (hhour : Spells 2 hour hs)
    (hminute : Spells 2 minute ms) (rest : List Char) :
    readClock? (hs ++ ':' :: (ms ++ rest)) = readMinuteTail? true ⟨hour, minute, 0, 0⟩ rest := by
  rw [readClock?_of_spells hhour, readHourTail?_of_spells hminute]

/-- Hours, minutes and seconds between colons. -/
theorem readClock?_seconds {hour minute second : ℤ} {hs ms ss : List Char}
    (hhour : Spells 2 hour hs) (hminute : Spells 2 minute ms) (hsecond : Spells 2 second ss)
    (rest : List Char) :
    readClock? (hs ++ ':' :: (ms ++ ':' :: (ss ++ rest)))
      = readSecondTail? true ⟨hour, minute, second, 0⟩ rest := by
  rw [readClock?_minutes hhour hminute, readMinuteTail?_of_spells hsecond]

/-- **A time of day reads back** as far as it is written. -/
theorem readClock?_clockText (precision : Precision) {micros : ℤ} (h : 0 ≤ micros)
    (hlt : micros < microsPerDay) :
    readClock? (precision.clockText micros).toList = some (precision.clock micros, false) := by
  -- the seconds of the day, and the microseconds of the second
  obtain ⟨s, hs⟩ : ∃ s, micros / microsPerSecond = s := ⟨_, rfl⟩
  obtain ⟨r, hr⟩ : ∃ r, micros % microsPerSecond = r := ⟨_, rfl⟩
  have hrest : 0 ≤ r ∧ r < 10 ^ 6 := by
    unfold microsPerSecond at hr
    omega
  have hday : 0 ≤ s ∧ s < 86400 := by
    unfold microsPerSecond at hs
    unfold microsPerDay secondsPerDay microsPerSecond at hlt
    omega
  have hhour := spells_two (show 0 ≤ s / 3600 by omega) (by omega)
  have hminute := spells_two (show 0 ≤ s / 60 % 60 by omega) (by omega)
  have hsecond := spells_two (show 0 ≤ s % 60 by omega) (by omega)
  cases precision with
  | hours =>
    have hread := readClock?_of_spells hhour []
    rw [List.append_nil] at hread
    simpa [Precision.clockText, Precision.clock, hs, readHourTail?] using hread
  | minutes =>
    have hread := readClock?_minutes hhour hminute []
    rw [List.append_nil] at hread
    simpa [Precision.clockText, Precision.clock, hs, readMinuteTail?] using hread
  | seconds =>
    have hread := readClock?_seconds hhour hminute hsecond []
    rw [List.append_nil] at hread
    simpa [Precision.clockText, Precision.clock, hs, readSecondTail?] using hread
  | millis =>
    have hfraction := spells_pad (show 0 < 3 by decide) (show 0 ≤ r / 1000 by omega)
      (show r / 1000 < 10 ^ 3 by omega)
    have hread := readClock?_seconds hhour hminute hsecond ('.' :: (pad 3 (r / 1000)).toList)
    rw [readSecondTail?_of_spells hfraction (by decide) (by decide)] at hread
    simpa [Precision.clockText, Precision.clock, hs, hr] using hread
  | micros =>
    have hfraction := spells_pad (show 0 < 6 by decide) hrest.1 hrest.2
    have hread := readClock?_seconds hhour hminute hsecond ('.' :: (pad 6 r).toList)
    rw [readSecondTail?_of_spells hfraction (by decide) (by decide)] at hread
    simpa [Precision.clockText, Precision.clock, hs, hr] using hread

/-! ## Reading dates -/

/-- A year, a month and a day between hyphens. -/
theorem readDay?_of_spells {y m d : ℤ} {ys ms ds : List Char} (hy : Spells 4 y ys)
    (hm : Spells 2 m ms) (hd : Spells 2 d ds) (hvalid : Calendar.isValid ⟨y, m, d⟩ = true) :
    readDay? (ys ++ '-' :: (ms ++ '-' :: ds)) = some (Calendar.dayOfCivil ⟨y, m, d⟩) := by
  have hread : dayOfMonth? ys ms ds = some (Calendar.dayOfCivil ⟨y, m, d⟩) := by
    rw [dayOfMonth?, hy.number, hm.number, hd.number]
    exact if_pos hvalid
  obtain ⟨m₁, m₂, rfl⟩ := List.length_eq_two.1 hm.length_eq
  obtain ⟨d₁, d₂, rfl⟩ := List.length_eq_two.1 hd.length_eq
  have hmonth : m₁ ≠ 'W' := ne_of_isDigit (hm.digits m₁ List.mem_cons_self) (by decide)
  match ys, hy.length_eq with
  | [y₁, y₂, y₃, y₄], _ =>
    show readDay? [y₁, y₂, y₃, y₄, '-', m₁, m₂, '-', d₁, d₂] = _
    rw [← hread, readDay?]
    simpa using fun h => absurd h hmonth

/-- The date of a text that begins with one has ten characters. -/
theorem dateLength_of_spells {y m d : ℤ} {ys ms ds : List Char} (hy : Spells 4 y ys)
    (hm : Spells 2 m ms) (hd : Spells 2 d ds) (rest : List Char) :
    dateLength (ys ++ '-' :: (ms ++ '-' :: ds) ++ rest) = 10 := by
  obtain ⟨m₁, m₂, rfl⟩ := List.length_eq_two.1 hm.length_eq
  obtain ⟨d₁, d₂, rfl⟩ := List.length_eq_two.1 hd.length_eq
  have hmonth : m₁ ≠ 'W' := ne_of_isDigit (hm.digits m₁ List.mem_cons_self) (by decide)
  match ys, hy.length_eq with
  | [y₁, y₂, y₃, y₄], _ => simp [dateLength, hmonth]

/-- **A date reads back**, if it is one of the calendar in use. -/
theorem readDay?_text {d : Day} (h : Calendar.InUse d.number) (rest : List Char) :
    dateLength (d.text.toList ++ rest) = 10 ∧ d.text.toList.length = 10 ∧
      readDay? d.text.toList = some d.number := by
  have hvalid := Calendar.isValid_civilOfDay h
  obtain ⟨c, hc⟩ : ∃ c, Calendar.civilOfDay d.number = c := ⟨_, rfl⟩
  have hnumber : Calendar.dayOfCivil c = d.number := by
    rw [← hc, Calendar.dayOfCivil_civilOfDay]
  have hbounds := Calendar.civilOfDay_bounds h
  rw [hc] at hvalid hbounds
  have hyear := spells_pad (show 0 < 4 by decide) (show 0 ≤ c.year by omega)
    (show c.year < 10 ^ 4 by omega)
  have hmonth := spells_two (show 0 ≤ c.month by omega) (by omega)
  have hday := spells_two (show 0 ≤ c.day by omega) (by omega)
  have htext : d.text.toList = (pad 4 c.year).toList ++ '-' :: ((pad 2 c.month).toList
      ++ '-' :: (pad 2 c.day).toList) := by
    simp [Day.text, Day.civil, hc]
  rw [htext]
  refine ⟨dateLength_of_spells hyear hmonth hday rest, ?_, ?_⟩
  · simp [hyear.length_eq, hmonth.length_eq, hday.length_eq]
  · rw [readDay?_of_spells hyear hmonth hday hvalid, hnumber]

/-! ## Reading offsets -/

/-- An offset is written as a time of day after its sign, to a precision that loses nothing. -/
theorem exists_offsetText (ahead : ℤ) : ∃ precision : Precision,
    (ahead.natAbs : ℤ) % precision.step = 0 ∧
    Moment.offsetText ahead
      = (if ahead < 0 then "-" else "+") ++ precision.clockText ahead.natAbs := by
  obtain ⟨n, hn⟩ : ∃ n : ℤ, (ahead.natAbs : ℤ) = n := ⟨_, rfl⟩
  rw [hn]
  by_cases hmicro : n % microsPerSecond = 0
  · by_cases hsecond : n / microsPerSecond % 60 = 0
    · refine ⟨.minutes, ?_, ?_⟩
      · unfold microsPerSecond at hmicro hsecond
        show n % (60 * 1000000) = 0
        omega
      · simp [Moment.offsetText, Precision.clockText, hn, hmicro, hsecond, String.append_assoc]
    · refine ⟨.seconds, hmicro, ?_⟩
      simp [Moment.offsetText, Precision.clockText, hn, hmicro, hsecond, String.append_assoc]
  · refine ⟨.micros, Int.emod_one n, ?_⟩
    simp [Moment.offsetText, Precision.clockText, hn, hmicro, String.append_assoc]

/-- **An offset of less than a day reads back.** -/
theorem offset?_offsetText {ahead : ℤ} (h : (ahead.natAbs : ℤ) < microsPerDay) :
    ∃ cs, (Moment.offsetText ahead).toList = (if ahead < 0 then '-' else '+') :: cs ∧
      offset? (ahead < 0) cs = some ahead := by
  obtain ⟨precision, hstep, htext⟩ := exists_offsetText ahead
  have hread := readClock?_clockText precision (Int.natCast_nonneg ahead.natAbs) h
  refine ⟨(precision.clockText ahead.natAbs).toList, ?_, ?_⟩
  · rw [htext, String.toList_append]
    split_ifs <;> rfl
  · have hmicros := precision.micros_clock hstep
    rw [offset?, hread]
    simp only [Option.bind_eq_bind, Option.bind_some, Bool.false_or, decide_eq_true_eq, hmicros,
      if_neg (Int.not_le.2 h)]
    refine congrArg some ?_
    split_ifs <;> omega

/-- A digit does not begin an offset. -/
theorem isOffsetMark_of_isDigit {c : Char} (h : isDigit c = true) : isOffsetMark c = false := by
  rw [isOffsetMark, beq_false_of_ne (ne_of_isDigit h (by decide)),
    beq_false_of_ne (ne_of_isDigit h (by decide)), beq_false_of_ne (ne_of_isDigit h (by decide))]
  rfl

/-- No character of a time of day begins an offset. -/
theorem isOffsetMark_of_mem_clockText (precision : Precision) {micros : ℤ} (h : 0 ≤ micros) :
    ∀ c ∈ (precision.clockText micros).toList, isOffsetMark c = false := by
  refine precision.clockText_induct (P := fun s => ∀ c ∈ s.toList, isOffsetMark c = false) h
    (fun _ _ hn c hc => ?_) ?_
  · exact isOffsetMark_of_isDigit (isDigit_of_mem_pad hn hc)
  · intro s t mark hmark hs ht c hc
    rw [String.toList_append, String.toList_append, List.mem_append, List.mem_append] at hc
    rcases hc with (hc | hc) | hc
    · exact hs c hc
    · rcases hmark with rfl | rfl
      · obtain rfl : c = ':' := List.mem_singleton.1 hc
        decide
      · obtain rfl : c = '.' := List.mem_singleton.1 hc
        decide
    · exact ht c hc

/-- **A time of day and an offset read back.** -/
theorem readTime?_clockText (precision : Precision) {micros : ℤ} (h : 0 ≤ micros)
    (hlt : micros < microsPerDay) (hstep : micros % precision.step = 0) {ahead : Option ℤ}
    (hahead : ∀ a ∈ ahead, (a.natAbs : ℤ) < microsPerDay) :
    readTime? ((precision.clockText micros).toList ++ (Moment.zoneText ahead).toList)
      = some (micros, ahead) := by
  -- the sign of an offset is the first character that ends the time of day
  have hmarks : ∀ c ∈ (precision.clockText micros).toList, (!isOffsetMark c) = true := by
    intro c hc
    rw [isOffsetMark_of_mem_clockText precision h c hc]
    rfl
  have hread := readClock?_clockText precision h hlt
  have hmicros := precision.micros_clock hstep
  have hvalid := precision.isValid_clock hlt
  unfold readTime?
  rw [List.takeWhile_append_of_pos hmarks, List.dropWhile_append_of_pos hmarks]
  cases ahead with
  | none =>
    simp only [Moment.zoneText, String.toList_empty, List.takeWhile_nil, List.dropWhile_nil,
      List.append_nil, hread]
    simp [hmicros, hvalid]
  | some ahead =>
    obtain ⟨cs, htext, hoffset⟩ := offset?_offsetText (hahead ahead rfl)
    have hmark : isOffsetMark (if ahead < 0 then '-' else '+') = true := by
      split_ifs <;> decide
    simp only [Moment.zoneText, htext, List.takeWhile_cons, List.dropWhile_cons, hmark,
      Bool.not_true, Bool.false_eq_true, if_false, List.append_nil, hread]
    by_cases hneg : ahead < 0
    · rw [decide_eq_true hneg] at hoffset
      simp [hneg, hoffset, hmicros, hvalid]
    · rw [decide_eq_false hneg] at hoffset
      simp [hneg, hoffset, hmicros, hvalid]

/-! ## Reading moments -/

/-- **A moment reads back**, if it is one of the calendar in use and is written to a precision that
loses nothing. -/
theorem readMoment?_isoText (separator : Char) (precision : Precision) {t : Moment}
    (h : Calendar.InUse t.day.number) (hstep : t.micros % precision.step = 0)
    (hahead : ∀ a ∈ t.ahead, (a.natAbs : ℤ) < microsPerDay) :
    readMoment? (t.isoText separator precision).toList = some t := by
  have hpos : 0 < microsPerDay := by decide
  have hclock : t.micros % microsPerDay % precision.step = 0 := by
    rw [Int.emod_emod_of_dvd _ precision.step_dvd, hstep]
  have htime := readTime?_clockText precision (Int.emod_nonneg t.micros hpos.ne')
    (Int.emod_lt_of_pos t.micros hpos) hclock hahead
  obtain ⟨rest, hrest⟩ : ∃ rest, (precision.clockText (t.micros % microsPerDay)).toList
      ++ (Moment.zoneText t.ahead).toList = rest := ⟨_, rfl⟩
  obtain ⟨hlength, hten, hday⟩ := readDay?_text h (separator :: rest)
  have htext : (t.isoText separator precision).toList = t.day.text.toList ++ separator :: rest := by
    rw [← hrest, Moment.isoText]
    simp
  rw [hrest] at htime
  rw [htext, readMoment?, hlength, List.take_left' hten, List.drop_left' hten, hday]
  simp only [Option.bind_eq_bind, Option.bind_some, htime]
  have hmicros : t.day.number * microsPerDay + t.micros % microsPerDay = t.micros :=
    Int.ediv_mul_add_emod ..
  rw [hmicros]

/-! ## Between blanks -/

/-- What stands between blanks, and neither begins nor ends with one, is left. -/
theorem strip_append {blank : Char → Bool} {front back cs : List Char}
    (hfront : ∀ c ∈ front, blank c = true) (hback : ∀ c ∈ back, blank c = true)
    {first last : Char} (hfirst : cs.head? = some first) (hlast : cs.getLast? = some last)
    (hbegins : blank first = false) (hends : blank last = false) :
    Text.strip blank (front ++ cs ++ back) = cs := by
  have hdrop : ∀ {l m : List Char} {c : Char}, (∀ c ∈ l, blank c = true) → m.head? = some c →
      blank c = false → (l ++ m).dropWhile blank = m := by
    intro l m c hl hm hc
    rw [List.dropWhile_append_of_pos hl]
    cases m with
    | nil => rfl
    | cons d m =>
      obtain rfl : d = c := Option.some.inj hm
      rw [List.dropWhile_cons, hc, if_neg (by decide)]
  rw [Text.strip, List.append_assoc, hdrop hfront (c := first) ?_ hbegins, List.reverse_append,
    hdrop (fun c hc => hback c (List.mem_reverse.1 hc)) (c := last) ?_ hends, List.reverse_reverse]
  · rw [List.head?_reverse, hlast]
  · rw [List.head?_append, hfirst]
    rfl

/-- A digit is no blank. -/
theorem isBlank_of_isDigit {c : Char} (h : isDigit c = true) : Text.isBlank c = false := by
  have hrange : 48 ≤ c.toNat ∧ c.toNat < 58 := by
    unfold isDigit Text.asciiDigit? at h
    split_ifs at h with hc
    · simpa using hc
    · cases h
  unfold Text.isBlank
  simp only [Bool.or_eq_false_iff, Bool.and_eq_false_iff, decide_eq_false_iff_not,
    beq_eq_false_iff_ne]
  omega

/-- A text begins with a digit and ends with one. -/
structure DigitEnds (s : String) : Prop where
  begins : ∃ c, s.toList.head? = some c ∧ isDigit c = true
  ends : ∃ c, s.toList.getLast? = some c ∧ isDigit c = true

/-- A padded number begins and ends with a digit. -/
theorem digitEnds_pad (width : ℕ) {n : ℤ} (h : 0 ≤ n) : DigitEnds (pad width n) := by
  have hdigits : ∀ c ∈ (pad width n).toList, isDigit c = true := fun _ => isDigit_of_mem_pad h
  have hne : (pad width n).toList ≠ [] := by
    obtain ⟨k, rfl⟩ := Int.eq_ofNat_of_zero_le h
    rw [toList_pad]
    exact List.append_ne_nil_of_right_ne_nil _ (List.ne_nil_of_length_pos Nat.length_toDigits_pos)
  exact ⟨⟨_, List.head?_eq_some_head hne, hdigits _ (List.head_mem hne)⟩,
    ⟨_, List.getLast?_eq_some_getLast hne, hdigits _ (List.getLast_mem hne)⟩⟩

/-- What is put together of texts that begin and end with digits does so too, whatever stands
between them. -/
theorem DigitEnds.append {s t : String} (hs : DigitEnds s) (ht : DigitEnds t) (between : String) :
    DigitEnds (s ++ between ++ t) := by
  obtain ⟨c, hc, hcdigit⟩ := hs.begins
  obtain ⟨d, hd, hddigit⟩ := ht.ends
  refine ⟨⟨c, ?_, hcdigit⟩, ⟨d, ?_, hddigit⟩⟩
  · simp [List.head?_append, hc]
  · simp [List.getLast?_append, hd]

/-- A time of day begins and ends with a digit. -/
theorem digitEnds_clockText (precision : Precision) {micros : ℤ} (h : 0 ≤ micros) :
    DigitEnds (precision.clockText micros) :=
  precision.clockText_induct h (fun width _ => digitEnds_pad width)
    fun _ _ mark _ hs ht => hs.append ht mark

/-- A moment of the calendar in use begins and ends with a digit. -/
theorem digitEnds_isoText (separator : Char) (precision : Precision) {t : Moment}
    (h : Calendar.InUse t.day.number) : DigitEnds (t.isoText separator precision) := by
  obtain ⟨hyear, hmonth, hday⟩ := Calendar.civilOfDay_bounds h
  have hdate : DigitEnds t.day.text :=
    ((digitEnds_pad 4 (by unfold Day.civil; omega)).append
      (digitEnds_pad 2 (by unfold Day.civil; omega)) "-").append
        (digitEnds_pad 2 (by unfold Day.civil; omega)) "-"
  have hclock := hdate.append
    (digitEnds_clockText precision (Int.emod_nonneg t.micros (show microsPerDay ≠ 0 by decide)))
    (String.singleton separator)
  unfold Moment.isoText
  cases t.ahead with
  | none => simpa [Moment.zoneText] using hclock
  | some ahead =>
    obtain ⟨offset, -, htext⟩ := exists_offsetText ahead
    rw [Moment.zoneText, htext, ← String.append_assoc]
    exact hclock.append (digitEnds_clockText offset (Int.natCast_nonneg _)) _

/-- **A moment between blanks reads back.** -/
theorem readStamp?_isoText (separator : Char) (precision : Precision) {t : Moment}
    (h : Calendar.InUse t.day.number) (hstep : t.micros % precision.step = 0)
    (hahead : ∀ a ∈ t.ahead, (a.natAbs : ℤ) < microsPerDay) {front back : String}
    (hfront : ∀ c ∈ front.toList, Text.isBlank c = true)
    (hback : ∀ c ∈ back.toList, Text.isBlank c = true) :
    readStamp? (front ++ t.isoText separator precision ++ back) = some t := by
  obtain ⟨⟨c, hc, hcdigit⟩, ⟨d, hd, hddigit⟩⟩ := digitEnds_isoText separator precision h
  have hstrip : Text.strip Text.isBlank (front ++ t.isoText separator precision ++ back).toList
      = (t.isoText separator precision).toList := by
    rw [String.toList_append, String.toList_append]
    exact strip_append hfront hback hc hd (isBlank_of_isDigit hcdigit) (isBlank_of_isDigit hddigit)
  have hletter : (d == 'Z' || d == 'z') = false := by
    rw [beq_false_of_ne (ne_of_isDigit hddigit (by decide)),
      beq_false_of_ne (ne_of_isDigit hddigit (by decide))]
    rfl
  rw [readStamp?, hstrip, hd]
  show (if d == 'Z' || d == 'z' then _ else readMoment? _) = _
  rw [hletter, if_neg (by decide), readMoment?_isoText separator precision h hstep hahead]

/-- **A moment without offset reads back as one of the offset zero**, if the letter `Z` follows. -/
theorem readStamp?_isoText_zulu (separator : Char) (precision : Precision) {t : Moment}
    (hnone : t.ahead = none) (h : Calendar.InUse t.day.number)
    (hstep : t.micros % precision.step = 0) {letter : Char} (hletter : letter = 'Z' ∨ letter = 'z')
    {front back : String} (hfront : ∀ c ∈ front.toList, Text.isBlank c = true)
    (hback : ∀ c ∈ back.toList, Text.isBlank c = true) :
    readStamp? (front ++ (t.isoText separator precision ++ String.singleton letter) ++ back)
      = some ⟨t.micros, some 0⟩ := by
  obtain ⟨⟨c, hc, hcdigit⟩, -⟩ := digitEnds_isoText separator precision h
  have hcore : (t.isoText separator precision ++ String.singleton letter).toList
      = (t.isoText separator precision).toList ++ [letter] := by
    rw [String.toList_append, String.toList_singleton]
  have hblank : Text.isBlank letter = false := by
    rcases hletter with rfl | rfl <;> decide
  have hstrip : Text.strip Text.isBlank
      (front ++ (t.isoText separator precision ++ String.singleton letter) ++ back).toList
      = (t.isoText separator precision).toList ++ [letter] := by
    rw [String.toList_append, String.toList_append, hcore]
    refine strip_append hfront hback ?_ List.getLast?_concat (isBlank_of_isDigit hcdigit) hblank
    rw [List.head?_append, hc]
    rfl
  -- the letter gives way to the offset that it stands for
  have hzone : (t.isoText separator precision).toList ++ "+00:00".toList
      = (Moment.isoText separator precision ⟨t.micros, some 0⟩).toList := by
    have hzero : Moment.offsetText 0 = "+00:00" := by decide +kernel
    rw [Moment.isoText, hnone, Moment.isoText, Moment.zoneText, Moment.zoneText, hzero,
      String.append_empty, ← String.toList_append]
    rfl
  have hz : (letter == 'Z' || letter == 'z') = true := by
    rcases hletter with rfl | rfl <;> decide
  rw [readStamp?, hstrip, List.getLast?_concat]
  show (if letter == 'Z' || letter == 'z'
    then readMoment? (((t.isoText separator precision).toList ++ [letter]).dropLast
      ++ "+00:00".toList) else _) = _
  rw [hz, if_pos rfl, List.dropLast_concat, hzone]
  refine readMoment?_isoText separator precision h hstep ?_
  rintro a ⟨⟩
  decide

end Iso

end LiveChart
