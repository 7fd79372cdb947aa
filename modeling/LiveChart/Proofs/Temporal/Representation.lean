import LiveChart.Proofs.Temporal.Millis
import LiveChart.Proofs.Time.IsoText
import LiveChart.Temporal.Window
/-!
# Representations of an instant

An instant that is a whole number of milliseconds can be given in many ways: as the number, as a
moment of any offset, as a day or a tick that begins at it, and as a text.  Whatever the way, the
time that is read is the number of milliseconds, exactly.

* `Denotes` : the values that stand for an instant;
* `epochMillis_of_denotes` : the time that is read from each.
-/

namespace LiveChart

/-- The values that stand for the instant of a whole number of milliseconds since 1970. -/
inductive Denotes (n : ℤ) : Value → Prop where
  | int : Denotes n (.int n)
  | fixedInt (width : IntWidth) : Denotes n (.scalar (.fixedInt width n))
  /-- A moment on the clock of any offset, or without one in UTC. -/
  | moment {t : Moment} (h : t.instant = n * 1000) : Denotes n (.scalar (.moment t))
  /-- A day that begins at the instant. -/
  | day {d : Day} (h : d.number * microsPerDay = n * 1000) : Denotes n (.scalar (.day d))
  /-- A tick of any unit that begins at the instant. -/
  | tick {unit : TickUnit} {count : ℤ} (h : Tick.picosOf unit count = n * 10 ^ 9) :
      Denotes n (.scalar (.tick ⟨unit, some count⟩))
  /-- A moment of the calendar in use, written with its offset if it has one, between blanks. -/
  | iso {t : Moment} (h : t.instant = n * 1000) (hday : Calendar.InUse t.day.number)
      (hahead : ∀ a ∈ t.ahead, (a.natAbs : ℤ) < microsPerDay) (separator : Char)
      {precision : Precision} (hstep : t.micros % precision.step = 0) {front back : String}
      (hfront : ∀ c ∈ front.toList, Text.isBlank c = true)
      (hback : ∀ c ∈ back.toList, Text.isBlank c = true) :
      Denotes n (.text (front ++ t.isoText separator precision ++ back))
  /-- A moment in UTC, written with the letter `Z` after it, between blanks. -/
  | zulu {t : Moment} (hnone : t.ahead = none) (h : t.instant = n * 1000)
      (hday : Calendar.InUse t.day.number) (separator : Char) {precision : Precision}
      (hstep : t.micros % precision.step = 0) {letter : Char}
      (hletter : letter = 'Z' ∨ letter = 'z') {front back : String}
      (hfront : ∀ c ∈ front.toList, Text.isBlank c = true)
      (hback : ∀ c ∈ back.toList, Text.isBlank c = true) :
      Denotes n
        (.text (front ++ (t.isoText separator precision ++ String.singleton letter) ++ back))

/-- A count of less than 63 bits is held by a word as it is. -/
theorem Tick.word_eq {n : ℤ} (h : n.natAbs < 2 ^ 63) : Tick.word n = n :=
  Int.bmod_eq_of_le (by omega) (by omega)

/-- A number of milliseconds in the calendar in use has at most 52 bits. -/
theorem natAbs_le_of_inCalendar {n : ℤ} (h : firstMicros ≤ n * 1000) (hlt : n * 1000 < endMicros) :
    n.natAbs ≤ 2 ^ 52 := by
  have hfirst : firstMicros = -62135596800000000 := by decide
  have hlast : endMicros = 253402300800000000 := by decide
  omega

/-- **Every value that stands for an instant has the instant's number of milliseconds as its time**,
exactly, if the instant is one of the calendar in use. -/
theorem epochMillis_of_denotes {n : ℤ} (h : firstMicros ≤ n * 1000) (hlt : n * 1000 < endMicros)
    {v : Value} (hv : Denotes n v) :
    epochMillis v = .ok (some (Double.ofIntSaturating n)) ∧
      (Double.ofIntSaturating n).whole? = some n := by
  have hbits := natAbs_le_of_inCalendar h hlt
  have hmillis : ∀ {t : Moment}, t.instant = n * 1000 → t.millis = Double.ofIntSaturating n :=
    fun ht => by rw [Moment.millis, ht, millisOfMicros_mul_thousand hbits]
  have hwhole := Double.ofInt?_eq_some (show n.natAbs ≤ 2 ^ 53 by omega)
  refine ⟨?_, Double.whole?_ofIntSaturating (by omega)⟩
  cases hv with
  | int | fixedInt =>
    unfold epochMillis
    simp only [hwhole]
  | @moment t ht =>
    show Except.ok (some t.millis) = _
    rw [hmillis ht]
  | @day d hd =>
    have hinstant : Moment.instant ⟨d.number * microsPerDay, none⟩ = n * 1000 := by
      rw [← hd]
      exact Int.sub_zero _
    show Except.ok (some (Moment.millis ⟨d.number * microsPerDay, none⟩)) = _
    rw [hmillis hinstant]
  | @tick unit count hcount =>
    have hcounted : Tick.millis? ⟨unit, some count⟩ = some n := by
      show some (Tick.word (Tick.picosOf unit count / 10 ^ 9)) = _
      rw [hcount, Int.mul_ediv_cancel _ (by decide), Tick.word_eq (by omega)]
    show Except.ok ((Tick.millis? ⟨unit, some count⟩).map Double.ofIntSaturating) = _
    rw [hcounted]
    rfl
  | iso ht hday hahead separator hstep hfront hback =>
    show Except.ok ((Iso.readStamp? _).map Moment.millis) = _
    rw [Iso.readStamp?_isoText separator _ hday hstep hahead hfront hback, Option.map_some,
      hmillis ht]
  | @zulu t hnone ht hday separator precision hstep letter hletter front back hfront hback =>
    -- the letter stands for an offset of zero, which moves nothing
    have hinstant : Moment.instant ⟨t.micros, some 0⟩ = n * 1000 := by
      rw [← ht, Moment.instant, Moment.instant, hnone]
      rfl
    show Except.ok ((Iso.readStamp? _).map Moment.millis) = _
    rw [Iso.readStamp?_isoText_zulu separator _ hnone hday hstep hletter hfront hback,
      Option.map_some, hmillis hinstant]

/-- The plain text of a moment stands for its instant. -/
theorem denotes_text {n : ℤ} {t : Moment} (h : t.instant = n * 1000)
    (hday : Calendar.InUse t.day.number) (hahead : ∀ a ∈ t.ahead, (a.natAbs : ℤ) < microsPerDay) :
    Denotes n (.text t.text) := by
  have hnoBlank : ∀ c ∈ "".toList, Text.isBlank c = true := fun _ hc => absurd hc List.not_mem_nil
  have hiso := Denotes.iso h hday hahead ' ' (Precision.step_auto t) hnoBlank hnoBlank
  rwa [String.empty_append, String.append_empty, ← t.text_eq_isoText] at hiso

/-- The last millisecond before 1970, on a clock that shows the next morning. -/
theorem epochMillis_beforeDawn :
    epochMillis (.text " 1970-01-01T05:29:59.999+05:30 ")
        = .ok (some (Double.ofIntSaturating (-1))) ∧
      (Double.ofIntSaturating (-1)).whole? = some (-1) := by
  have htext : " 1970-01-01T05:29:59.999+05:30 "
      = " " ++ Moment.isoText 'T' .millis ⟨19799999000, some 19800000000⟩ ++ " " := by
    decide +kernel
  have hblank : ∀ c ∈ " ".toList, Text.isBlank c = true := by
    intro c hc
    obtain rfl : c = ' ' := List.mem_singleton.1 hc
    decide
  rw [htext]
  refine epochMillis_of_denotes (by decide) (by decide)
    (.iso (by decide) (by unfold Calendar.InUse; decide) ?_ 'T' (by decide) hblank hblank)
  rintro a ⟨⟩
  decide

end LiveChart
