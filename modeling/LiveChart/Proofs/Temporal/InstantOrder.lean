import LiveChart.Proofs.Temporal.Representation
import LiveChart.Proofs.Time.StampRange
import LiveChart.Proofs.Value.KeyEquality
/-!
# The order of instants

Moments, days, ticks and texts stand for instants.  The time of a moment, of a day and of a text is
put together of its seconds, exactly, and the rest, rounded, and the sum is rounded once more; the
time of a tick is the millisecond that the tick lies in.  Both keep the order of instants, and
together they keep it too, unless an instant that is read as a tick lies within a millisecond and the
other, which is not, is earlier in the same millisecond.

* `unitsOfMicros` : what the time of an instant is rounded from, and `unitsOfMicros_mono`;
* `order_millisOfMicros` : the place of the time of an instant;
* `StandsFor` : the values that stand for an instant;
* `StandsFor.exists_time` : the time that is read from each;
* `epochMillis_mono` : the times of values keep the order of their instants.
-/

namespace LiveChart

/-! ## Instants in milliseconds -/

/-- The units of the milliseconds of a part of a second, as they are rounded. -/
def unitsOfPart (part : ℤ) : ℤ := ((Double.ofIntSaturating part).div (.ofNat 1000)).order

/-- The units of the milliseconds of an instant, before the last rounding. -/
def unitsOfMicros (micros : ℤ) : ℤ :=
  micros / microsPerSecond * 1000 * one + unitsOfPart (micros % microsPerSecond)

/-- A longer part of a second has no fewer milliseconds. -/
theorem unitsOfPart_mono {p q : ℤ} (hp : 0 ≤ p) (h : p ≤ q) (hq : q ≤ microsPerSecond) :
    unitsOfPart p ≤ unitsOfPart q := by
  obtain ⟨k, rfl⟩ := Int.eq_ofNat_of_zero_le hp
  obtain ⟨l, rfl⟩ := Int.eq_ofNat_of_zero_le (hp.trans h)
  have hl : l ≤ 10 ^ 6 := by
    unfold microsPerSecond at hq
    omega
  have hkl : k ≤ l := by omega
  have hround : binary64.round (k * one) 1000 ≤ binary64.round (l * one) 1000 :=
    binary64.round_mono (by decide) (Nat.mul_le_mul_right _ hkl)
  show ((Double.ofNat k).div (.ofNat 1000)).order ≤ ((Double.ofNat l).div (.ofNat 1000)).order
  rw [ofNat_div_thousand (by omega), ofNat_div_thousand (by omega), Double.order_ofRatio,
    Double.order_ofRatio]
  exact Int.ofNat_le.2 (min_le_min_right _ hround)

/-- A part of a second that is a whole number of milliseconds is exact. -/
theorem unitsOfPart_mul_thousand {n : ℤ} (h : n.natAbs ≤ 1000) :
    unitsOfPart (n * 1000) = n * one := by
  have hthousand : Double.ofNat 1000 = Double.ofIntSaturating 1000 := rfl
  rw [unitsOfPart, hthousand,
    Double.ofIntSaturating_div (by omega) (by decide) (by decide) (by omega),
    Double.order_ofIntSaturating (by omega)]

/-- **A later instant has no fewer milliseconds.** -/
theorem unitsOfMicros_mono {i j : ℤ} (h : i ≤ j) : unitsOfMicros i ≤ unitsOfMicros j := by
  have hpos : (0 : ℤ) < microsPerSecond := by decide
  have hpart := Int.emod_nonneg i hpos.ne'
  have hpart' := Int.emod_nonneg j hpos.ne'
  have hlt := Int.emod_lt_of_pos i hpos
  have hlt' := Int.emod_lt_of_pos j hpos
  have hi := Int.mul_ediv_add_emod i microsPerSecond
  have hj := Int.mul_ediv_add_emod j microsPerSecond
  unfold unitsOfMicros
  rcases (Int.ediv_le_ediv hpos h).eq_or_lt with heq | hless
  · -- within one second the parts are ordered as the instants
    have hle : i % microsPerSecond ≤ j % microsPerSecond := by
      rw [heq] at hi
      omega
    rw [heq]
    exact Int.add_le_add_left (unitsOfPart_mono hpart hle hlt'.le) _
  · -- a part of a second is no more than a second, which is a thousand milliseconds
    have hsecond : unitsOfPart microsPerSecond = 1000 * one :=
      unitsOfPart_mul_thousand (n := 1000) (by decide)
    have hzero : unitsOfPart 0 = 0 * one := unitsOfPart_mul_thousand (n := 0) (by decide)
    have hbelow := unitsOfPart_mono hpart hlt.le le_rfl
    have habove := unitsOfPart_mono le_rfl hpart' hlt'.le
    have hone : (0 : ℤ) < one := Int.natCast_pos.2 one_pos
    have hnext : (i / microsPerSecond + 1) * (1000 * one)
        ≤ j / microsPerSecond * (1000 * one) :=
      Int.mul_le_mul_of_nonneg_right hless (by omega)
    rw [Int.add_mul, Int.one_mul] at hnext
    rw [Int.mul_assoc, Int.mul_assoc]
    omega

/-- A whole number of milliseconds is exact. -/
theorem unitsOfMicros_mul_thousand (n : ℤ) : unitsOfMicros (n * 1000) = n * one := by
  have hseconds : n * 1000 / microsPerSecond = n / 1000 := by
    unfold microsPerSecond
    omega
  have hrest : n * 1000 % microsPerSecond = n % 1000 * 1000 := by
    unfold microsPerSecond
    omega
  have hsum : n / 1000 * 1000 + n % 1000 = n := by omega
  rw [unitsOfMicros, hseconds, hrest, unitsOfPart_mul_thousand (by omega), ← Int.add_mul, hsum]

/-- **The time of an instant stands where its milliseconds are rounded to**, if its seconds are
few enough to be exact. -/
theorem order_millisOfMicros {micros : ℤ} (h : micros.natAbs ≤ 9 * 10 ^ 18) :
    (millisOfMicros micros).order = Double.rounded (unitsOfMicros micros) := by
  have hpos : (0 : ℤ) < microsPerSecond := by decide
  have hthousand : Double.ofNat 1000 = Double.ofIntSaturating 1000 := rfl
  have hseconds : (micros / microsPerSecond * 1000).natAbs ≤ 2 ^ 53 := by
    unfold microsPerSecond
    omega
  have hfinite : (Double.ofIntSaturating (micros / microsPerSecond * 1000)).isFinite = true := by
    rw [Double.ofIntSaturating_eq hseconds]
    rfl
  have hpart := isFinite_div_thousand (Int.emod_nonneg micros hpos.ne')
    (Int.emod_lt_of_pos micros hpos)
  have hproduct : (Double.ofIntSaturating (micros / microsPerSecond)).mul (.ofNat 1000)
      = Double.ofIntSaturating (micros / microsPerSecond * 1000) := by
    rw [hthousand]
    exact Double.ofIntSaturating_mul (by omega) (by decide) (by decide) hseconds
  rw [millisOfMicros, hproduct, Double.order_add hfinite hpart,
    Double.order_ofIntSaturating hseconds]
  rfl

/-! ## Values that stand for instants -/

/-- Whether a value is a tick. -/
def Value.isTick : Value → Bool
  | .scalar s => s.isTick
  | _ => false

/-- The values that stand for an instant, in microseconds since 1970. -/
inductive StandsFor (i : ℤ) : Value → Prop where
  /-- A moment on the clock of any offset, or without one in UTC. -/
  | moment {t : Moment} (h : t.instant = i) (hday : Calendar.InUse t.day.number)
      (hahead : ∀ a ∈ t.ahead, (a.natAbs : ℤ) < microsPerDay) : StandsFor i (.scalar (.moment t))
  /-- A day that begins at the instant. -/
  | day {d : Day} (h : d.number * microsPerDay = i) (hday : Calendar.InUse d.number) :
      StandsFor i (.scalar (.day d))
  /-- A tick of any unit that begins at the instant, whose milliseconds a word can hold. -/
  | tick {unit : TickUnit} {count : ℤ} (h : Tick.picosOf unit count = i * 10 ^ 6)
      (hword : (i / 1000).natAbs < 2 ^ 63) : StandsFor i (.scalar (.tick ⟨unit, some count⟩))
  /-- A text that a moment is read from. -/
  | text {s : String} {t : Moment} (hread : Iso.readStamp? s = some t) (h : t.instant = i) :
      StandsFor i (.text s)

/-- The instants of the calendar in use have few enough seconds, on the clocks of all offsets. -/
theorem natAbs_instant_le {t : Moment} (hday : Calendar.InUse t.day.number)
    (hahead : ∀ a ∈ t.ahead, (a.natAbs : ℤ) < microsPerDay) :
    t.instant.natAbs ≤ 9 * 10 ^ 18 := by
  obtain ⟨micros, ahead⟩ := t
  have hoffset : (ahead.getD 0).natAbs < 86400000000 := by
    cases ahead with
    | none => decide
    | some a =>
      have ha := hahead a rfl
      unfold microsPerDay secondsPerDay microsPerSecond at ha
      exact_mod_cast ha
  rw [Moment.day, Calendar.inUse_iff] at hday
  dsimp only [Moment.instant] at hday ⊢
  unfold microsPerDay secondsPerDay microsPerSecond at hday
  omega

/-- The instant that is read from a value: of a tick, the beginning of the millisecond that it lies
in. -/
def readMicros (v : Value) (i : ℤ) : ℤ := if v.isTick then i / 1000 * 1000 else i

/-- **The time that is read from a value** that stands for an instant. -/
theorem StandsFor.exists_time {i : ℤ} {v : Value} (h : StandsFor i v) :
    ∃ x, epochMillis v = .ok (some x) ∧
      x.order = Double.rounded (unitsOfMicros (readMicros v i)) := by
  cases h with
  | @moment t ht hday hahead =>
    refine ⟨t.millis, rfl, ?_⟩
    rw [Moment.millis, order_millisOfMicros (natAbs_instant_le hday hahead), ht]
    rfl
  | @day d hd hday =>
    have hinstant : Moment.instant ⟨d.number * microsPerDay, none⟩ = i := by
      rw [← hd]
      exact Int.sub_zero _
    have hfew : i.natAbs ≤ 9 * 10 ^ 18 := by
      rw [Calendar.inUse_iff] at hday
      unfold microsPerDay secondsPerDay microsPerSecond at hd
      omega
    refine ⟨d.millis, rfl, ?_⟩
    rw [Day.millis, Moment.millis, hinstant, order_millisOfMicros hfew]
    rfl
  | @tick unit count hcount hword =>
    -- a tick is cut to whole milliseconds, and their number is not rounded
    have hmillis : Tick.picosOf unit count / 10 ^ 9 = i / 1000 := by
      rw [hcount]
      omega
    have hcounted : Tick.millis? ⟨unit, some count⟩ = some (i / 1000) := by
      show some (Tick.word (Tick.picosOf unit count / 10 ^ 9)) = _
      rw [hmillis, Tick.word_eq hword]
    refine ⟨Double.ofIntSaturating (i / 1000), ?_, ?_⟩
    · show Except.ok ((Tick.millis? ⟨unit, some count⟩).map Double.ofIntSaturating) = _
      rw [hcounted]
      rfl
    · have hread : readMicros (.scalar (.tick ⟨unit, some count⟩)) i = i / 1000 * 1000 := rfl
      rw [hread, unitsOfMicros_mul_thousand, Double.ofIntSaturating, Double.order_ofUnits]
  | @text s t hread ht =>
    obtain ⟨hday, hahead⟩ := Iso.readStamp?_inUse hread
    refine ⟨t.millis, ?_, ?_⟩
    · show Except.ok ((Iso.readStamp? s).map Moment.millis) = _
      rw [hread]
      rfl
    · rw [Moment.millis, order_millisOfMicros (natAbs_instant_le hday hahead), ht]
      rfl

/-- **The times of values keep the order of their instants**: if one stands for an instant that is
not later than that of another, its time is not later.  This is so of values of all kinds, but for a
tick that lies within a millisecond and another value, no tick, that is earlier than it in the same
millisecond. -/
theorem epochMillis_mono {i j : ℤ} {v w : Value} (hv : StandsFor i v) (hw : StandsFor j w)
    (h : i ≤ j) (htick : w.isTick = true → v.isTick = true ∨ i ≤ j / 1000 * 1000) :
    ∃ x y, epochMillis v = .ok (some x) ∧ epochMillis w = .ok (some y) ∧ x.le y = true := by
  have hread : readMicros v i ≤ readMicros w j := by
    unfold readMicros
    split_ifs with hfirst hsecond hsecond
    · omega
    · omega
    · exact (htick hsecond).resolve_left hfirst
    · exact h
  obtain ⟨x, hx, hxorder⟩ := hv.exists_time
  obtain ⟨y, hy, hyorder⟩ := hw.exists_time
  refine ⟨x, y, hx, hy, ?_⟩
  rw [Double.le_iff_order (isNaN_of_epochMillis hx) (isNaN_of_epochMillis hy), hxorder, hyorder]
  exact Double.rounded_mono (unitsOfMicros_mono hread)

/-- A text of twelve tenths of a millisecond, and a tick within the third millisecond. -/
theorem epochMillis_mono_withinMilli :
    (StandsFor 1200 (.text "1970-01-01T00:00:00.001200") ∧
        StandsFor 2500 (.scalar (.tick ⟨.micro, some 2500⟩)) ∧ (1200 : ℤ) ≤ 2500 ∧
        ((Value.scalar (.tick ⟨.micro, some 2500⟩)).isTick = true →
          (Value.text "1970-01-01T00:00:00.001200").isTick = true ∨
            (1200 : ℤ) ≤ 2500 / 1000 * 1000)) ∧
      ∃ x y, epochMillis (.text "1970-01-01T00:00:00.001200") = .ok (some x) ∧
        epochMillis (.scalar (.tick ⟨.micro, some 2500⟩)) = .ok (some y) ∧ x.le y = true := by
  have hread : Iso.readStamp? "1970-01-01T00:00:00.001200" = some ⟨1200, none⟩ := by
    decide +kernel
  have hfirst : StandsFor 1200 (.text "1970-01-01T00:00:00.001200") := .text hread rfl
  have hsecond : StandsFor 2500 (.scalar (.tick ⟨.micro, some 2500⟩)) :=
    .tick (by decide) (by decide)
  have hlate : (1200 : ℤ) ≤ 2500 / 1000 * 1000 := by decide
  exact ⟨⟨hfirst, hsecond, by decide, fun _ => .inr hlate⟩,
    epochMillis_mono hfirst hsecond (by decide) fun _ => .inr hlate⟩

/-- A moment of twelve tenths of a millisecond is read as later than a tick of fifteen tenths. -/
theorem epochMillis_inverted :
    StandsFor 1200 (.scalar (.moment ⟨1200, none⟩)) ∧
      StandsFor 1500 (.scalar (.tick ⟨.micro, some 1500⟩)) ∧ (1200 : ℤ) ≤ 1500 ∧
      ¬∃ x y, epochMillis (.scalar (.moment ⟨1200, none⟩)) = .ok (some x) ∧
        epochMillis (.scalar (.tick ⟨.micro, some 1500⟩)) = .ok (some y) ∧ x.le y = true := by
  refine ⟨.moment rfl ?_ (fun _ ha => nomatch ha), .tick (by decide) (by decide), by decide, ?_⟩
  · unfold Calendar.InUse
    decide
  · have hfirst : epochMillis (.scalar (.moment ⟨1200, none⟩))
        = .ok (some (millisOfMicros 1200)) := rfl
    have hsecond : epochMillis (.scalar (.tick ⟨.micro, some 1500⟩))
        = .ok (some (Double.ofIntSaturating 1)) := rfl
    have hinverted : (millisOfMicros 1200).le (Double.ofIntSaturating 1) = false := by
      decide +kernel
    rintro ⟨x, y, hx, hy, hle⟩
    rw [hfirst] at hx
    rw [hsecond] at hy
    obtain rfl := Option.some.inj (Except.ok.inj hx)
    obtain rfl := Option.some.inj (Except.ok.inj hy)
    exact Bool.false_ne_true (hinverted.symm.trans hle)

end LiveChart
