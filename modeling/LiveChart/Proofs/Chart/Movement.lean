import LiveChart.Proofs.Chart.Readings
import LiveChart.Proofs.Number.Difference
import Mathlib.Data.List.Find
/-!
# The last movement of a value

A chart of a single value shows the last reading of a field and how it came to be: what it was
before, by how much it differs from the latest reading that was another, and in which direction.
That change is found between neighbours, walking back over the readings that are equal to the last.

* `lastOther` : the latest reading that differs from the last one;
* `lastChange_cons` : the last change of neighbours is the difference from it;
* `IsLimit` : the limits of a history;
* `Summary.Describes` : what a summary says about readings;
* `summarize_describes` : the summary of a field describes its readings, and a row that repeats the
  last one changes neither the value nor its movement.
-/

namespace LiveChart

/-! ## The last change -/

/-- The latest number before the last one that differs from it. -/
def lastOther (xs : List Double) : Option Double := do
  let x ← xs.getLast?
  xs.dropLast.reverse.find? fun w => !x.same w

/-- The latest other number, of numbers that are followed by one more. -/
theorem lastOther_concat (xs : List Double) (x : Double) :
    lastOther (xs ++ [x]) = xs.reverse.find? fun w => !x.same w := by
  rw [lastOther, List.getLast?_concat, List.dropLast_concat]
  rfl

/-- Equal numbers are equal to the same numbers. -/
theorem same_congr {x y w : Double} (hx : x.isFinite = true) (hy : y.isFinite = true)
    (hw : w.isFinite = true) (h : x.same y = true) : x.same w = y.same w := by
  rw [Double.same_iff_of_isFinite hx hy] at h
  rw [Bool.eq_iff_iff, Double.same_iff_of_isFinite hx hw, Double.same_iff_of_isFinite hy hw, h]

/-- Equal numbers differ by the same from a number that is another. -/
theorem sub_congr {x y w : Double} (hx : x.isFinite = true) (hy : y.isFinite = true)
    (hw : w.isFinite = true) (h : x.same y = true) (hne : x.same w = false) :
    x.sub w = y.sub w :=
  Double.sub_eq_sub hx hy hw ((Double.same_iff_of_isFinite hx hy).1 h)
    ((Double.same_eq_false_iff hx hw).1 hne)

section Change

variable {x y : Double} {l : List Double}

/-- Equal numbers have the same latest other number. -/
theorem find?_same_congr (hx : x.isFinite = true) (hy : y.isFinite = true)
    (hl : ∀ w ∈ l, w.isFinite = true) (h : x.same y = true) :
    (l.find? fun w => !x.same w) = l.find? fun w => !y.same w := by
  refine List.find?_congr fun w hw => ?_
  rw [same_congr hx hy (hl w hw) h]

/-- Equal numbers differ by the same from their latest other number. -/
theorem map_sub_congr (hx : x.isFinite = true) (hy : y.isFinite = true)
    (hl : ∀ w ∈ l, w.isFinite = true) (h : x.same y = true) :
    (l.find? fun w => !x.same w).map x.sub = (l.find? fun w => !y.same w).map y.sub := by
  rw [← find?_same_congr hx hy hl h]
  cases hfound : l.find? fun w => !x.same w with
  | none => rfl
  | some w =>
    have hne : x.same w = false := by simpa using List.find?_some hfound
    exact congrArg some (sub_congr hx hy (hl w (List.mem_of_find?_eq_some hfound)) h hne)

/-- **The last change of neighbours is the difference from the latest other number.**  The latest
number comes first here. -/
theorem lastChange_cons (hx : x.isFinite = true) (hl : ∀ w ∈ l, w.isFinite = true) :
    lastChange (x :: l) = (l.find? fun w => !x.same w).map x.sub := by
  induction l generalizing x with
  | nil => rfl
  | cons y l ih =>
    obtain ⟨hy, hl⟩ := List.forall_mem_cons.1 hl
    rw [lastChange]
    by_cases h : x.same y = true
    · -- the walk goes on from an equal number
      rw [if_pos h, ih hy hl, List.find?_cons_of_neg (by simp [h]), map_sub_congr hx hy hl h]
    · rw [if_neg h, List.find?_cons_of_pos (by simp [h])]
      rfl

end Change

/-! ## The trend -/

/-- The direction from one number to a later one. -/
def Trend.between (earlier later : Double) : Trend :=
  if earlier.lt later then .up else if later.lt earlier then .down else .stable

/-- Equal numbers lie in the same direction. -/
theorem Trend.between_congr {x y w : Double} (hx : x.isFinite = true) (hy : y.isFinite = true)
    (hw : w.isFinite = true) (h : x.same y = true) : Trend.between w x = Trend.between w y := by
  rw [Double.same_iff_of_isFinite hx hy] at h
  simp only [Trend.between, Double.lt_iff_of_isFinite hw hx, Double.lt_iff_of_isFinite hw hy,
    Double.lt_iff_of_isFinite hx hw, Double.lt_iff_of_isFinite hy hw, h]

/-- **The direction of a change is that from the other number to the last.** -/
theorem trendOf_sub {x w : Double} (hx : x.isFinite = true) (hw : w.isFinite = true)
    (hne : x.same w = false) : trendOf (some (x.sub w)) = Trend.between w x := by
  have hzero : ¬(x.sub w).isZero = true := by
    rw [Double.isZero_sub_iff hx hw, hne]
    decide
  have hup := Double.zero_lt_sub_iff hx hw
  have hdown : ¬w.lt x = true → x.lt w = true := by
    rw [Double.lt_iff_of_isFinite hw hx, Double.lt_iff_of_isFinite hx hw]
    have hdiffer := (Double.same_eq_false_iff hx hw).1 hne
    omega
  unfold trendOf Trend.between
  dsimp only
  rw [if_neg hzero]
  by_cases h : w.lt x = true
  · rw [if_pos (hup.2 h), if_pos h]
  · rw [if_neg fun hpos => h (hup.1 hpos), if_neg h, if_pos (hdown h)]

/-! ## Histories -/

/-- The limits of a history: a whole number that is not below zero, in any width that has a sign, or
a truth value in the place of one or zero.  In a width without sign a number has no opposite from
which the history could be counted. -/
inductive IsLimit : Value → ℕ → Prop where
  | whole (k : ℕ) : IsLimit (.int k) k
  | flag (b : Bool) : IsLimit (.bool b) b.toNat
  | fixed {w : IntWidth} {k : ℕ} (hsign : w.isSigned = true) (hk : k < 2 ^ (w.bits - 1)) :
    IsLimit (.scalar (.fixedInt w k)) k

/-- A number in a width that has a sign has its opposite there. -/
theorem IntWidth.wrap_neg {w : IntWidth} {k : ℕ} (hsign : w.isSigned = true)
    (hk : k < 2 ^ (w.bits - 1)) : w.wrap (-k) = -k := by
  have hbounds : -(((2 ^ w.bits : ℕ) : ℤ) / 2) ≤ -(k : ℤ) ∧
      -(k : ℤ) < (((2 ^ w.bits : ℕ) : ℤ) + 1) / 2 := by
    cases w <;> simp only [IntWidth.bits, Nat.reduceSub, Nat.reducePow] at hk ⊢ <;> omega
  rw [wrap, if_pos hsign]
  exact Int.bmod_eq_of_le hbounds.1 hbounds.2

namespace IsLimit

variable {limit : Value} {k : ℕ}

/-- A limit is not below zero. -/
theorem isNegative (h : IsLimit limit k) : limit.isNegative = .ok false := by
  cases h with
  | whole => exact congrArg Except.ok (decide_eq_false (by omega))
  | flag => rfl
  | fixed => exact congrArg Except.ok (decide_eq_false (by omega))

/-- A limit is true unless it is zero. -/
theorem truth (h : IsLimit limit k) : limit.truth = .ok (k != 0) := by
  have hcast : ((k : ℤ) != 0) = (k != 0) := by simp [bne]
  cases h with
  | whole => exact congrArg Except.ok hcast
  | flag b => cases b <;> rfl
  | fixed => exact congrArg Except.ok hcast

/-- The history begins as many numbers before the end as the limit says. -/
theorem historyStart (h : IsLimit limit k) : historyStart limit = .ok (-k) := by
  cases h with
  | whole => rfl
  | flag b => cases b <;> rfl
  | fixed hsign hk => exact congrArg Except.ok (IntWidth.wrap_neg hsign hk)

/-- **The history is made of the last numbers**, as many as the limit says. -/
theorem historyOf (h : IsLimit limit k) (xs : List Double) :
    historyOf limit xs = .ok (xs.drop (xs.length - k)) := by
  rw [LiveChart.historyOf, h.truth, h.historyStart]
  cases k with
  | zero =>
    rw [Nat.sub_zero, List.drop_length]
    rfl
  | succ k =>
    refine congrArg Except.ok ?_
    have hstart : (-((k + 1 : ℕ) : ℤ) + xs.length).toNat = xs.length - (k + 1) := by omega
    rw [fromPosition, if_pos (by omega), hstart]

end IsLimit

/-! ## Summaries -/

/-- What a summary says about readings in order of arrival, with a history of some length: the last
of them and the one before it, by how much and in which direction the last differs from the latest
that is another, and the last ones in order. -/
structure Summary.Describes (s : Summary) (xs : List Double) (k : ℕ) : Prop where
  value : s.value = xs.getLast?
  previous : s.previous = xs.dropLast.getLast?
  delta : s.delta = Option.map₂ Double.sub xs.getLast? (lastOther xs)
  trend : s.trend = (Option.map₂ Trend.between (lastOther xs) xs.getLast?).getD .stable
  sparkline : s.sparkline = xs.drop (xs.length - k)

/-- The summary of no readings describes them. -/
theorem Summary.describes_empty (k : ℕ) : Summary.empty.Describes [] k :=
  ⟨rfl, rfl, rfl, rfl, List.drop_nil.symm⟩

/-- **The summary of readings describes them.** -/
theorem Summary.describes_ofNumbers {xs : List Double} (h : ∀ x ∈ xs, x.isFinite = true) (k : ℕ) :
    (Summary.ofNumbers xs (xs.drop (xs.length - k))).Describes xs k := by
  obtain ⟨hdelta, htrend⟩ :
      lastChange xs.reverse = Option.map₂ Double.sub xs.getLast? (lastOther xs) ∧
      trendOf (lastChange xs.reverse)
        = (Option.map₂ Trend.between (lastOther xs) xs.getLast?).getD .stable := by
    cases xs using List.reverseRecOn with
    | nil => exact ⟨rfl, rfl⟩
    | append_singleton xs x =>
      have hx : x.isFinite = true := h x List.mem_concat_self
      have hxs : ∀ w ∈ xs.reverse, w.isFinite = true := fun w hw =>
        h w (List.mem_append_left _ (List.mem_reverse.1 hw))
      rw [List.reverse_concat, lastChange_cons hx hxs, List.getLast?_concat, lastOther_concat]
      cases hfound : xs.reverse.find? fun w => !x.same w with
      | none => exact ⟨rfl, rfl⟩
      | some w =>
        have hne : x.same w = false := by simpa using List.find?_some hfound
        exact ⟨rfl, trendOf_sub hx (hxs w (List.mem_of_find?_eq_some hfound)) hne⟩
  exact ⟨rfl, rfl, hdelta, htrend, rfl⟩

/-- A reading that repeats the last one moves nothing. -/
theorem Summary.Describes.repeated {s s' : Summary} {xs : List Double} {k : ℕ} {x y : Double}
    (hs : s.Describes (xs ++ [y]) k) (hs' : s'.Describes (xs ++ [y] ++ [x]) k)
    (h : ∀ w ∈ xs ++ [y] ++ [x], w.isFinite = true) (hsame : x.same y = true) :
    s'.value = some x ∧ s'.delta = s.delta ∧ s'.trend = s.trend := by
  have hx : x.isFinite = true := h x List.mem_concat_self
  have hy : y.isFinite = true := h y (by simp)
  have hxs : ∀ w ∈ xs.reverse, w.isFinite = true := fun w hw => h w (by simp_all)
  have hother : lastOther (xs ++ [y] ++ [x]) = lastOther (xs ++ [y]) := by
    rw [lastOther_concat, lastOther_concat, List.reverse_concat,
      List.find?_cons_of_neg (by simp [hsame]), find?_same_congr hx hy hxs hsame]
  have hlast : (xs ++ [y] ++ [x]).getLast? = some x := List.getLast?_concat
  have hlast' : (xs ++ [y]).getLast? = some y := List.getLast?_concat
  refine ⟨by rw [hs'.value, hlast], ?_, ?_⟩
  · rw [hs'.delta, hs.delta, hother, hlast, hlast', lastOther_concat]
    calc (xs.reverse.find? fun w => !y.same w).map x.sub
        = (xs.reverse.find? fun w => !x.same w).map x.sub := by
          rw [find?_same_congr hx hy hxs hsame]
      _ = (xs.reverse.find? fun w => !y.same w).map y.sub := map_sub_congr hx hy hxs hsame
  · rw [hs'.trend, hs.trend, hother, hlast, hlast', lastOther_concat]
    cases hfound : xs.reverse.find? fun w => !y.same w with
    | none => rfl
    | some w =>
      exact Trend.between_congr hx hy (hxs w (List.mem_of_find?_eq_some hfound)) hsame

section Summarize

variable {given limit : Value} {rows : List Row} {field : String} {k : ℕ}

/-- **A field has a summary that describes its readings**, if none of its values is out of range. -/
theorem exists_summarize (hgiven : given.elements = .ok (rows.map .dict)) (hlimit : IsLimit limit k)
    (hrows : ∀ row ∈ rows, ¬(row.held field).OutOfRange) :
    ∃ s, summarize given (.text field) limit = .ok s ∧ s.Describes (readingsOf field rows) k := by
  have hnumbers := numbersOf_eq_ok hrows
  have hsummary : summarize given (.text field) limit =
      if (readingsOf field rows).isEmpty then .ok .empty
      else (historyOf limit (readingsOf field rows)).map (.ofNumbers (readingsOf field rows)) := by
    rw [summarize, hlimit.isNegative, hgiven]
    show (numbersOf (.text field) (rows.map .dict) >>= _) = _
    rw [hnumbers]
    show ite _ _ _ = _
    split_ifs
    · rfl
    · cases historyOf limit (readingsOf field rows) <;> rfl
  rw [hsummary, hlimit.historyOf]
  cases hempty : (readingsOf field rows).isEmpty with
  | true =>
    rw [List.isEmpty_iff.1 hempty]
    exact ⟨_, rfl, Summary.describes_empty k⟩
  | false => exact ⟨_, rfl, Summary.describes_ofNumbers (fun _ => isFinite_of_mem_readingsOf) k⟩

/-- **The summary of a field.**  Take rows whose values under a field are numbers or no numbers, but
none out of range, and a limit.  The field has a summary, which says of the readings, in order of
arrival: the last one and the one before it; the difference of the last from the latest that is
another, if there is one; the direction from that one to the last; and the last readings in order,
as many as the limit says.  One more row whose reading equals the last one shows the same value and
leaves the difference and the direction as they are. -/
theorem summarize_describes (hgiven : given.elements = .ok (rows.map .dict))
    (hlimit : IsLimit limit k) (hrows : ∀ row ∈ rows, ¬(row.held field).OutOfRange) :
    ∃ s, summarize given (.text field) limit = .ok s ∧ s.Describes (readingsOf field rows) k ∧
      ∀ row x y, (row.held field).reading? = some x →
        (readingsOf field rows).getLast? = some y → x.same y = true →
        ∃ s', summarize (.list ((rows ++ [row]).map .dict)) (.text field) limit = .ok s' ∧
          s'.value = some x ∧ s'.delta = s.delta ∧ s'.trend = s.trend := by
  obtain ⟨s, hs, hdescribes⟩ := exists_summarize hgiven hlimit hrows
  refine ⟨s, hs, hdescribes, ?_⟩
  intro row x y hrow hlast hsame
  have hmore : ∀ other ∈ rows ++ [row], ¬(other.held field).OutOfRange := by
    intro other hother
    rcases List.mem_append.1 hother with h | h
    · exact hrows other h
    · rw [List.mem_singleton.1 h]
      exact Value.not_outOfRange_of_reading? hrow
  obtain ⟨s', hs', hdescribes'⟩ :=
    exists_summarize (Value.elements_list ((rows ++ [row]).map .dict)) hlimit hmore
  have hfinite : ∀ w ∈ readingsOf field (rows ++ [row]), w.isFinite = true :=
    fun _ => isFinite_of_mem_readingsOf
  obtain ⟨xs, hxs⟩ := List.getLast?_eq_some_iff.1 hlast
  rw [readingsOf_concat, hrow, hxs] at hdescribes' hfinite
  rw [hxs] at hdescribes
  exact ⟨s', hs', hdescribes.repeated hdescribes' hfinite hsame⟩

end Summarize

/-- Rows of a whole number, the text of a number, a text that is none, a double and no number. -/
def flatRows : List Row :=
  [.int 5, .text "2", .text "n/a", .double (.ofNat 2), .double .nan].map fun v => [(.text "v", v)]

/-- No value of the flat rows is out of range. -/
theorem inRange_flatRows : ∀ row ∈ flatRows, ¬(row.held "v").OutOfRange := by
  intro row hrow
  simp only [flatRows, List.map_cons, List.map_nil, List.mem_cons, List.not_mem_nil,
    or_false] at hrow
  rcases hrow with rfl | rfl | rfl | rfl | rfl
  · show ¬Double.limit ≤ 5
    decide +kernel
  all_goals exact id

/-- The readings of the flat rows are described: the last two are equal, so the movement is that
from the first one. -/
theorem summarize_describes_flat :
    (∀ row ∈ flatRows, ¬(row.held "v").OutOfRange) ∧
    ∃ s, summarize (.list (flatRows.map .dict)) (.text "v") (.int 2) = .ok s ∧
      s.Describes (readingsOf "v" flatRows) 2 ∧
      ∀ row x y, (row.held "v").reading? = some x →
        (readingsOf "v" flatRows).getLast? = some y → x.same y = true →
        ∃ s', summarize (.list ((flatRows ++ [row]).map .dict)) (.text "v") (.int 2) = .ok s' ∧
          s'.value = some x ∧ s'.delta = s.delta ∧ s'.trend = s.trend :=
  ⟨inRange_flatRows, summarize_describes (Value.elements_list _) (.whole 2) inRange_flatRows⟩

end LiveChart
