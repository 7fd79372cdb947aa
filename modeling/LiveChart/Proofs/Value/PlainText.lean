import LiveChart.Value.Display
/-!
# Plain texts are not blank

The plain text of a value is the empty text only for the empty text itself: every other value shows
a word, a number, a bracket or a mark of some kind.

* `Scalar.plain_ne_empty` : the plain text of a scalar;
* `Value.plain_ne_empty` : the plain text of a value.
-/

namespace LiveChart

/-! ## Numbers -/

/-- A number has a digit at least, to whatever width it is filled up. -/
theorem Text.paddedDecimal_ne_nil (width n : Nat) : Text.paddedDecimal width n ≠ [] := by
  simp [Text.paddedDecimal, Text.decimal]

/-- A whole number with zeros before it is not blank. -/
theorem pad_ne_empty (width : Nat) (n : Int) : pad width n ≠ "" := by
  unfold pad
  split <;> simp [Text.paddedDecimal_ne_nil]

/-- A whole number is not blank. -/
theorem toString_int_ne_empty (n : Int) : toString n ≠ "" := by
  cases n <;> simp [toString, Int.repr]

namespace Double

/-- A text that is not blank is not blank under a sign. -/
theorem signed_ne_nil {cs : List Char} (negative : Bool) (h : cs ≠ []) :
    signed negative cs ≠ [] := by
  cases negative <;> simp [signed, h]

/-- A magnitude is written with a point or an exponent. -/
theorem magnitudeText_ne_nil (form : ShortForm) (u : Nat) : magnitudeText form u ≠ [] := by
  unfold magnitudeText
  split
  · simp
  · dsimp only
    split <;> simp [positional, scientific]

/-- A double is not blank. -/
theorem textIn_ne_empty (form : ShortForm) (x : Double) : x.textIn form ≠ "" := by
  cases x with
  | finite negative u h => simp [textIn, signed_ne_nil, magnitudeText_ne_nil]
  | infinite negative => simp [textIn, signed_ne_nil]
  | nan => simp [textIn]

end Double

/-- A truth value is not blank. -/
theorem boolWord_ne_empty (b : Bool) : boolWord b ≠ "" := by
  cases b <;> simp [boolWord]

/-! ## Times -/

/-- A date is written with hyphens. -/
theorem Day.text_ne_empty (d : Day) : d.text ≠ "" := by
  unfold Day.text
  simp

/-- A moment is written with a blank behind its date. -/
theorem Moment.text_ne_empty (t : Moment) : t.text ≠ "" := by
  unfold Moment.text
  simp

/-- A span of time is written with colons. -/
theorem Duration.text_ne_empty (d : Duration) : d.text ≠ "" := by
  unfold Duration.text
  simp

/-- A tick shows its year at least, or that it is no time. -/
theorem Tick.text_ne_empty (t : Tick) : t.text ≠ "" := by
  unfold Tick.text
  split
  · simp
  · dsimp only
    split <;> simp [pad_ne_empty, Day.text_ne_empty]

/-! ## Scalars -/

namespace Scalar

/-- The plain text of a scalar is blank for the empty text only. -/
theorem plain_ne_empty {s : Scalar} (h : s ≠ .text "") : s.plain ≠ "" := by
  cases s with
  | null => decide
  | bool b => exact boolWord_ne_empty b
  | int n => exact toString_int_ne_empty n
  | double x => exact x.textIn_ne_empty short64
  | text s => simpa [plain] using h
  | bytes bs => simp [plain, quoted, Text.quoteBytes]
  | byteArray bs => simp [plain, quoted]
  | day d => exact d.text_ne_empty
  | moment t => exact t.text_ne_empty
  | duration d => exact d.text_ne_empty
  | tick t => exact t.text_ne_empty
  | fixedInt w n => exact toString_int_ne_empty n
  | fixedFloat w x => exact x.textIn_ne_empty w.shortForm
  | flag b => exact boolWord_ne_empty b
  | object => decide

end Scalar

/-! ## Containers -/

/-- A tuple is written in brackets. -/
theorem tupleText_ne_empty (parts : List String) : tupleText parts ≠ "" := by
  unfold tupleText
  split <;> simp [bracketed]

/-- A row of a grid is written in brackets. -/
theorem Grid.render_rows_ne_empty (separator : String) (indent width : Nat)
    (items : List (Grid String)) : Grid.render separator indent width (.rows items) ≠ "" := by
  unfold Grid.render Grid.renderAt
  dsimp only
  split <;> simp

/-- The elements of an array are written in brackets. -/
theorem elementsText_ne_empty (separator : String) (indent width : Nat) (element : Element)
    (items : List (Grid QuotedElement)) :
    elementsText separator indent width element (.rows items) ≠ "" := by
  unfold elementsText
  dsimp only
  split
  · simp
  · split <;> exact Grid.render_rows_ne_empty _ _ _ _

namespace Value

/-- **The plain text of a value is blank for the empty text only.** -/
theorem plain_ne_empty {v : Value} (h : v ≠ .text "") : v.plain ≠ "" := by
  cases v with
  | scalar s => exact Scalar.plain_ne_empty fun hs => h (hs ▸ rfl)
  | list items => simp [plain, quoted, bracketed]
  | tuple items => exact tupleText_ne_empty _
  | set items =>
    show quoted (.set items) ≠ ""
    rw [quoted]
    split <;> simp [bracketed]
  | dict entries => simp [plain, quoted, bracketed]
  | array element items => exact elementsText_ne_empty _ _ _ _ _

end Value

end LiveChart
