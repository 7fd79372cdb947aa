import LiveChart.Proofs.Chart.Readings
import LiveChart.Proofs.Number.Whole
/-!
# Rows without a number

A row whose field holds no finite number is passed over by a summary, wherever it stands among the
rows.  There is one exception: a truth value of a machine type is no plain truth value, so it is
taken for the number 0 or 1.

* `Value.IsIdle` : the values that stand for no finite number;
* `Value.IsIdle.countedNumber_eq` : what such a value counts for;
* `numbersOf_append_congr` : rows before others do not change how these are read;
* `summarize_insert_iff` : the rows that leave every summary as it is.
-/

namespace LiveChart

/-! ## Values that stand for no number -/

/-- The values that stand for no finite number: the absent value, truth values, numbers that are not
finite, and texts that spell no finite number. -/
inductive Value.IsIdle : Value → Prop where
  | null : IsIdle .null
  | bool (b : Bool) : IsIdle (.bool b)
  | flag (b : Bool) : IsIdle (.scalar (.flag b))
  | double {x : Double} (hx : x.isFinite = false) : IsIdle (.double x)
  | fixed (w : FloatWidth) {x : Double} (hx : x.isFinite = false) :
    IsIdle (.scalar (.fixedFloat w x))
  | text {s : String} (hs : ∀ x, readDouble? s = some x → x.isFinite = false) : IsIdle (.text s)

/-- A reading is the number of its value. -/
theorem Value.toDouble_of_reading? {v : Value} {x : Double} (h : v.reading? = some x) :
    v.toDouble = .ok x := by
  unfold reading? at h
  split at h
  · cases h
  · cases h
  · have hsome := (Option.filter_eq_some_iff.1 h).1
    cases hnumber : v.toDouble with
    | error e =>
      rw [hnumber] at hsome
      cases hsome
    | ok y =>
      rw [hnumber] at hsome
      exact congrArg Except.ok (Option.some.inj hsome)

namespace Value.IsIdle

variable {v : Value}

/-- An idle value is not out of range. -/
theorem not_outOfRange (h : v.IsIdle) : ¬v.OutOfRange := by
  cases h <;> exact id

/-- **An idle value has no reading**, unless it is a machine truth value. -/
theorem reading?_eq_none (h : v.IsIdle) (hflag : ∀ b, v ≠ .scalar (.flag b)) :
    v.reading? = none := by
  by_contra hreading
  obtain ⟨x, hx⟩ := Option.ne_none_iff_exists'.1 hreading
  have hfinite := isFinite_of_reading? hx
  have hnumber := toDouble_of_reading? hx
  -- the number that would be read is the one that is not finite
  cases h with
  | null => cases hx
  | bool b => cases hx
  | flag b => exact hflag b rfl
  | @double y hy =>
    obtain rfl : y = x := Except.ok.inj hnumber
    exact Bool.eq_false_iff.1 hy hfinite
  | @fixed w y hy =>
    obtain rfl : y = x := Except.ok.inj hnumber
    exact Bool.eq_false_iff.1 hy hfinite
  | @text s hs =>
    have hread : readDouble? s = some x := by
      unfold toDouble at hnumber
      dsimp only at hnumber
      split at hnumber
      · next y hy => rw [hy, Except.ok.inj hnumber]
      · cases hnumber
    exact Bool.eq_false_iff.1 (hs x hread) hfinite

/-- An idle value is counted for no number, unless it is a machine truth value. -/
theorem countedNumber_eq (h : v.IsIdle) (hflag : ∀ b, v ≠ .scalar (.flag b)) :
    countedNumber v = .ok none := by
  rw [countedNumber_eq_ok h.not_outOfRange, h.reading?_eq_none hflag]

end Value.IsIdle

/-- The whole number of a truth value has few bits. -/
theorem natAbs_boolInt_le (b : Bool) : (boolInt b).natAbs ≤ 2 ^ 53 := by
  cases b <;> decide

/-- The double of a truth value is finite. -/
theorem isFinite_boolInt (b : Bool) : (Double.ofIntSaturating (boolInt b)).isFinite = true := by
  rw [Double.ofIntSaturating_eq (natAbs_boolInt_le b)]
  rfl

/-- A machine truth value is counted as 0 or 1. -/
theorem countedNumber_flag (b : Bool) :
    countedNumber (.scalar (.flag b)) = .ok (some (Double.ofIntSaturating (boolInt b))) :=
  congrArg Except.ok (if_pos (isFinite_boolInt b))

/-- The whole number of a truth value is counted as 0 or 1. -/
theorem countedNumber_boolInt (b : Bool) :
    countedNumber (.int (boolInt b)) = .ok (some (Double.ofIntSaturating (boolInt b))) := by
  unfold countedNumber Value.toDouble
  dsimp only
  rw [Double.ofInt?_eq_some (natAbs_boolInt_le b)]
  exact congrArg Except.ok (if_pos (isFinite_boolInt b))

/-! ## Rows among others -/

/-- Rows before others do not change how these are read. -/
theorem numbersOf_append_congr {field : Value} {rows rows' : List Value}
    (h : numbersOf field rows = numbersOf field rows') (before : List Value) :
    numbersOf field (before ++ rows) = numbersOf field (before ++ rows') := by
  induction before with
  | nil => exact h
  | cons row before ih => rw [List.cons_append, List.cons_append, numbersOf, numbersOf, ih]

/-- A summary depends on the rows by the numbers of its field. -/
theorem summarize_congr {field : Value} {rows rows' : List Value}
    (h : numbersOf field rows = numbersOf field rows') (limit : Value) :
    summarize (.list rows) field limit = summarize (.list rows') field limit := by
  unfold summarize
  rw [Value.elements_list, Value.elements_list]
  cases limit.isNegative with
  | error e => rfl
  | ok negative =>
    cases negative with
    | true => rfl
    | false =>
      show (numbersOf field rows >>= _) = (numbersOf field rows' >>= _)
      rw [h]

section Insertion

variable {field : String} {row row' : Row}

/-- Rows that are counted for the same number are alike for the numbers of a field. -/
theorem numbersOf_cons_congr (h : countedNumber (row.held field) = countedNumber (row'.held field))
    (after : List Value) :
    numbersOf (.text field) (.dict row :: after)
      = numbersOf (.text field) (.dict row' :: after) := by
  rw [numbersOf_cons, numbersOf_cons, h]

/-- A row that is counted for none leaves the numbers of a field as they are. -/
theorem numbersOf_cons_none (h : countedNumber (row.held field) = .ok none) (after : List Value) :
    numbersOf (.text field) (.dict row :: after) = numbersOf (.text field) after := by
  rw [numbersOf_cons, h]
  cases numbersOf (.text field) after <;> rfl

/-- A machine truth value is counted as the whole number 0 or 1 is. -/
theorem numbersOf_cons_flag {b : Bool} (h : row.held field = .scalar (.flag b))
    (after : List Value) : numbersOf (.text field) (.dict row :: after)
      = numbersOf (.text field) (.dict [(.text field, .int (boolInt b))] :: after) := by
  have hheld : Row.held [(.text field, .int (boolInt b))] field = .int (boolInt b) := by
    simp [Row.held, Entries.field?]
  exact numbersOf_cons_congr (by rw [h, hheld, countedNumber_flag, countedNumber_boolInt]) after

/-- A machine truth value alone has another summary than no rows. -/
theorem summarize_flag_ne {b : Bool} (h : row.held field = .scalar (.flag b)) :
    summarize (.list [.dict row]) (.text field) (.int 0)
      ≠ summarize (.list []) (.text field) (.int 0) := by
  have hnumbers : numbersOf (.text field) [.dict row]
      = .ok [Double.ofIntSaturating (boolInt b)] := by
    rw [numbersOf_cons, h, countedNumber_flag]
    rfl
  have hone : summarize (.list [.dict row]) (.text field) (.int 0)
      = .ok (.ofNumbers [Double.ofIntSaturating (boolInt b)] []) := by
    show (numbersOf (.text field) [.dict row] >>= _) = _
    rw [hnumbers]
    rfl
  rw [hone]
  intro hsame
  cases congrArg (Except.map Summary.value) hsame

/-- **The rows that leave every summary as it is**, among those that hold no finite number, are the
ones that do not hold a machine truth value.  These count as the whole number 0 or 1. -/
theorem summarize_insert_iff (h : (row.held field).IsIdle) :
    ((∀ (before after : List Value) (limit : Value),
        summarize (.list (before ++ .dict row :: after)) (.text field) limit
          = summarize (.list (before ++ after)) (.text field) limit) ↔
      ∀ b, row.held field ≠ .scalar (.flag b)) ∧
    ∀ b, row.held field = .scalar (.flag b) → ∀ (before after : List Value) (limit : Value),
      summarize (.list (before ++ .dict row :: after)) (.text field) limit
        = summarize (.list (before ++ .dict [(.text field, .int (boolInt b))] :: after))
            (.text field) limit := by
  refine ⟨⟨?_, ?_⟩, ?_⟩
  · -- among no other rows a truth value shows
    intro hsame b hb
    exact summarize_flag_ne hb (hsame [] [] (.int 0))
  · intro hflag before after limit
    have hnone := h.countedNumber_eq hflag
    exact summarize_congr (numbersOf_append_congr (numbersOf_cons_none hnone after) before) limit
  · intro b hb before after limit
    exact summarize_congr (numbersOf_append_congr (numbersOf_cons_flag hb after) before) limit

end Insertion

/-- A row with one field. -/
def rowOf (v : Value) : Row := [(.text "v", v)]

/-- A text that spells no number is passed over, and a machine truth value is not. -/
theorem summarize_insert_text :
    ((rowOf (.text "n/a")).held "v").IsIdle ∧
    (∀ (before after : List Value) (limit : Value),
      summarize (.list (before ++ .dict (rowOf (.text "n/a")) :: after)) (.text "v") limit
        = summarize (.list (before ++ after)) (.text "v") limit) ∧
    ((rowOf (.scalar (.flag true))).held "v").IsIdle ∧
    ∀ (before after : List Value) (limit : Value),
      summarize (.list (before ++ .dict (rowOf (.scalar (.flag true))) :: after)) (.text "v") limit
        = summarize (.list (before ++ .dict (rowOf (.int 1)) :: after)) (.text "v") limit := by
  have htext : ((rowOf (.text "n/a")).held "v").IsIdle := .text fun x hx => by cases hx
  have hflag : ((rowOf (.scalar (.flag true))).held "v").IsIdle := .flag true
  exact ⟨htext, (summarize_insert_iff htext).1.2 (fun b hb => by cases hb), hflag,
    (summarize_insert_iff hflag).2 true rfl⟩

/-- A machine truth value changes a summary: after the number 5 there is a previous number. -/
theorem summarize_insert_flag :
    ¬∀ (field : String) (row : Row), (row.held field).IsIdle →
      ∀ (before after : List Value) (limit : Value),
        summarize (.list (before ++ .dict row :: after)) (.text field) limit
          = summarize (.list (before ++ after)) (.text field) limit := by
  intro h
  have hsame := h "v" (rowOf (.scalar (.flag true))) (.flag true) [.dict (rowOf (.int 5))] []
    defaultLimit
  have hmore : ((summarize (.list [.dict (rowOf (.int 5)), .dict (rowOf (.scalar (.flag true)))])
      (.text "v") defaultLimit).toOption.bind Summary.previous).isSome = true := by decide +kernel
  have hless : ((summarize (.list [.dict (rowOf (.int 5))]) (.text "v")
      defaultLimit).toOption.bind Summary.previous).isSome = false := by decide +kernel
  change summarize (.list [.dict (rowOf (.int 5)), .dict (rowOf (.scalar (.flag true)))])
    (.text "v") defaultLimit = summarize (.list [.dict (rowOf (.int 5))]) (.text "v")
      defaultLimit at hsame
  rw [hsame, hless] at hmore
  cases hmore

end LiveChart
