import LiveChart.Proofs.Stream.Readback
/-!
# Bad rows stay by themselves

A batch is read row by row.  A row that does not fit the schema is rejected and counted, and the
rest of the batch goes on.  No other error can arise, so a batch is always read to its end.

* `fits` : the rows that a schema takes, by their kind;
* `normalize_of_fits` and `normalize_of_not_fits` : rows that fit have a canonical form, and the
  others are rejected;
* `readBatch` : a batch read row by row, in which an error other than a rejection ends the reading;
* `readBatch_eq` : the reading does not end before the batch does;
* `Restated` : a positional row and the mapping of the names to its values;
* `readBatch_isolates` : what becomes of a batch.
-/

namespace LiveChart

/-! ## Rows that fit -/

/-- The rows that a schema takes: mappings, and lists and tuples of as many values as there are
columns.  A text and a byte string of either kind are scalars, and no rows. -/
def fits (columns : List Column) : Value → Bool
  | .dict _ => true
  | .list items | .tuple items => items.length == columns.length
  | .scalar _ | .set _ | .array .. => false

/-- The errors that reject a row. -/
def Error.rejectsRow : Error → Bool
  | .rowLength .. | .rowShape _ => true
  | _ => false

section Normalize

variable {columns : List Column} {row : Value}

/-- A row that fits has a canonical form. -/
theorem normalize_of_fits (h : fits columns row = true) : ∃ r, normalize columns row = .ok r := by
  cases row with
  | dict entries => exact ⟨entries, rfl⟩
  | list items => exact ⟨_, if_pos (eq_of_beq h)⟩
  | tuple items => exact ⟨_, if_pos (eq_of_beq h)⟩
  | _ => cases h

/-- A row that does not fit is rejected. -/
theorem normalize_of_not_fits (h : fits columns row = false) :
    ∃ e, normalize columns row = .error e ∧ e.rejectsRow = true := by
  cases row with
  | dict entries => cases h
  | list items => exact ⟨_, if_neg (ne_of_beq_false h), rfl⟩
  | tuple items => exact ⟨_, if_neg (ne_of_beq_false h), rfl⟩
  | _ => exact ⟨_, rfl, rfl⟩

/-- A row has a canonical form just if it fits. -/
theorem isOk_normalize (columns : List Column) (row : Value) :
    (normalize columns row).isOk = fits columns row := by
  cases h : fits columns row with
  | true =>
    obtain ⟨r, hr⟩ := normalize_of_fits h
    rw [hr]
    rfl
  | false =>
    obtain ⟨e, he, -⟩ := normalize_of_not_fits h
    rw [he]
    rfl

end Normalize

/-- The accepted rows are the canonical forms of the rows that fit, in order. -/
theorem forall₂_accepted (columns : List Column) (rows : List Value) :
    List.Forall₂ (fun row r => normalize columns row = .ok r) (rows.filter (fits columns))
      (accepted columns rows) := by
  induction rows with
  | nil => exact .nil
  | cons row rows ih =>
    cases h : fits columns row with
    | true =>
      obtain ⟨r, hr⟩ := normalize_of_fits h
      have haccepted : accepted columns (row :: rows) = r :: accepted columns rows :=
        List.filterMap_cons_some (by rw [hr]; rfl)
      rw [List.filter_cons_of_pos h, haccepted]
      exact .cons hr ih
    | false =>
      obtain ⟨e, he, -⟩ := normalize_of_not_fits h
      have haccepted : accepted columns (row :: rows) = accepted columns rows :=
        List.filterMap_cons_none (by rw [he]; rfl)
      rw [List.filter_cons_of_neg (by rw [h]; decide), haccepted]
      exact ih

/-- The rejected rows are those that do not fit. -/
theorem rejected_eq (columns : List Column) (rows : List Value) :
    rejected columns rows = rows.countP fun row => !fits columns row := by
  simp only [rejected, isOk_normalize]

/-! ## Reading a batch -/

/-- Rows read one after another, with those that were kept before them and the number of those that
were rejected.  An error that rejects no row ends the reading. -/
def readRows (columns : List Column) : List Value → List Row → ℕ → Result (List Row × ℕ)
  | [], kept, skipped => .ok (kept, skipped)
  | row :: rows, kept, skipped =>
    match normalize columns row with
    | .ok r => readRows columns rows (kept ++ [r]) skipped
    | .error e => if e.rejectsRow then readRows columns rows kept (skipped + 1) else .error e

/-- The rows of a batch that are kept, and the number of those that are rejected. -/
def readBatch (columns : List Column) (rows : List Value) : Result (List Row × ℕ) :=
  readRows columns rows [] 0

/-- Rows are read to their end, whatever was kept and rejected before them. -/
theorem readRows_eq (columns : List Column) (rows : List Value) (kept : List Row) (skipped : ℕ) :
    readRows columns rows kept skipped
      = .ok (kept ++ accepted columns rows, skipped + rejected columns rows) := by
  induction rows generalizing kept skipped with
  | nil => simp [readRows, accepted, rejected]
  | cons row rows ih =>
    have haccepted := accepted_append columns [row] rows
    have hrejected := rejected_append columns [row] rows
    rw [List.singleton_append] at haccepted hrejected
    rw [readRows, haccepted, hrejected]
    cases h : fits columns row with
    | true =>
      obtain ⟨r, hr⟩ := normalize_of_fits h
      rw [hr]
      simp [ih, accepted, rejected, hr, Except.toOption, Except.isOk, Except.toBool]
    | false =>
      -- what does not fit raises an error that rejects the row, so the reading goes on
      obtain ⟨e, he, hrejects⟩ := normalize_of_not_fits h
      rw [he]
      simp [ih, accepted, rejected, he, hrejects, Except.toOption, Except.isOk, Except.toBool,
        Nat.add_assoc]

/-- **A batch is read to its end**: the rows that are kept are the accepted ones. -/
theorem readBatch_eq (columns : List Column) (rows : List Value) :
    readBatch columns rows = .ok (accepted columns rows, rejected columns rows) := by
  rw [readBatch, readRows_eq, List.nil_append, Nat.zero_add]

/-- Canonical rows are accepted as they are. -/
theorem accepted_map_dict (columns : List Column) (rows : List Row) :
    accepted columns (rows.map .dict) = rows := by
  rw [accepted, List.filterMap_map]
  exact List.filterMap_some

/-- Canonical rows are not rejected. -/
theorem rejected_map_dict (columns : List Column) (rows : List Row) :
    rejected columns (rows.map .dict) = 0 := by
  rw [rejected_eq, List.countP_map, List.countP_eq_zero]
  intro row _
  exact Bool.false_ne_true

/-! ## Two forms of a row -/

/-- To bind a text among keys is to bind a name. -/
theorem bindKey_text {α : Type} (name : String) (a : α) (entries : Entries α) :
    Value.bindKey (.text name) a entries = Entries.bindField name a entries := by
  fun_induction Entries.bindField name a entries with
  | case1 => rfl
  | case2 b rest =>
    rw [Value.bindKey, if_pos (Value.same_text_right_iff.2 rfl)]
  | case3 key b rest hkey ih =>
    rw [Value.bindKey, if_neg, ih]
    intro h
    cases Value.same_text_right_iff.1 h
    exact hkey rfl
  | case4 entry rest hentry ih =>
    rw [Value.bindKey, if_neg, ih]
    intro h
    exact hentry name entry.2 (Prod.ext (Value.same_text_right_iff.1 h) rfl)

/-- The mapping of the names of the columns to some values. -/
def keyedRow (columns : List Column) (items : List Value) : Value :=
  .dictOf (((columns.map Column.name).map Value.text).zip items)

/-- The values of a positional row are stored as the mapping of the names to them. -/
theorem keyedRow_eq (columns : List Column) (items : List Value) :
    keyedRow columns items = .dict (rowOfPositions columns items) := by
  rw [keyedRow, List.zip_map_left, Value.dictOf, List.foldl_map, rowOfPositions, Entries.ofFields]
  simp only [Prod.map, id, bindKey_text]

/-- A row, or the mapping of the names to its values in place of a positional row that fits. -/
inductive Restated (columns : List Column) : Value → Value → Prop where
  | same (row : Value) : Restated columns row row
  | keyed {row : Value} {items : List Value} (hitems : row.positions? = some items)
      (hlength : items.length = columns.length) : Restated columns row (keyedRow columns items)

/-- A row in its other form has the same canonical form. -/
theorem Restated.normalize_eq {columns : List Column} {row other : Value}
    (h : Restated columns row other) : normalize columns other = normalize columns row := by
  cases h with
  | same => rfl
  | keyed hitems hlength =>
    rw [keyedRow_eq, (normalize_positional hitems).2 ⟨hlength, rfl⟩]
    rfl

/-- Rows in their other forms are read alike. -/
theorem readRows_restated {columns : List Column} {rows others : List Value}
    (h : List.Forall₂ (Restated columns) rows others) (kept : List Row) (skipped : ℕ) :
    readRows columns others kept skipped = readRows columns rows kept skipped := by
  induction h generalizing kept skipped with
  | nil => rfl
  | cons hrow _ ih => simp only [readRows, hrow.normalize_eq, ih]

/-! ## Batches -/

/-- **What becomes of a batch.**  Of whatever values a batch consists, it is read to its end without
an error.  What is kept are the canonical forms of the rows that fit, in order, and the number of
rejected rows is that of all others; so two batches after one another are kept and counted one after
the other.  The rows that were kept are all kept again, as they are.  And nothing changes if some of
the positional rows that fit are given as the mappings of the names to their values. -/
theorem readBatch_isolates (columns : List Column) (rows : List Value) :
    readBatch columns rows = .ok (accepted columns rows, rejected columns rows) ∧
    List.Forall₂ (fun row r => normalize columns row = .ok r) (rows.filter (fits columns))
      (accepted columns rows) ∧
    rejected columns rows = (rows.countP fun row => !fits columns row) ∧
    (∀ more, readBatch columns (rows ++ more) =
      .ok (accepted columns rows ++ accepted columns more,
        rejected columns rows + rejected columns more)) ∧
    readBatch columns ((accepted columns rows).map .dict) = .ok (accepted columns rows, 0) ∧
    ∀ others, List.Forall₂ (Restated columns) rows others →
      readBatch columns others = readBatch columns rows := by
  refine ⟨readBatch_eq columns rows, forall₂_accepted columns rows, rejected_eq columns rows,
    ?_, ?_, fun others h => readRows_restated h [] 0⟩
  · intro more
    rw [readBatch_eq, accepted_append, rejected_append]
  · rw [readBatch_eq, accepted_map_dict, rejected_map_dict]

end LiveChart
