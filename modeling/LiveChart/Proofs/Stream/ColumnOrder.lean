import LiveChart.Proofs.Stream.Mirror
/-!
# The order of columns

A source may list the columns of a controller in another order, with its positional rows written
accordingly.  To take it in comes to the same as to append its rows, or to replace by them, as they
would be written in the controller's own order: the same rows up to the order of fields, the same
counts and the same frames, then and whatever follows.

* `rearrange` and `rearrangeRow` : columns and rows in another order;
* `normalize_rearrange` : a row and its rearrangement have the same canonical form;
* `SameBatch.rearrange` : a batch and its rearrangement come to the same;
* `Controller.Rearranged` : a step in whose place a source is taken in;
* `Controller.mirrors_step` and `Controller.run_rearranged` : steps and runs that come to the same.
-/

namespace LiveChart

variable {α β : Type}

/-! ## Lists in another order -/

/-- The items at some positions. -/
def rearrange (order : List ℕ) (items : List α) : List α := order.filterMap (items[·]?)

/-- The images of items are rearranged as the items are. -/
theorem rearrange_map (order : List ℕ) (f : α → β) (items : List α) :
    rearrange order (items.map f) = (rearrange order items).map f := by
  unfold rearrange
  rw [List.map_filterMap]
  exact List.filterMap_congr fun i _ => List.getElem?_map ..

/-- Pairs of items are rearranged as the items are. -/
theorem rearrange_zip {order : List ℕ} {items : List α} {others : List β}
    (hlength : items.length = others.length) :
    (rearrange order items).zip (rearrange order others) = rearrange order (items.zip others) := by
  unfold rearrange
  induction order with
  | nil => rfl
  | cons i order ih =>
    by_cases hi : i < items.length
    · have hother : i < others.length := hlength ▸ hi
      have hzip : i < (items.zip others).length := by
        rw [List.length_zip]
        omega
      rw [List.filterMap_cons_some (List.getElem?_eq_getElem hi),
        List.filterMap_cons_some (List.getElem?_eq_getElem hother),
        List.filterMap_cons_some (List.getElem?_eq_getElem hzip), List.zip_cons_cons, ih,
        List.getElem_zip]
    · -- a position past the end is left out of both
      have hother : others.length ≤ i := by omega
      have hzip : (items.zip others).length ≤ i := by
        rw [List.length_zip]
        omega
      rw [List.filterMap_cons_none (List.getElem?_eq_none (Nat.not_lt.1 hi)),
        List.filterMap_cons_none (List.getElem?_eq_none hother),
        List.filterMap_cons_none (List.getElem?_eq_none hzip), ih]

/-- The items at all positions are the items. -/
theorem rearrange_range (items : List α) : rearrange (List.range items.length) items = items := by
  unfold rearrange
  induction items using List.reverseRecOn with
  | nil => rfl
  | append_singleton items a ih =>
    have hfirst : (List.range items.length).filterMap ((items ++ [a])[·]?)
        = (List.range items.length).filterMap (items[·]?) := by
      apply List.filterMap_congr
      intro i hi
      exact List.getElem?_append_left (List.mem_range.1 hi)
    rw [List.length_append, List.length_singleton, List.range_succ, List.filterMap_append, hfirst,
      ih, List.filterMap_cons_some List.getElem?_concat_length]
    rfl

/-- **The items at all positions, in whatever order, are the items in another order.** -/
theorem rearrange_perm {order : List ℕ} {items : List α}
    (h : order.Perm (List.range items.length)) : (rearrange order items).Perm items := by
  have hperm : (rearrange order items).Perm (rearrange (List.range items.length) items) :=
    h.filterMap _
  rwa [rearrange_range] at hperm

/-! ## Rows in another order of columns -/

/-- A positional row as it is written in another order of columns, if its length is right.  Other
rows do not depend on the order. -/
def rearrangeRow (order : List ℕ) (row : Value) : Value :=
  match row with
  | .list items => if items.length = order.length then .list (rearrange order items) else row
  | .tuple items => if items.length = order.length then .tuple (rearrange order items) else row
  | row => row

section Normalize

variable {columns : List Column} {order : List ℕ}

/-- Values under distinct names in another order make the same row. -/
theorem rowOfPositions_rearrange (horder : order.Perm (List.range columns.length))
    (hnames : (columns.map Column.name).Nodup) {items : List Value}
    (hlength : items.length = columns.length) :
    (rowOfPositions columns items).SameFields
      (rowOfPositions (rearrange order columns) (rearrange order items)) := by
  set fields := (columns.map Column.name).zip items with hfields
  have hrange : order.Perm (List.range fields.length) := by
    rw [hfields, List.length_zip, List.length_map, hlength, Nat.min_self]
    exact horder
  have hother : ((rearrange order columns).map Column.name).zip (rearrange order items)
      = rearrange order fields := by
    rw [← rearrange_map, rearrange_zip (by rw [List.length_map, hlength])]
  have hfirst : fields.map Prod.fst = columns.map Column.name := by
    rw [hfields, List.map_fst_zip]
    rw [List.length_map, hlength]
  have hdistinct : (fields.map Prod.fst).Nodup := hfirst ▸ hnames
  have hperm : fields.Perm (rearrange order fields) := (rearrange_perm hrange).symm
  rw [rowOfPositions, rowOfPositions, hother, Entries.ofFields_eq_map hdistinct,
    Entries.ofFields_eq_map ((hperm.map Prod.fst).nodup_iff.1 hdistinct)]
  exact .of_perm (Entries.named_map hdistinct) (hperm.map _)

/-- A list and its rearrangement have the same canonical form, or are rejected alike. -/
theorem normalize_rearrange_list (horder : order.Perm (List.range columns.length))
    (hnames : (columns.map Column.name).Nodup) (items : List Value) :
    Result.Rel Row.SameFields (normalize columns (.list items))
      (normalize (rearrange order columns) (rearrangeRow order (.list items))) := by
  have hcolumns : (rearrange order columns).length = columns.length :=
    (rearrange_perm horder).length_eq
  have hcount : order.length = columns.length := by rw [horder.length_eq, List.length_range]
  by_cases hlength : items.length = columns.length
  · have hitems : (rearrange order items).length = (rearrange order columns).length := by
      rw [hcolumns, ← hlength]
      exact (rearrange_perm (hlength ▸ horder)).length_eq
    have hrow : rearrangeRow order (.list items) = .list (rearrange order items) :=
      if_pos (hlength.trans hcount.symm)
    have hone : normalize columns (.list items) = .ok (rowOfPositions columns items) :=
      if_pos hlength
    have hother : normalize (rearrange order columns) (.list (rearrange order items))
        = .ok (rowOfPositions (rearrange order columns) (rearrange order items)) := if_pos hitems
    rw [hrow, hone, hother]
    exact .ok (rowOfPositions_rearrange horder hnames hlength)
  · -- a list of another length stays as it is, and is refused with the same lengths
    have hrow : rearrangeRow order (.list items) = .list items :=
      if_neg fun h => hlength (h.trans hcount)
    have hone : normalize columns (.list items)
        = .error (.rowLength columns.length items.length) := if_neg hlength
    have hother : normalize (rearrange order columns) (.list items)
        = .error (.rowLength (rearrange order columns).length items.length) :=
      if_neg fun h => hlength (h.trans hcolumns)
    rw [hrow, hone, hother, hcolumns]
    exact .error _

/-- **A row and its rearrangement have the same canonical form**, or are rejected alike. -/
theorem normalize_rearrange (horder : order.Perm (List.range columns.length))
    (hnames : (columns.map Column.name).Nodup) (row : Value) :
    Result.Rel Row.SameFields (normalize columns row)
      (normalize (rearrange order columns) (rearrangeRow order row)) := by
  cases row with
  | scalar s => exact .error _
  | set items => exact .error _
  | array element items => exact .error _
  | dict entries => exact .ok (.refl entries)
  | list items => exact normalize_rearrange_list horder hnames items
  | tuple items =>
    -- a tuple is read as the list of its items
    have hother : normalize (rearrange order columns) (rearrangeRow order (.tuple items))
        = normalize (rearrange order columns) (rearrangeRow order (.list items)) := by
      unfold rearrangeRow
      dsimp only
      split_ifs <;> rfl
    rw [hother]
    exact normalize_rearrange_list horder hnames items

/-- **The accepted rows of a rearranged batch are the same.** -/
theorem accepted_rearrange (horder : order.Perm (List.range columns.length))
    (hnames : (columns.map Column.name).Nodup) (items : List Value) :
    List.Forall₂ Row.SameFields (accepted columns items)
      (accepted (rearrange order columns) (items.map (rearrangeRow order))) := by
  have hbatch : List.Forall₂ (fun row other => other = rearrangeRow order row) items
      (items.map (rearrangeRow order)) := by
    rw [List.forall₂_map_right_iff, List.forall₂_same]
    exact fun _ _ => rfl
  refine List.rel_filterMap ?_ hbatch
  rintro row _ rfl
  exact (normalize_rearrange horder hnames row).toOption

/-- As many rows of a rearranged batch are rejected. -/
theorem rejected_rearrange (horder : order.Perm (List.range columns.length))
    (hnames : (columns.map Column.name).Nodup) (items : List Value) :
    rejected (rearrange order columns) (items.map (rearrangeRow order))
      = rejected columns items := by
  unfold rejected
  rw [List.countP_map]
  apply List.countP_congr
  intro item _
  rw [Function.comp_apply, (normalize_rearrange horder hnames item).isOk_eq]

end Normalize

/-- **A batch comes to the same as its rearrangement.** -/
theorem SameBatch.rearrange {columns : List Column} {order : List ℕ}
    (horder : order.Perm (List.range columns.length)) (hnames : (columns.map Column.name).Nodup)
    (items : List Value) :
    SameBatch columns items (rearrange order columns) (items.map (rearrangeRow order)) :=
  ⟨accepted_rearrange horder hnames items, (rejected_rearrange horder hnames items).symm⟩

/-! ## Steps -/

namespace Controller

/-- The change of the rows that a mode stands for. -/
def Step.taking (mode : StreamingMode) (rows : Value) : Step :=
  match mode with
  | .append => .append rows
  | .replace => .replace rows

/-- A step and one that comes to the same: instead of appending or replacing rows, as the mode says,
a source of these rows is taken in that lists the columns in another order. -/
inductive Rearranged (columns : List Column) (mode : StreamingMode) : Step → Step → Prop where
  | same (s : Step) : Rearranged columns mode s s
  | source {rows given batch isLive : Value} {items : List Value} {order : List ℕ}
      (horder : order.Perm (List.range columns.length))
      (hrows : rows.elements = .ok items)
      (hgiven : columnsOf given = .ok (rearrange order columns))
      (hbatch : batch.elements = .ok (items.map (rearrangeRow order))) :
      Rearranged columns mode (.taking mode rows) (.ingest given batch isLive)

end Controller

namespace Core

variable {k : Core}

/-- To change the rows as the mode says is to take in a source with the columns of the controller. -/
theorem effect_taking {rows : Value} {items : List Value} (hrows : rows.elements = .ok items)
    (isLive : Value) :
    k.effect (.taking k.spec.streaming.mode rows)
      = if k.closed then .nothing else k.ingestEffect ⟨k.columns, items, isLive⟩ := by
  unfold ingestEffect
  cases k.spec.streaming.mode with
  | append => exact k.effect_append hrows
  | replace => exact k.effect_replace hrows

end Core

namespace Controller

variable {c d : Controller}

/-- What it gives back to change the rows as the mode says. -/
theorem result_taking {rows : Value} {items : List Value} (hrows : rows.elements = .ok items)
    (isLive : Value) :
    (c.step (.taking c.spec.streaming.mode rows)).2
      = if c.closed then .error .closed
        else .ok (.counts (c.ingest ⟨c.columns, items, isLive⟩).2) := by
  rw [counts_ingest]
  cases c.spec.streaming.mode with
  | append => exact c.result_append hrows
  | replace => exact c.result_replace hrows

/-! ## Runs -/

/-- **A step and one that comes to the same** keep controllers the same, and give back the same. -/
theorem mirrors_step (h : c.core.Mirrors d.core) (hnames : (c.columns.map Column.name).Nodup)
    {s s' : Step} (hs : Rearranged c.columns c.spec.streaming.mode s s') :
    (c.step s).1.core.Mirrors (d.step s').1.core ∧
      Result.Rel StepResult.Same (c.step s).2 (d.step s').2 := by
  rw [core_step, core_step, Core.step, Core.step]
  cases hs with
  | same => exact ⟨h.apply (h.effect s), result_mirrors h s⟩
  | @source rows given batch isLive items order horder hrows hgiven hbatch =>
    -- the rearranged source can be built, and its batch comes to the same
    have hsource : Source.ofValues given batch isLive
        = .ok ⟨rearrange order c.columns, items.map (rearrangeRow order), isLive⟩ := by
      rw [Source.ofValues, hgiven, hbatch]
      rfl
    have hsame := SameBatch.rearrange horder hnames items
    constructor
    · have heffect := Core.effect_taking (k := c.core) hrows isLive
      have hclosed : c.core.closed = d.core.closed := h.closed
      rw [show c.core.spec = c.spec from rfl] at heffect
      rw [heffect, d.core.effect_ingest hsource, hclosed]
      apply h.apply
      split_ifs
      · exact .nothing
      · exact h.ingestEffect hsame
    · have hclosed : c.closed = d.closed := h.closed
      have hcounts : (c.ingest ⟨c.columns, items, isLive⟩).2
          = (d.ingest ⟨rearrange order c.columns, items.map (rearrangeRow order), isLive⟩).2 :=
        counts_ingest_eq h hsame
      rw [result_taking hrows isLive, d.result_ingest hsource, hclosed, hcounts]
      split_ifs
      · exact .error _
      · exact .ok (.counts _)

/-- A step keeps the columns and the mode. -/
theorem step_columns_mode (c : Controller) (s : Step) :
    (c.step s).1.columns = c.columns ∧
      (c.step s).1.spec.streaming.mode = c.spec.streaming.mode := by
  have hstore : (c.step s).1.core.store
      = { c.core.store with buffer := (c.core.effect s).rowsAfter c.core.buffer } := by
    rw [core_step, Core.step, Core.apply_store]
  obtain ⟨hcolumns, hmode, -⟩ := Store.mk.inj hstore
  exact ⟨hcolumns, hmode⟩

/-- What the steps of a run give back. -/
def results (c : Controller) : List Step → List (Result StepResult)
  | [] => []
  | s :: steps => (c.step s).2 :: (c.step s).1.results steps

/-- Runs of steps that come to the same keep controllers the same, and give back the same. -/
theorem mirrors_run (h : c.core.Mirrors d.core) (hnames : (c.columns.map Column.name).Nodup)
    {steps steps' : List Step}
    (hsteps : List.Forall₂ (Rearranged c.columns c.spec.streaming.mode) steps steps') :
    (c.run steps).core.Mirrors (d.run steps').core ∧
      List.Forall₂ (Result.Rel StepResult.Same) (c.results steps) (d.results steps') := by
  induction steps generalizing c d steps' with
  | nil =>
    cases hsteps
    exact ⟨h, .nil⟩
  | cons s steps ih =>
    obtain ⟨s', rest', hs, hrest, rfl⟩ := List.forall₂_cons_left_iff.1 hsteps
    obtain ⟨hnext, hresult⟩ := mirrors_step h hnames hs
    obtain ⟨hcolumns, hmode⟩ := step_columns_mode c s
    rw [← hcolumns] at hnames
    rw [← hcolumns, ← hmode] at hrest
    obtain ⟨hrun, hresults⟩ := ih hnext hnames hrest
    exact ⟨hrun, .cons hresult hresults⟩

/-- **To take in a source with the columns in another order comes to the same as to change the rows
as the mode says.**  Take a controller in whatever state whose columns have distinct names, and two
runs that differ in this: where one appends or replaces rows, as the mode says, the other takes in a
source that lists the columns in another order and has the positional rows of the right length
written in that order, and all others as they are.  Then the rows are equal as mappings, one by one,
the frames that were delivered are the same, and so is what every step gave back. -/
theorem run_rearranged (c : Controller) (hnames : (c.columns.map Column.name).Nodup)
    {steps steps' : List Step}
    (hsteps : List.Forall₂ (Rearranged c.columns c.spec.streaming.mode) steps steps') :
    List.Forall₂ Row.SameFields (c.run steps).buffer.rows (c.run steps').buffer.rows ∧
      List.Forall₂ Delivery.Same (c.run steps).deliveries (c.run steps').deliveries ∧
      List.Forall₂ (Result.Rel StepResult.Same) (c.results steps) (c.results steps') := by
  obtain ⟨hrun, hresults⟩ := mirrors_run (.refl c.core) hnames hsteps
  exact ⟨hrun.buffer.rows, hrun.deliveries, hresults⟩

/-- A controller of two columns. -/
def pairController : Controller :=
  plainSetup.controller [⟨"t", .int64, false⟩, ⟨"v", .float64, false⟩] plainSpec

/-- The two columns the other way round, as a source lists them. -/
def swappedColumns : Value :=
  .list [.dict [(.text "name", .text "v"), (.text "type", .text "float64")],
    .dict [(.text "name", .text "t"), (.text "type", .text "int64")]]

/-- Two positional rows around a keyed one and a text. -/
def orderedBatch : List Value :=
  [.list [.int 1, .double (.ofNat 5)], .dict [(.text "v", .double (.ofNat 6))], .text "t",
    .tuple [.int 2, .double (.ofNat 7)]]

/-- A batch arrives with the two columns the other way round, and a timer ticks. -/
theorem run_rearranged_swapped :
    (pairController.columns.map Column.name).Nodup ∧
      List.Forall₂ Row.SameFields
        (pairController.run [.append (.list orderedBatch), .tick 0]).buffer.rows
        (pairController.run [.ingest swappedColumns
          (.list (orderedBatch.map (rearrangeRow [1, 0]))) .null, .tick 0]).buffer.rows ∧
      List.Forall₂ Delivery.Same
        (pairController.run [.append (.list orderedBatch), .tick 0]).deliveries
        (pairController.run [.ingest swappedColumns
          (.list (orderedBatch.map (rearrangeRow [1, 0]))) .null, .tick 0]).deliveries ∧
      List.Forall₂ (Result.Rel StepResult.Same)
        (pairController.results [.append (.list orderedBatch), .tick 0])
        (pairController.results [.ingest swappedColumns
          (.list (orderedBatch.map (rearrangeRow [1, 0]))) .null, .tick 0]) := by
  have hnames : (pairController.columns.map Column.name).Nodup := by decide
  have horder : [1, 0].Perm (List.range pairController.columns.length) := by decide
  have hsource : Rearranged pairController.columns pairController.spec.streaming.mode
      (.append (.list orderedBatch))
      (.ingest swappedColumns (.list (orderedBatch.map (rearrangeRow [1, 0]))) .null) :=
    .source horder rfl rfl rfl
  exact ⟨hnames, run_rearranged pairController hnames (.cons hsource (.cons (.same _) .nil))⟩

end Controller

end LiveChart
