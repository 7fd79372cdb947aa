import LiveChart.Proofs.Stream.Independence
import LiveChart.Proofs.Stream.Retention
/-!
# Counts and rows balance

Whatever is taken in is accounted for.  Every row of a batch is accepted or rejected, and the rows
that leave are counted: an append counts those that left the buffer, and a replacement those of its
own batch that it could not keep, which it does not count as accepted.  The rows that are kept are
the last ones of what there is to keep.

* `Normalized` : the canonical forms of a batch, row by row, and how many rows have none;
* `Appended` and `Replaced` : how counts and rows balance;
* `Core.capacity_run` : a controller keeps its capacity;
* `Controller.Balanced` : the counts and the rows of every batch that is taken in balance;
* `Setup.balanced_run` : every open controller is balanced, after every run.
-/

namespace LiveChart

/-! ## Batches -/

/-- The canonical forms of the rows of a batch that have one, in order, and the number of the rows
that have none. -/
inductive Normalized (columns : List Column) : List Value → List Row → ℕ → Prop where
  | nil : Normalized columns [] [] 0
  | accept {item : Value} {row : Row} {items : List Value} {rows : List Row} {n : ℕ}
      (h : normalize columns item = .ok row) (rest : Normalized columns items rows n) :
      Normalized columns (item :: items) (row :: rows) n
  | reject {item : Value} {e : Error} {items : List Value} {rows : List Row} {n : ℕ}
      (h : normalize columns item = .error e) (rest : Normalized columns items rows n) :
      Normalized columns (item :: items) rows (n + 1)

/-- A batch is treated row by row. -/
theorem normalized_accepted (columns : List Column) (items : List Value) :
    Normalized columns items (accepted columns items) (rejected columns items) := by
  induction items with
  | nil => exact .nil
  | cons item items ih =>
    cases h : normalize columns item with
    | ok row =>
      have haccepted : accepted columns (item :: items) = row :: accepted columns items :=
        List.filterMap_cons_some (by rw [h]; rfl)
      have hrejected : rejected columns (item :: items) = rejected columns items :=
        List.countP_cons_of_neg (by rw [h]; exact Bool.false_ne_true)
      rw [haccepted, hrejected]
      exact .accept h ih
    | error e =>
      have haccepted : accepted columns (item :: items) = accepted columns items :=
        List.filterMap_cons_none (by rw [h]; rfl)
      have hrejected : rejected columns (item :: items) = rejected columns items + 1 :=
        List.countP_cons_of_pos (by rw [h]; rfl)
      rw [haccepted, hrejected]
      exact .reject h ih

/-- **Every row of a batch has a canonical form or is one of those that have none.** -/
theorem Normalized.length_eq {columns : List Column} {items : List Value} {rows : List Row} {n : ℕ}
    (h : Normalized columns items rows n) : rows.length + n = items.length := by
  induction h with
  | nil => rfl
  | accept _ _ ih =>
    rw [List.length_cons, List.length_cons]
    omega
  | reject _ _ ih =>
    rw [List.length_cons]
    omega

/-! ## Balance -/

/-- A batch was appended to the rows before it, of which with the batch the last are kept. -/
structure Appended (capacity : ℕ) (columns : List Column) (items : List Value)
    (before after : List Row) (counts : Counts) : Prop where
  every : counts.accepted + counts.rejected = items.length
  length : (after.length : ℤ) = before.length + counts.accepted - counts.evicted
  evicted : (counts.evicted : ℤ) = max 0 (before.length + counts.accepted - capacity)
  rows : ∃ batch, Normalized columns items batch counts.rejected ∧
    after = lastN capacity (before ++ batch)

/-- A batch took the place of all rows, and its last are kept. -/
structure Replaced (capacity : ℕ) (columns : List Column) (items : List Value) (after : List Row)
    (counts : Counts) : Prop where
  every : counts.accepted + counts.rejected + counts.evicted = items.length
  length : after.length = counts.accepted
  fits : counts.accepted ≤ capacity
  rows : ∃ batch, Normalized columns items batch counts.rejected ∧ after = lastN capacity batch

namespace Controller

variable {c : Controller}

/-- **To append a batch balances.** -/
theorem appended_appendBatch (c : Controller) (columns : List Column) (items : List Value) :
    Appended c.buffer.capacity columns items c.buffer.rows
      (c.buffer.append (accepted columns items)).rows (c.appendBatch columns items).2 := by
  have hbatch := normalized_accepted columns items
  have hfits := c.buffer.length_rows_le
  rw [counts_appendBatch, Buffer.append_rows, Buffer.appendEvicts_eq]
  constructor
  case every => exact hbatch.length_eq
  case length =>
    rw [length_lastN, List.length_append]
    dsimp only
    omega
  case evicted =>
    dsimp only
    omega
  case rows => exact ⟨_, hbatch, rfl⟩

/-- **To replace the rows by a batch balances.** -/
theorem replaced_replaceBatch (c : Controller) (columns : List Column) (items : List Value) :
    Replaced c.buffer.capacity columns items (c.buffer.replace (accepted columns items)).rows
      (c.replaceBatch columns items).2 := by
  have hbatch := normalized_accepted columns items
  have hlength := hbatch.length_eq
  rw [counts_replaceBatch, Buffer.replace_rows, Buffer.replaceDrops]
  constructor
  case every =>
    dsimp only
    omega
  case length =>
    rw [length_lastN]
    dsimp only
    omega
  case fits =>
    dsimp only
    omega
  case rows => exact ⟨_, hbatch, rfl⟩

/-! ## Steps that take in rows -/

/-- The counts and the rows of every batch that is taken in balance. -/
structure Balanced (c : Controller) (capacity : ℕ) : Prop where
  append : ∀ rows items, rows.elements = .ok items →
    ∃ counts, (c.step (.append rows)).2 = .ok (.counts counts) ∧
      Appended capacity c.columns items c.buffer.rows (c.step (.append rows)).1.buffer.rows counts
  replace : ∀ rows items, rows.elements = .ok items →
    ∃ counts, (c.step (.replace rows)).2 = .ok (.counts counts) ∧
      Replaced capacity c.columns items (c.step (.replace rows)).1.buffer.rows counts
  ingest : ∀ columns rows isLive source, Source.ofValues columns rows isLive = .ok source →
    ∃ counts, (c.step (.ingest columns rows isLive)).2 = .ok (.counts counts) ∧
      match c.spec.streaming.mode with
      | .append => Appended capacity source.columns source.rows c.buffer.rows
          (c.step (.ingest columns rows isLive)).1.buffer.rows counts
      | .replace => Replaced capacity source.columns source.rows
          (c.step (.ingest columns rows isLive)).1.buffer.rows counts

/-- **The batches of an open controller balance.** -/
theorem balanced (hopen : c.closed = false) : c.Balanced c.buffer.capacity := by
  have hcore : c.core.closed = false := hopen
  -- in each case the rows are those of the effect, and the counts those of the batch
  constructor
  case append =>
    intro rows items hrows
    have hbuffer : (c.step (.append rows)).1.buffer
        = c.buffer.append (accepted c.columns items) := by
      rw [buffer_step, c.core.effect_append hrows, hcore]
      rfl
    have hresult : (c.step (.append rows)).2
        = .ok (.counts (c.appendBatch c.columns items).2) := by
      rw [c.result_append hrows, hopen]
      rfl
    rw [hbuffer]
    exact ⟨_, hresult, c.appended_appendBatch c.columns items⟩
  case replace =>
    intro rows items hrows
    have hbuffer : (c.step (.replace rows)).1.buffer
        = c.buffer.replace (accepted c.columns items) := by
      rw [buffer_step, c.core.effect_replace hrows, hcore]
      rfl
    have hresult : (c.step (.replace rows)).2
        = .ok (.counts (c.replaceBatch c.columns items).2) := by
      rw [c.result_replace hrows, hopen]
      rfl
    rw [hbuffer]
    exact ⟨_, hresult, c.replaced_replaceBatch c.columns items⟩
  case ingest =>
    intro columns rows isLive source hsource
    have hbuffer : (c.step (.ingest columns rows isLive)).1.buffer
        = (c.core.ingestEffect source).rowsAfter c.buffer := by
      rw [buffer_step, c.core.effect_ingest hsource, hcore]
      rfl
    have hresult : (c.step (.ingest columns rows isLive)).2
        = .ok (.counts (c.ingest source).2) := by
      rw [c.result_ingest hsource, hopen]
      rfl
    have hspec : c.core.spec = c.spec := rfl
    refine ⟨_, hresult, ?_⟩
    rw [hbuffer, counts_ingest, Core.ingestEffect, hspec]
    cases c.spec.streaming.mode with
    | append => exact c.appended_appendBatch source.columns source.rows
    | replace => exact c.replaced_replaceBatch source.columns source.rows

end Controller

/-! ## Runs -/

namespace Core

/-- A step keeps the capacity. -/
theorem capacity_step (k : Core) (s : Controller.Step) :
    (k.step s).buffer.capacity = k.buffer.capacity := by
  have hstore : (k.step s).buffer = (k.effect s).rowsAfter k.buffer :=
    congrArg Store.buffer (k.apply_store (k.effect s))
  rw [hstore]
  cases s with
  | append rows => cases hclosed : k.closed <;> cases hrows : rows.elements <;>
      simp only [effect, hclosed, hrows, Effect.rowsAfter, Buffer.append_capacity]
  | replace rows => cases hclosed : k.closed <;> cases hrows : rows.elements <;>
      simp only [effect, hclosed, hrows, Effect.rowsAfter, Buffer.replace_capacity]
  | ingest columns rows isLive =>
    cases hclosed : k.closed <;> cases hsource : Source.ofValues columns rows isLive <;>
      cases hmode : k.spec.streaming.mode <;>
      simp only [effect, hclosed, hsource, ingestEffect, hmode, Effect.rowsAfter,
        Buffer.append_capacity, Buffer.replace_capacity]
  | clear => cases hclosed : k.closed <;>
      simp only [effect, hclosed, Effect.rowsAfter, Buffer.clear_capacity, if_true,
        Bool.false_eq_true, if_false]
  | _ => rfl

/-- **A run keeps the capacity.** -/
theorem capacity_run (k : Core) (steps : List Controller.Step) :
    (k.run steps).buffer.capacity = k.buffer.capacity := by
  induction steps generalizing k with
  | nil => rfl
  | cons s steps ih => exact (ih (k.step s)).trans (k.capacity_step s)

end Core

/-- **Whatever an open controller has been through, its batches balance.**  To append, and to take in
a source where the mode is to append, gives back counts of which those of the accepted and of the
rejected rows make up the batch, and as many rows leave as there are too many; the rows are then the
last of those before and of the batch.  To replace, and to take in a source where the mode is to
replace, does not count as accepted what it did not keep, and the rows are then the last of the
batch alone. -/
theorem Setup.balanced_run (setup : Setup) (columns : List Column) (spec : Spec)
    (steps : List Controller.Step)
    (hopen : ((setup.controller columns spec).run steps).closed = false) :
    ((setup.controller columns spec).run steps).Balanced spec.streaming.capacity := by
  have hcapacity := (setup.controller columns spec).core.capacity_run steps
  rw [← Controller.core_run] at hcapacity
  have hkept : ((setup.controller columns spec).run steps).buffer.capacity
      = spec.streaming.capacity := hcapacity
  rw [← hkept]
  exact Controller.balanced hopen

/-- A chart that keeps two rows. -/
def pairSpec : Spec := { marks := [], streaming := { capacity := 2, capacity_pos := Nat.two_pos } }

/-- A batch of a positional row, a text, a keyed row and a positional row that is too long. -/
def mixedBatch : Value :=
  .list [.list [.int 1], .text "v", .dict [(.text "v", .int 2)], .tuple [.int 3, .int 4]]

/-- A mixed batch arrives where some of its rows cannot be kept, and takes the place of all. -/
theorem Setup.balanced_run_mixed :
    ((plainSetup.controller [⟨"v", .int64, false⟩] pairSpec).run
        [arrival 1, .append mixedBatch, .tick 0, .replace mixedBatch]).closed = false ∧
      ((plainSetup.controller [⟨"v", .int64, false⟩] pairSpec).run
        [arrival 1, .append mixedBatch, .tick 0, .replace mixedBatch]).Balanced 2 :=
  have hopen : ((plainSetup.controller [⟨"v", .int64, false⟩] pairSpec).run
      [arrival 1, .append mixedBatch, .tick 0, .replace mixedBatch]).closed = false := by
    decide +kernel
  ⟨hopen, Setup.balanced_run plainSetup [⟨"v", .int64, false⟩] pairSpec
    [arrival 1, .append mixedBatch, .tick 0, .replace mixedBatch] hopen⟩

end LiveChart
