import LiveChart.Stream.Buffer
import Mathlib.Algebra.Order.Ring.Int
import Mathlib.Data.List.Basic
/-!
# What a buffer keeps

A buffer is the end of a log without bounds.  The log takes in every batch, begins anew with a batch
that replaces the rows, and is empty after they were cleared; the buffer holds its last rows, as
many as the capacity allows, though it lets them go one by one on every append.

* `lastN_append_lastN` : the last items of a longer list need no more than the last items before;
* `Buffer.Change` and `Buffer.Change.log` : the changes of a buffer, and the log they leave behind;
* `Buffer.Change.log_append_appends` : the log holds the batches since it was begun anew;
* `Buffer.rows_change` : every change keeps the buffer at the end of the log;
* `Buffer.rows_run` : every run keeps the buffer at the end of the log.
-/

namespace LiveChart

variable {α : Type}

/-! ## The last items of a list -/

@[simp] theorem lastN_nil (n : ℕ) : lastN n ([] : List α) = [] := List.drop_nil

/-- The last items are an end of the list. -/
theorem lastN_suffix (n : ℕ) (xs : List α) : lastN n xs <:+ xs := List.drop_suffix ..

/-- There are as many last items as asked for, or all there are. -/
theorem length_lastN (n : ℕ) (xs : List α) : (lastN n xs).length = min n xs.length := by
  rw [lastN, List.length_drop]
  omega

/-- A list that is short enough is kept whole. -/
theorem lastN_of_length_le {n : ℕ} {xs : List α} (h : xs.length ≤ n) : lastN n xs = xs := by
  rw [lastN, Nat.sub_eq_zero_of_le h, List.drop_zero]

/-- The last items of an appended list are in it, if it is long enough. -/
theorem lastN_append_of_le {n : ℕ} (xs : List α) {ys : List α} (h : n ≤ ys.length) :
    lastN n (xs ++ ys) = lastN n ys := by
  have hlength : (xs ++ ys).length - n = xs.length + (ys.length - n) := by
    rw [List.length_append]
    omega
  rw [lastN, hlength, List.drop_length_add_append, lastN]

/-- The last item of a list is the last of its last items. -/
theorem getLast?_lastN {n : ℕ} (hn : 0 < n) (xs : List α) :
    (lastN n xs).getLast? = xs.getLast? := by
  cases xs with
  | nil => rw [lastN_nil]
  | cons x xs =>
    have hkeeps : ¬(x :: xs).length ≤ (x :: xs).length - n := by
      rw [List.length_cons]
      omega
    rw [lastN, List.getLast?_drop, if_neg hkeeps]

/-- **The last items of a longer list need no more than the last items before.** -/
theorem lastN_append_lastN (n : ℕ) (xs ys : List α) :
    lastN n (lastN n xs ++ ys) = lastN n (xs ++ ys) := by
  by_cases h : xs.length ≤ n
  · rw [lastN_of_length_le h]
  · -- what was left out comes before `n` items that stay
    have hsplit : xs ++ ys = xs.take (xs.length - n) ++ (lastN n xs ++ ys) := by
      rw [← List.append_assoc, lastN, List.take_append_drop]
    have hlength : n ≤ (lastN n xs ++ ys).length := by
      rw [List.length_append, length_lastN]
      omega
    rw [hsplit, lastN_append_of_le _ hlength]

namespace Buffer

/-! ## Changes and their log -/

/-- A change of the contents of a buffer. -/
inductive Change (α : Type) where
  | append (batch : List α)
  | replace (batch : List α)
  | clear
  deriving Repr, DecidableEq

namespace Change

/-- The log after a change: what was given since it was last begun anew, one batch after another. -/
def extend (log : List α) : Change α → List α
  | append batch => log ++ batch
  | replace batch => batch
  | clear => []

/-- The log that some changes leave behind. -/
def log (changes : List (Change α)) : List α := changes.foldl extend []

/-- The log of some changes and one more. -/
theorem log_concat (changes : List (Change α)) (c : Change α) :
    log (changes ++ [c]) = extend (log changes) c := by
  rw [log, List.foldl_append]
  rfl

/-- **The log holds the batches given since it was last begun anew**, one after another. -/
theorem log_append_appends (changes : List (Change α)) (batches : List (List α)) :
    log (changes ++ batches.map append) = log changes ++ batches.flatten := by
  induction batches generalizing changes with
  | nil => simp
  | cons batch batches ih =>
    have hsplit : changes ++ (batch :: batches).map append
        = (changes ++ [append batch]) ++ batches.map append := by simp
    rw [hsplit, ih, log_concat, extend, List.flatten_cons, List.append_assoc]

end Change

/-- A buffer after a change. -/
def change (b : Buffer α) : Change α → Buffer α
  | .append batch => b.append batch
  | .replace batch => b.replace batch
  | .clear => b.clear

/-- A buffer after some changes. -/
def run (b : Buffer α) (changes : List (Change α)) : Buffer α := changes.foldl change b

@[simp] theorem change_capacity (b : Buffer α) (c : Change α) :
    (b.change c).capacity = b.capacity := by
  cases c <;> rfl

@[simp] theorem run_capacity (b : Buffer α) (changes : List (Change α)) :
    (b.run changes).capacity = b.capacity := by
  induction changes generalizing b with
  | nil => rfl
  | cons c changes ih => exact (ih (b.change c)).trans (b.change_capacity c)

/-- **A change keeps a buffer at the end of the log.** -/
theorem rows_change {b : Buffer α} {log : List α} (h : b.rows = lastN b.capacity log)
    (c : Change α) : (b.change c).rows = lastN b.capacity (c.extend log) := by
  cases c with
  | append batch =>
    show (b.append batch).rows = lastN b.capacity (log ++ batch)
    rw [append_rows, h, lastN_append_lastN]
  | replace batch => rfl
  | clear => exact (lastN_nil _).symm

/-- **A run keeps a buffer at the end of the log.** -/
theorem rows_run {b : Buffer α} {log : List α} (h : b.rows = lastN b.capacity log)
    (changes : List (Change α)) :
    (b.run changes).rows = lastN b.capacity (changes.foldl Change.extend log) := by
  induction changes generalizing b log with
  | nil => exact h
  | cons c changes ih =>
    have hnext : (b.change c).rows = lastN (b.change c).capacity (c.extend log) := by
      rw [change_capacity, rows_change h]
    have hrun := ih hnext
    rw [change_capacity] at hrun
    exact hrun

/-! ## What leaves -/

/-- One batch in two parts has the same rows leave. -/
theorem appendEvicts_append (b : Buffer α) (batch later : List α) :
    b.appendEvicts (batch ++ later)
      = b.appendEvicts batch + (b.append batch).appendEvicts later := by
  have hle := b.length_rows_le
  rw [appendEvicts_eq, appendEvicts_eq, appendEvicts_eq, append_rows, append_capacity,
    length_lastN, List.length_append, List.length_append]
  omega

/-- One batch in two parts leaves the same rows. -/
theorem append_append_rows (b : Buffer α) (batch later : List α) :
    (b.append (batch ++ later)).rows = ((b.append batch).append later).rows := by
  rw [append_rows, append_rows, append_capacity, append_rows, lastN_append_lastN,
    List.append_assoc]

/-- **A buffer is the end of its log.**  After any changes an initially empty buffer holds the last
rows of the log, no more than its capacity; an append has as many rows leave as there are too many,
and a replacement keeps as many of its batch as fit.  So a batch can be appended in two parts, and
to replace the rows is to clear them and append. -/
theorem run_isLog (capacity : ℕ) (hcapacity : 0 < capacity) (changes : List (Change α))
    (batch later : List α) :
    let b := (empty capacity hcapacity).run changes
    b.rows = lastN capacity (Change.log changes) ∧ b.rows.length ≤ capacity ∧
      (b.appendEvicts batch : ℤ) = max 0 (b.rows.length + batch.length - capacity : ℤ) ∧
      (b.replaceDrops batch : ℤ) = max 0 (batch.length - capacity : ℤ) ∧
      ((b.append (batch ++ later)).rows = ((b.append batch).append later).rows ∧
        b.appendEvicts (batch ++ later)
          = b.appendEvicts batch + (b.append batch).appendEvicts later) ∧
      (b.replace batch).rows = (b.clear.append batch).rows ∧
      b.replaceDrops batch = b.clear.appendEvicts batch := by
  intro b
  have hb : b.capacity = capacity := run_capacity ..
  -- the run lemma holds from any buffer that is the end of a log, as the empty one is
  have hrows : b.rows = lastN capacity (Change.log changes) :=
    rows_run (b := empty capacity hcapacity) (lastN_nil _).symm changes
  refine ⟨hrows, ?_, ?_, ?_, ⟨b.append_append_rows batch later, b.appendEvicts_append batch later⟩,
    ?_, ?_⟩
  · rw [hrows]
    exact length_lastN_le ..
  · rw [appendEvicts_eq, hb]
    omega
  · rw [replaceDrops, hb]
    omega
  · rw [replace_rows, append_rows, clear_rows, clear_capacity, List.nil_append]
  · rw [appendEvicts_eq, clear_rows, clear_capacity, List.length_nil, Nat.zero_add]
    rfl

/-- Batches that are too long, before and after the rows were cleared and replaced. -/
theorem run_isLog_overflowing :
    let changes := [.append [1, 2, 3], .clear, .append [4], .replace [5, 6, 7], .append [8]]
    let b := (empty 2 (by decide)).run changes
    0 < 2 ∧ b.rows = lastN 2 (Change.log changes) ∧ b.rows.length ≤ 2 ∧
      (b.appendEvicts [9] : ℤ) = max 0 (b.rows.length + [9].length - (2 : ℕ) : ℤ) ∧
      (b.replaceDrops [9] : ℤ) = max 0 ([9].length - (2 : ℕ) : ℤ) ∧
      ((b.append ([9] ++ [10, 11, 12])).rows = ((b.append [9]).append [10, 11, 12]).rows ∧
        b.appendEvicts ([9] ++ [10, 11, 12])
          = b.appendEvicts [9] + (b.append [9]).appendEvicts [10, 11, 12]) ∧
      (b.replace [9]).rows = (b.clear.append [9]).rows ∧
      b.replaceDrops [9] = b.clear.appendEvicts [9] :=
  ⟨by decide, run_isLog 2 (by decide) _ [9] [10, 11, 12]⟩

end Buffer

end LiveChart
