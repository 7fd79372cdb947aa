import LiveChart.Value.Basic
import LiveChart.Error
import LiveChart.Log
/-!
# Bounded buffers

A buffer keeps the last rows of a stream, as many as its capacity allows, in the order of arrival.
The oldest rows leave first, one after another.

* `evict_eq` : what stays when the oldest rows have left is the last rows;
* `append_rows` : after an append the buffer holds the last rows of its old rows and the batch;
* `length_rows_le` : a buffer holds no more rows than its capacity.
-/

namespace LiveChart

/-- The last `n` items of a list. -/
def lastN {α : Type} (n : Nat) (xs : List α) : List α := xs.drop (xs.length - n)

/-- There are at most `n` last items. -/
theorem length_lastN_le {α : Type} (n : Nat) (xs : List α) : (lastN n xs).length ≤ n := by
  simp only [lastN, List.length_drop]
  omega

/-- The capacity that a value gives: a positive whole number, and no truth value. -/
def capacityOf (v : Value) : Result { n : Nat // 0 < n } :=
  match v with
  | .int n => if h : 0 < n.toNat then .ok ⟨n.toNat, h⟩ else .error (.capacity v)
  | v => .error (.capacity v)

/-- A store of at most `capacity` rows, in the order of arrival. -/
structure Buffer (α : Type) where
  capacity : Nat
  rows : List α
  capacity_pos : 0 < capacity
  length_rows_le : rows.length ≤ capacity

namespace Buffer

variable {α : Type}

/-- An empty buffer. -/
def empty (capacity : Nat) (h : 0 < capacity) : Buffer α := ⟨capacity, [], h, Nat.zero_le _⟩

/-- An empty buffer with the capacity that a value gives. -/
def ofValue (v : Value) : Result (Buffer α) := do
  let ⟨capacity, h⟩ ← capacityOf v
  return empty capacity h

/-- Rows leave at the front, one by one, while there are more of them than the capacity; what stays,
and how many have left, counted on from those before. -/
def evict (capacity : Nat) : List α → Nat → List α × Nat
  | row :: rows, evicted =>
    if capacity < (row :: rows).length then evict capacity rows (evicted + 1)
    else (row :: rows, evicted)
  | [], evicted => ([], evicted)

/-- The last rows stay, and as many leave as there are too many. -/
theorem evict_eq (capacity : Nat) (rows : List α) (evicted : Nat) :
    evict capacity rows evicted = (lastN capacity rows, evicted + (rows.length - capacity)) := by
  induction rows generalizing evicted with
  | nil => simp [evict, lastN]
  | cons row rows ih =>
    rw [evict]
    split
    · next h =>
      have hlength : (row :: rows).length - capacity = (rows.length - capacity) + 1 := by
        rw [List.length_cons] at h ⊢
        omega
      rw [ih, lastN, lastN, hlength, List.drop_succ_cons, Nat.add_right_comm, Nat.add_assoc]
    · next h =>
      have hlength : (row :: rows).length - capacity = 0 := by omega
      rw [lastN, hlength, List.drop_zero, Nat.add_zero]

/-- The buffer with a batch at its end; the oldest rows beyond its capacity leave. -/
def append (b : Buffer α) (batch : List α) : Buffer α :=
  { b with
    rows := (evict b.capacity (b.rows ++ batch) 0).1
    length_rows_le := by rw [evict_eq]; exact length_lastN_le _ _ }

/-- How many rows leave when a batch is appended. -/
def appendEvicts (b : Buffer α) (batch : List α) : Nat :=
  (evict b.capacity (b.rows ++ batch) 0).2

/-- How many rows of a batch are not kept when it takes the place of all rows. -/
def replaceDrops (b : Buffer α) (batch : List α) : Nat := batch.length - b.capacity

/-- The buffer with a batch in place of its rows, or with the end of a batch that is too long. -/
def replace (b : Buffer α) (batch : List α) : Buffer α :=
  { b with
    rows := batch.drop (b.replaceDrops batch)
    length_rows_le := length_lastN_le _ _ }

/-- The buffer without rows. -/
def clear (b : Buffer α) : Buffer α := { b with rows := [], length_rows_le := Nat.zero_le _ }

/-- What is reported of rows that leave. -/
def evictionLines (b : Buffer α) (evicted : Nat) : List Log.Line :=
  if evicted = 0 then []
  else
    [⟨.debug, .buffer, "evicted " ++ toString evicted ++ " rows (max_items=" ++
      toString b.capacity ++ ")"⟩]

/-- A buffer's size and capacity, in words. -/
def describe (b : Buffer α) : String :=
  "BoundedStreamBuffer(len=" ++ toString b.rows.length ++ ", max_items=" ++
    toString b.capacity ++ ")"

/-! ## What the operations do to the rows -/

@[simp] theorem append_rows (b : Buffer α) (batch : List α) :
    (b.append batch).rows = lastN b.capacity (b.rows ++ batch) :=
  congrArg Prod.fst (evict_eq ..)

/-- As many rows leave as there are too many. -/
theorem appendEvicts_eq (b : Buffer α) (batch : List α) :
    b.appendEvicts batch = b.rows.length + batch.length - b.capacity := by
  rw [appendEvicts, evict_eq, List.length_append, Nat.zero_add]

@[simp] theorem replace_rows (b : Buffer α) (batch : List α) :
    (b.replace batch).rows = lastN b.capacity batch := rfl

@[simp] theorem clear_rows (b : Buffer α) : b.clear.rows = [] := rfl

@[simp] theorem append_capacity (b : Buffer α) (batch : List α) :
    (b.append batch).capacity = b.capacity := rfl

@[simp] theorem replace_capacity (b : Buffer α) (batch : List α) :
    (b.replace batch).capacity = b.capacity := rfl

@[simp] theorem clear_capacity (b : Buffer α) : b.clear.capacity = b.capacity := rfl

end Buffer

end LiveChart
