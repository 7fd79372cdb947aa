import LiveChart.Temporal.View
import LiveChart.Proofs.Number.Monotone
/-!
# Reading the rows of a view

Where the time of every row can be read, the view of a snapshot does not fail, and it is chosen by
the times and the keys of the rows alone.

* `Binding.Reads` and `Binding.Dates` : a binding can read the time of a row, a finite one;
* `Binding.select` : the items that a binding chooses by times and keys;
* `viewOf_of_reads` : the view of rows with times that can be read is what the binding selects;
* `Range.zero_le_window` : no window has a length below zero.
-/

namespace LiveChart

variable {α β : Type}

/-! ## Results of lists -/

/-- Where a function always succeeds, so does it on a whole list. -/
theorem mapM_eq_ok {f : α → Result β} {g : α → β} {l : List α} (h : ∀ a ∈ l, f a = .ok (g a)) :
    l.mapM f = .ok (l.map g) := by
  induction l with
  | nil => rfl
  | cons a l ih =>
    rw [List.mapM_cons, h a List.mem_cons_self, ih fun b hb => h b (List.mem_cons_of_mem _ hb)]
    rfl

/-! ## Windows -/

/-- No window has a length below zero. -/
theorem Range.zero_le_window {range : Range} {window : Double} (h : range.window? = some window) :
    Double.zero.le window = true := by
  cases range with
  | infinite => cases h
  | minutes length nonneg =>
    obtain rfl := Option.some.inj h
    exact Double.zero_le_mul nonneg (by decide +kernel) (by decide +kernel)

/-! ## Times and keys of rows -/

/-- A time that is kept as finite is finite. -/
theorem isFinite_of_finite? {x y : Double} (h : finite? x = some y) : y.isFinite = true := by
  unfold finite? at h
  split_ifs at h with hx
  rw [← Option.some.inj h]
  exact hx

namespace Binding

/-- The field that a bound binding reads times from. -/
def clock? (b : Binding) : Option Value :=
  b.field.bind fun field =>
    match b.mode with
    | .axis | .frame => some (.text field.first)
    | .key => b.orderField

/-- The time that a binding reads from a row, if it can. -/
def timeOf (b : Binding) (row : Row) : Option Double :=
  b.clock?.bind fun field => (stampOf field (.dict row)).toOption.join

/-- The key that a binding reads from a row. -/
def rowKey (b : Binding) (row : Row) : List Key :=
  b.keyFields.map fun name => (Entries.field? name row).elim .undefined Value.freeze

/-- A binding can read the time of a row, whatever it is. -/
def Reads (b : Binding) (row : Row) : Prop :=
  ∀ field, b.clock? = some field → ∃ time, stampOf field (.dict row) = .ok time

/-- A binding can read the time of a row, which is a finite number or missing. -/
def Dates (b : Binding) (row : Row) : Prop :=
  ∀ field, b.clock? = some field → ∃ time, stampOf field (.dict row) = .ok time ∧
    ∀ x, time = some x → x.isFinite = true

variable {b : Binding} {row : Row}

/-- A time that can be read is the one that is read. -/
theorem Reads.stampOf_eq (h : b.Reads row) {field : Value} (hfield : b.clock? = some field) :
    stampOf field (.dict row) = .ok (b.timeOf row) := by
  obtain ⟨time, htime⟩ := h field hfield
  rw [timeOf, hfield, Option.bind_some, htime]
  rfl

/-- A finite time can be read. -/
theorem Dates.reads (h : b.Dates row) : b.Reads row := fun field hfield =>
  (h field hfield).imp fun _ => And.left

/-- A time that is read is finite. -/
theorem Dates.isFinite (h : b.Dates row) {x : Double} (hx : b.timeOf row = some x) :
    x.isFinite = true := by
  obtain ⟨field, hfield, -⟩ := Option.bind_eq_some_iff.1 hx
  obtain ⟨time, htime, hfinite⟩ := h field hfield
  have hread := h.reads.stampOf_eq hfield
  rw [htime, Except.ok.injEq] at hread
  exact hfinite x (hread.trans hx)

/-- The key of a row can always be read. -/
theorem keyOf_dict (b : Binding) (row : Row) : keyOf b.keyFields (.dict row) = .ok (b.rowKey row) :=
  mapM_eq_ok fun _ _ => rfl

/-! ## What a binding selects -/

/-- The items that a binding chooses by their times and their keys. -/
def select (b : Binding) (time : α → Option Double) (key : α → List Key) (items : List α) :
    List α :=
  match b.mode with
  | .axis => axisView b.range (items.map fun a => (time a, a))
  | .frame => frameView (items.map fun a => (time a, a))
  | .key =>
    if b.orderField.isNone then latestPerKey (items.map fun a => (key a, a))
    else newestPerKey (items.map fun a => (key a, time a, a))

/-- Of no items a binding selects none. -/
theorem select_nil (b : Binding) (time : α → Option Double) (key : α → List Key) :
    b.select time key [] = [] := by
  unfold select
  cases b.mode with
  | axis =>
    show axisView b.range [] = []
    unfold axisView
    cases b.range.window? with
    | none => simp [stampedOnly, unstampedOnly, inOrder]
    | some window => rfl
  | frame => rfl
  | key => split_ifs <;> rfl

end Binding

/-- Items with the times of their rows, which can all be read. -/
theorem withStamps_of_reads {b : Binding} {field : Value} (hfield : b.clock? = some field)
    (rowOf : α → Row) {items : List α} (h : ∀ a ∈ items, b.Reads (rowOf a)) :
    withStamps (fun a => .dict (rowOf a)) field items
      = .ok (items.map fun a => (b.timeOf (rowOf a), a)) := by
  refine mapM_eq_ok fun a ha => ?_
  rw [(h a ha).stampOf_eq hfield]
  rfl

/-- Items with the keys of their rows. -/
theorem withKeys_eq_ok (b : Binding) (rowOf : α → Row) (items : List α) :
    withKeys (fun a => .dict (rowOf a)) b.keyFields items
      = .ok (items.map fun a => (b.rowKey (rowOf a), a)) := by
  refine mapM_eq_ok fun a _ => ?_
  rw [b.keyOf_dict]
  rfl

/-- **The view of rows with times that can be read is what the binding selects.** -/
theorem viewOf_of_reads {b : Binding} (hbound : b.isBound = true) (rowOf : α → Row)
    {items : List α} (h : ∀ a ∈ items, b.Reads (rowOf a)) :
    viewOf (fun a => .dict (rowOf a)) (some b) items
      = .ok (b.select (fun a => b.timeOf (rowOf a)) (fun a => b.rowKey (rowOf a)) items) := by
  obtain ⟨field, hfield⟩ := Option.isSome_iff_exists.1 hbound
  have hkeys : field.toList = b.keyFields := by rw [Binding.keyFields, hfield]
  unfold viewOf
  simp only [hfield]
  cases items with
  | nil => rw [Binding.select_nil]; rfl
  | cons a items =>
    show boundView (fun a => .dict (rowOf a)) b field (a :: items) = _
    unfold boundView Binding.select
    cases hmode : b.mode with
    | axis =>
      have hclock : b.clock? = some (.text field.first) := by simp [Binding.clock?, hfield, hmode]
      simp only [withStamps_of_reads hclock rowOf h]
      rfl
    | frame =>
      have hclock : b.clock? = some (.text field.first) := by simp [Binding.clock?, hfield, hmode]
      simp only [withStamps_of_reads hclock rowOf h]
      rfl
    | key =>
      cases horder : b.orderField with
      | none =>
        simp only [hkeys, withKeys_eq_ok]
        rfl
      | some order =>
        have hclock : b.clock? = some order := by simp [Binding.clock?, hfield, hmode, horder]
        -- here the keys are read from rows that already have their times
        have hread := withKeys_eq_ok b (fun p : Stamped α => rowOf p.2)
          ((a :: items).map fun a => (b.timeOf (rowOf a), a))
        simp only [withStamps_of_reads hclock rowOf h, hkeys]
        rw [List.map_map] at hread
        show (withKeys _ b.keyFields _ >>= fun keyed => pure (newestPerKey keyed)) = _
        rw [hread]
        rfl

/-- The view of rows with times that are finite numbers or missing is what the binding selects. -/
theorem viewOf_eq_ok {b : Binding} (hbound : b.isBound = true) (rowOf : α → Row) {items : List α}
    (h : ∀ a ∈ items, b.Dates (rowOf a)) :
    viewOf (fun a => .dict (rowOf a)) (some b) items
      = .ok (b.select (fun a => b.timeOf (rowOf a)) (fun a => b.rowKey (rowOf a)) items) :=
  viewOf_of_reads hbound rowOf fun a ha => (h a ha).reads

end LiveChart
