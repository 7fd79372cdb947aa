import LiveChart.Proofs.Number.Whole
import LiveChart.Proofs.Temporal.Chronicle
import LiveChart.Proofs.Temporal.Totality
/-!
# Windows inside windows

A shorter window ends where a longer one does, and begins later: its rows are the last of the
longer window's, and these the last of all rows that have a time.  The frame is the window of no
length.

* `axisView_suffix` : a shorter window is an end of a longer one;
* `axisView_dated_suffix` : a window is an end of the rows that have a time;
* `frameView_eq_axisView` : the frame is the window of no length;
* `viewOf_nested` : how views nest, which are all there or fail alike.
-/

namespace LiveChart

variable {α : Type} {time : α → Option Double} {items : List α}

/-! ## Lengths of windows -/

/-- The window of no length. -/
def Range.zero : Range := .minutes .zero (by decide +kernel)

/-- A longer window begins no later. -/
theorem inWindow_mono {w v last : Double} (hw : Double.zero.le w = true)
    (hv : Double.zero.le v = true) (hwv : w.order ≤ v.order) {p : Double × α}
    (h : inWindow w last p = true) : inWindow v last p = true := by
  unfold inWindow at h ⊢
  simp only [Bool.and_eq_true, decide_eq_true_eq] at h ⊢
  have hfirst := Double.order_sub_anti last hw
    ((Double.le_iff_order (Double.zero_le_iff.1 hw).1 (Double.zero_le_iff.1 hv).1).2 hwv)
  exact ⟨hfirst.trans h.1, h.2⟩

/-- More minutes make a longer window. -/
theorem Range.window?_mono {length length' : Double} {h : Double.zero.le length = true}
    {h' : Double.zero.le length' = true} (hle : length.le length' = true) :
    ∃ w v, (Range.minutes length h).window? = some w ∧
      (Range.minutes length' h').window? = some v ∧ w.order ≤ v.order :=
  ⟨_, _, rfl, rfl, Double.zero_le_mul_mono (by decide) (by decide) h hle⟩

/-- The window of no length is the latest time. -/
theorem inWindow_zero (last : Double) :
    ∃ w, Range.zero.window? = some w ∧
      ∀ p : Double × α, inWindow w last p = (p.1.order == last.order) := by
  refine ⟨_, rfl, fun p => ?_⟩
  have hzero : Double.zero.mul (.ofNat 60000) = .zero := by decide +kernel
  rw [inWindow, hzero, Double.order_sub_zero, Bool.eq_iff_iff, Bool.and_eq_true, decide_eq_true_eq,
    decide_eq_true_eq, beq_iff_eq]
  omega

/-! ## Views of items -/

/-- Of items in order the later ones of a window lie in the same window. -/
theorem filter_inWindow_suffix {l : List (Double × α)} (hl : InOrder l) {w last : Double}
    (hlast : ∀ p ∈ l, p.1.order ≤ last.order) : l.filter (inWindow w last) <:+ l := by
  obtain ⟨front, hfront, -⟩ := filter_suffix (p := inWindow w last) (l := l) <| by
    refine (List.Pairwise.and_mem.1 hl).imp fun {p q} ⟨_, hq, hpq⟩ hp => ?_
    unfold inWindow at hp ⊢
    simp only [Bool.and_eq_true, decide_eq_true_eq] at hp ⊢
    exact ⟨hp.1.trans hpq, hlast q hq⟩
  exact ⟨front, hfront.symm⟩

/-- The rows of a window are chosen from all rows that have a time, in order. -/
theorem axisView_window_filter {range : Range} {window : Double} (h : range.window? = some window)
    {last : Double} (hlast : latest? ((timed time items).map Prod.fst) = some last) :
    axisView range (items.map fun a => (time a, a))
      = ((inOrder (timed time items)).filter (inWindow window last)).map Prod.snd := by
  rw [axisView_window h hlast, filter_inOrder]

/-- **A shorter window is an end of a longer one.** -/
theorem axisView_suffix {short long : Range} {w v : Double} (hw : short.window? = some w)
    (hv : long.window? = some v) (hwv : w.order ≤ v.order) :
    axisView short (items.map fun a => (time a, a))
      <:+ axisView long (items.map fun a => (time a, a)) := by
  cases hlast : latest? ((timed time items).map Prod.fst) with
  | none =>
    rw [axisView_untimed hw (timed_eq_nil hlast)]
    exact List.nil_suffix
  | some last =>
    set l := inOrder (timed time items) with hl
    have hle : ∀ p ∈ l, p.1.order ≤ last.order := fun p hp =>
      (latest?_eq_some hlast).2 _ (List.mem_map_of_mem (mem_inOrder.1 hp))
    -- what lies in the shorter window is chosen from the longer one
    have hinner : l.filter (inWindow w last)
        = (l.filter (inWindow v last)).filter (inWindow w last) := by
      rw [List.filter_filter]
      refine List.filter_congr fun p _ => ?_
      rw [eq_comm, Bool.and_eq_left_iff_imp]
      exact inWindow_mono (Range.zero_le_window hw) (Range.zero_le_window hv) hwv
    rw [axisView_window_filter hw hlast, axisView_window_filter hv hlast, ← hl, hinner]
    refine (filter_inWindow_suffix ((inOrder_inOrder _).filter _) fun p hp => ?_).map _
    exact hle p (List.mem_filter.1 hp).1

/-- The items in the window without end that have a time. -/
theorem filter_axisView_infinite :
    (axisView .infinite (items.map fun a => (time a, a))).filter (fun a => (time a).isSome)
      = (inOrder (timed time items)).map Prod.snd := by
  have hdated : ∀ a ∈ (inOrder (timed time items)).map Prod.snd, (time a).isSome = true := by
    intro a ha
    obtain ⟨p, hp, rfl⟩ := List.mem_map.1 ha
    rw [(mem_timed.1 (mem_inOrder.1 hp)).2]
    rfl
  have hundated : (untimed time items).filter (fun a => (time a).isSome) = [] := by
    refine List.filter_eq_nil_iff.2 fun a ha => ?_
    rw [(mem_untimed.1 ha).2]
    decide
  rw [axisView_infinite rfl, List.filter_append, List.filter_eq_self.2 hdated, hundated,
    List.append_nil]

/-- **A window is an end of the rows that have a time.** -/
theorem axisView_dated_suffix {range : Range} {w : Double} (hw : range.window? = some w) :
    axisView range (items.map fun a => (time a, a))
      <:+ (axisView .infinite (items.map fun a => (time a, a))).filter
        fun a => (time a).isSome := by
  rw [filter_axisView_infinite]
  cases hlast : latest? ((timed time items).map Prod.fst) with
  | none =>
    rw [axisView_untimed hw (timed_eq_nil hlast)]
    exact List.nil_suffix
  | some last =>
    rw [axisView_window_filter hw hlast]
    refine (filter_inWindow_suffix (inOrder_inOrder _) fun p hp => ?_).map _
    exact (latest?_eq_some hlast).2 _ (List.mem_map_of_mem (mem_inOrder.1 hp))

/-- **The frame is the window of no length.** -/
theorem frameView_eq_axisView :
    frameView (items.map fun a => (time a, a))
      = axisView .zero (items.map fun a => (time a, a)) := by
  cases hlast : latest? ((timed time items).map Prod.fst) with
  | none => rw [frameView_untimed (timed_eq_nil hlast), axisView_untimed rfl (timed_eq_nil hlast)]
  | some last =>
    obtain ⟨w, hw, hinside⟩ := inWindow_zero (α := α) last
    rw [frameView_eq hlast, axisView_window hw hlast, funext hinside]
    -- items of one time stand in order
    refine congrArg (List.map Prod.snd) (inOrder_eq_self ?_).symm
    refine List.pairwise_of_forall_mem_list fun p hp q hq => ?_
    have hp := beq_iff_eq.1 (List.mem_filter.1 hp).2
    have hq := beq_iff_eq.1 (List.mem_filter.1 hq).2
    omega

/-! ## Views of rows -/

/-- The binding of a field in a mode, with a length of windows. -/
def Binding.over (mode : TemporalMode) (field : FieldSpec) (range : Range) : Binding :=
  { mode, field := some field, range }

/-- The view in axis mode is the window of the items with their times. -/
theorem viewOf_axis (rowOf : α → Value) (field : FieldSpec) (range : Range) (items : List α) :
    viewOf rowOf (some (.over .axis field range)) items
      = withStamps rowOf (.text field.first) items >>= fun stamped =>
          .ok (axisView range stamped) := by
  cases items with
  | nil => exact congrArg Except.ok (Binding.select_nil (.over .axis field range)
      (fun _ : α => none) fun _ => []).symm
  | cons a items => rfl

/-- The view in frame mode is the frame of the items with their times. -/
theorem viewOf_frame (rowOf : α → Value) (field : FieldSpec) (range : Range) (items : List α) :
    viewOf rowOf (some (.over .frame field range)) items
      = withStamps rowOf (.text field.first) items >>= fun stamped =>
          .ok (frameView stamped) := by
  cases items <;> rfl

/-- The times of all rows can be read, or one of them is out of range. -/
theorem withStamps_cases (rowOf : α → Row) (field : FieldSpec) (items : List α) :
    withStamps (fun a => .dict (rowOf a)) (.text field.first) items
        = .ok (items.map fun a => ((Binding.over .axis field .infinite).timeOf (rowOf a), a)) ∨
      withStamps (fun a => .dict (rowOf a)) (.text field.first) items = fail .overflow ∧
        ∃ a ∈ items, ∃ v ∈ Value.lookup? (.text field.first) (rowOf a), v.OutOfRange := by
  cases hread : withStamps (fun a => .dict (rowOf a)) (.text field.first) items with
  | ok r =>
    refine .inl (hread.symm.trans (withStamps_of_reads rfl rowOf ?_))
    rintro a ha _ ⟨⟩
    exact exists_of_withStamps_eq_ok hread a ha
  | error e =>
    -- if the reading fails it fails for some row, and only a time out of range does that
    obtain ⟨a, ha, hfails⟩ := exists_of_mapM_eq_error hread
    have hstamp : stampOf (.text field.first) (.dict (rowOf a)) = .error e := by
      cases htime : stampOf (.text field.first) (.dict (rowOf a)) with
      | error e' =>
        rw [htime] at hfails
        obtain rfl : e' = e := Except.error.inj hfails
        rfl
      | ok time =>
        rw [htime] at hfails
        cases hfails
    rw [stampOf_dict rfl] at hstamp
    cases hheld : Value.lookup? (.text field.first) (rowOf a) with
    | none =>
      rw [hheld] at hstamp
      cases hstamp
    | some v =>
      rw [hheld] at hstamp
      have hcase := epochMillis_cases v
      dsimp only at hstamp
      rw [hstamp] at hcase
      cases hcase with
      | outOfRange hrange => exact .inr ⟨rfl, a, ha, v, hheld, hrange⟩

/-- **Windows nest.**  The rows of a shorter window are the last of a longer one, these the last of
the rows that have a time in the window without end, and the frame is the window of no length.  If
the time of a row is out of range, all these views fail alike. -/
theorem viewOf_nested (rowOf : α → Row) (field : FieldSpec) {length length' : Double}
    (h : Double.zero.le length = true) (h' : Double.zero.le length' = true)
    (hle : length.le length' = true) (items : List α) :
    (∀ range, viewOf (fun a => .dict (rowOf a)) (some (.over .frame field range)) items
      = viewOf (fun a => .dict (rowOf a)) (some (.over .axis field .zero)) items) ∧
    ((∃ brief wide whole,
        viewOf (fun a => .dict (rowOf a)) (some (.over .axis field (.minutes length h))) items
          = .ok brief ∧
        viewOf (fun a => .dict (rowOf a)) (some (.over .axis field (.minutes length' h'))) items
          = .ok wide ∧
        viewOf (fun a => .dict (rowOf a)) (some (.over .axis field .infinite)) items
          = .ok whole ∧
        brief <:+ wide ∧
        wide <:+ whole.filter fun a =>
          ((Binding.over .axis field .infinite).timeOf (rowOf a)).isSome) ∨
      (∃ a ∈ items, ∃ v ∈ Value.lookup? (.text field.first) (rowOf a), v.OutOfRange) ∧
        ∀ range, viewOf (fun a => .dict (rowOf a)) (some (.over .axis field range)) items
          = fail .overflow) := by
  rcases withStamps_cases rowOf field items with hread | ⟨hread, hrange⟩
  · have haxis : ∀ range,
        viewOf (fun a => .dict (rowOf a)) (some (.over .axis field range)) items = _ :=
      fun range => (viewOf_axis _ field range items).trans (by rw [hread])
    refine ⟨fun range => ?_, .inl ⟨_, _, _, haxis _, haxis _, haxis _, ?_, ?_⟩⟩
    · rw [viewOf_frame, viewOf_axis, hread]
      exact congrArg Except.ok frameView_eq_axisView
    · obtain ⟨w, v, hw, hv, hwv⟩ := Range.window?_mono hle
      exact axisView_suffix hw hv hwv
    · exact axisView_dated_suffix rfl
  · refine ⟨fun range => ?_, .inr ⟨hrange, fun range => ?_⟩⟩
    · rw [viewOf_frame, viewOf_axis, hread]
      rfl
    · rw [viewOf_axis, hread]
      rfl

/-- One minute and two minutes are no lengths below zero. -/
theorem zero_le_minutes :
    Double.zero.le (.ofNat 1) = true ∧ Double.zero.le (.ofNat 2) = true := by decide +kernel

/-- The windows of one and of two minutes over the readings of two sensors. -/
theorem viewOf_nested_readings :
    ∃ brief wide whole,
      viewOf (fun a => .dict (readings a))
        (some (.over .axis (.name "at") (.minutes (.ofNat 1) zero_le_minutes.1))) [0, 1, 2, 3]
        = .ok brief ∧
      viewOf (fun a => .dict (readings a))
        (some (.over .axis (.name "at") (.minutes (.ofNat 2) zero_le_minutes.2))) [0, 1, 2, 3]
        = .ok wide ∧
      viewOf (fun a => .dict (readings a)) (some (.over .axis (.name "at") .infinite)) [0, 1, 2, 3]
        = .ok whole ∧
      brief <:+ wide ∧
      wide <:+ whole.filter fun a =>
        ((Binding.over .axis (.name "at") .infinite).timeOf (readings a)).isSome := by
  have hle : (Double.ofNat 1).le (.ofNat 2) = true := by decide +kernel
  refine (viewOf_nested readings (.name "at") zero_le_minutes.1 zero_le_minutes.2 hle
    [0, 1, 2, 3]).2.resolve_right ?_
  rintro ⟨⟨a, ha, v, hv, hrange⟩, -⟩
  have hcases : a = 0 ∨ a = 1 ∨ a = 2 ∨ a = 3 := by simpa using ha
  rcases hcases with rfl | rfl | rfl | rfl
  · obtain rfl := Option.some.inj hv
    exact hrange
  · cases hv
  · obtain rfl := Option.some.inj hv
    exact hrange
  · obtain rfl := Option.some.inj hv
    exact hrange

end LiveChart
