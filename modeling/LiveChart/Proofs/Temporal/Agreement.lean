import LiveChart.Proofs.Temporal.Compaction
import LiveChart.Temporal.Window
/-!
# Views agree with their windows

In axis mode a snapshot has a window of times and a view of rows, which are found apart from each
other.  They agree: the view holds just the rows of the window, in order of time and of arrival, and
it has the same window as the snapshot.

* `latest?_of_mem` and `earliest?_of_mem` : fewer times have the same ends if these are among them;
* `windowOf_of_mem` : fewer times have the same window if its ends are among them;
* `timeWindowOf_of_reads` : the window of rows with times that can be read;
* `pairwise_inOrder` : items in order of time stand in order of arrival at each time;
* `axisView_map` : the view of positions is the view of their rows;
* `Agrees` : what a window and a view have to do with each other;
* `Binding.view_agrees` : the window and the view of a snapshot.
-/

namespace LiveChart

variable {α β : Type} {time : α → Option Double}

/-! ## The ends of some times -/

/-- A time precedes another by its place, the zeros apart. -/
theorem precedes_iff {x y : Double} : precedes x y = true ↔ x.fineOrder < y.fineOrder := by
  unfold precedes Double.fineOrder
  simp only [Bool.or_eq_true, Bool.and_eq_true, decide_eq_true_eq, beq_iff_eq]
  cases x.isNegative <;> cases y.isNegative <;> simp <;> omega

/-- No time is later than the latest one, the zeros apart. -/
theorem fineOrder_le_latest? {times : List Double} {last : Double} (h : latest? times = some last) :
    ∀ x ∈ times, x.fineOrder ≤ last.fineOrder := by
  induction times generalizing last with
  | nil => simp [latest?] at h
  | cons x rest ih =>
    rw [latest?] at h
    cases hrest : latest? rest with
    | none =>
      rw [hrest] at h
      obtain rfl : x = last := Option.some.inj h
      rw [latest?_eq_none.1 hrest]
      simp
    | some y =>
      rw [hrest] at h
      dsimp only at h
      have hle := ih hrest
      intro z hz
      split_ifs at h with hxy
      · obtain rfl : y = last := Option.some.inj h
        rw [precedes_iff] at hxy
        rcases List.mem_cons.1 hz with rfl | hz
        · exact hxy.le
        · exact hle z hz
      · obtain rfl : x = last := Option.some.inj h
        rw [precedes_iff, not_lt] at hxy
        rcases List.mem_cons.1 hz with rfl | hz
        · exact le_rfl
        · exact (hle z hz).trans hxy

/-- Only of no times there is no earliest one. -/
@[simp] theorem earliest?_eq_none {times : List Double} : earliest? times = none ↔ times = [] := by
  cases times with
  | nil => simp [earliest?]
  | cons x rest =>
    rw [earliest?]
    cases earliest? rest <;> simp

/-- The earliest time is one of the times, and none is earlier, the zeros apart. -/
theorem earliest?_eq_some {times : List Double} {first : Double}
    (h : earliest? times = some first) :
    first ∈ times ∧ ∀ x ∈ times, first.fineOrder ≤ x.fineOrder := by
  induction times generalizing first with
  | nil => simp [earliest?] at h
  | cons x rest ih =>
    rw [earliest?] at h
    cases hrest : earliest? rest with
    | none =>
      rw [hrest] at h
      obtain rfl : x = first := Option.some.inj h
      rw [earliest?_eq_none.1 hrest]
      simp
    | some y =>
      rw [hrest] at h
      dsimp only at h
      obtain ⟨hy, hle⟩ := ih hrest
      -- the first item gives way only to an earlier one
      split_ifs at h with hyx
      · obtain rfl : y = first := Option.some.inj h
        rw [precedes_iff] at hyx
        refine ⟨List.mem_cons_of_mem _ hy, fun z hz => ?_⟩
        rcases List.mem_cons.1 hz with rfl | hz
        · exact hyx.le
        · exact hle z hz
      · obtain rfl : x = first := Option.some.inj h
        rw [precedes_iff, not_lt] at hyx
        refine ⟨List.mem_cons_self, fun z hz => ?_⟩
        rcases List.mem_cons.1 hz with rfl | hz
        · exact le_rfl
        · exact hyx.trans (hle z hz)

section Ends

variable {l m : List Double} (hfinite : ∀ x ∈ l, x.isFinite = true) (hsub : ∀ x ∈ m, x ∈ l)
include hfinite hsub

/-- **Fewer times have the same latest one**, if it is among them. -/
theorem latest?_of_mem {last : Double} (h : latest? l = some last) (hlast : last ∈ m) :
    latest? m = some last := by
  cases hm : latest? m with
  | none =>
    rw [latest?_eq_none.1 hm] at hlast
    exact absurd hlast List.not_mem_nil
  | some y =>
    have hy : y ∈ l := hsub y (latest?_eq_some hm).1
    have hsame : y.fineOrder = last.fineOrder :=
      le_antisymm (fineOrder_le_latest? h y hy) (fineOrder_le_latest? hm last hlast)
    rw [Double.eq_of_fineOrder_eq (hfinite y hy) (hfinite last (hsub last hlast)) hsame]

/-- **Fewer times have the same earliest one**, if it is among them. -/
theorem earliest?_of_mem {first : Double} (h : earliest? l = some first) (hfirst : first ∈ m) :
    earliest? m = some first := by
  cases hm : earliest? m with
  | none =>
    rw [earliest?_eq_none.1 hm] at hfirst
    exact absurd hfirst List.not_mem_nil
  | some y =>
    obtain ⟨hym, hyle⟩ := earliest?_eq_some hm
    have hy : y ∈ l := hsub y hym
    have hsame : y.fineOrder = first.fineOrder :=
      le_antisymm (hyle first hfirst) ((earliest?_eq_some h).2 y hy)
    rw [Double.eq_of_fineOrder_eq (hfinite y hy) (hfinite first (hsub first hfirst)) hsame]

end Ends

/-! ## Windows of times -/

/-- Only no times have no window. -/
theorem windowOf_eq_none {range : Range} {stamps : List Double} :
    windowOf range stamps = none ↔ stamps = [] := by
  unfold windowOf
  cases hlast : latest? stamps with
  | none => simpa using latest?_eq_none.1 hlast
  | some last =>
    have hne : stamps ≠ [] := by
      rintro rfl
      cases hlast
    cases hfirst : earliest? stamps with
    | none => exact absurd (earliest?_eq_none.1 hfirst) hne
    | some first => cases hwindow : range.window? <;> simp [hne]

/-- A window ends at the latest time, and begins its length before it, or at the earliest time. -/
theorem windowOf_eq_some {range : Range} {stamps : List Double} {lo hi : Double} :
    windowOf range stamps = some (lo, hi) ↔ latest? stamps = some hi ∧
      match range.window? with
      | none => earliest? stamps = some lo
      | some window => lo = hi.sub window := by
  unfold windowOf
  cases hlast : latest? stamps with
  | none => simp
  | some last =>
    cases hfirst : earliest? stamps with
    | none =>
      rw [earliest?_eq_none.1 hfirst] at hlast
      cases hlast
    | some first =>
      cases range.window? with
      | none => simp [and_comm]
      | some window =>
        simp only [Option.some.injEq, Prod.mk.injEq]
        constructor
        · rintro ⟨rfl, rfl⟩
          exact ⟨rfl, rfl⟩
        · rintro ⟨rfl, rfl⟩
          exact ⟨rfl, rfl⟩

/-- **Fewer times have the same window**, if its ends are among them. -/
theorem windowOf_of_mem {range : Range} {l m : List Double} {lo hi : Double}
    (hfinite : ∀ x ∈ l, x.isFinite = true) (hsub : ∀ x ∈ m, x ∈ l)
    (h : windowOf range l = some (lo, hi)) (hhi : hi ∈ m)
    (hlo : range.window? = none → lo ∈ m) : windowOf range m = some (lo, hi) := by
  rw [windowOf_eq_some] at h ⊢
  obtain ⟨hlast, hfirst⟩ := h
  refine ⟨latest?_of_mem hfinite hsub hlast hhi, ?_⟩
  cases hwindow : range.window? with
  | none =>
    rw [hwindow] at hfirst
    exact earliest?_of_mem hfinite hsub hfirst (hlo hwindow)
  | some window =>
    rw [hwindow] at hfirst
    exact hfirst

/-- Only items without any time have no window. -/
theorem windowOf_timed_eq_none {range : Range} {items : List α} :
    windowOf range ((timed time items).map Prod.fst) = none ↔ ∀ a ∈ items, time a = none := by
  rw [windowOf_eq_none, List.map_eq_nil_iff, List.eq_nil_iff_forall_not_mem]
  constructor
  · intro hnone a ha
    by_contra hsome
    obtain ⟨t, ht⟩ := Option.ne_none_iff_exists'.1 hsome
    exact hnone (t, a) (mem_timed.2 ⟨ha, ht⟩)
  · intro hnone p hp
    obtain ⟨ha, hsome⟩ := mem_timed.1 hp
    rw [hnone _ ha] at hsome
    cases hsome

/-- The window of items by their times, which only axis mode has. -/
def Binding.span (b : Binding) (time : α → Option Double) (items : List α) :
    Option (Double × Double) :=
  match b.mode with
  | .axis => windowOf b.range ((timed time items).map Prod.fst)
  | _ => none

theorem Binding.span_axis {b : Binding} (hmode : b.mode = .axis) (time : α → Option Double)
    (items : List α) : b.span time items = windowOf b.range ((timed time items).map Prod.fst) := by
  rw [span, hmode]

theorem Binding.span_of_ne_axis {b : Binding} (hmode : b.mode ≠ .axis) (time : α → Option Double)
    (items : List α) : b.span time items = none := by
  unfold span
  split
  · contradiction
  · rfl

/-- The window of rows with times that can be read is the span of these times. -/
theorem timeWindowOf_of_reads {b : Binding} (hbound : b.isBound = true) (rowOf : α → Row)
    {items : List α} (h : ∀ a ∈ items, b.Reads (rowOf a)) :
    timeWindowOf (fun a => .dict (rowOf a)) (some b) items
      = .ok (b.span (fun a => b.timeOf (rowOf a)) items) := by
  obtain ⟨field, hfield⟩ := Option.isSome_iff_exists.1 hbound
  unfold timeWindowOf
  by_cases hmode : b.mode = .axis
  · have hclock : b.clock? = some (.text field.first) := by simp [Binding.clock?, hfield, hmode]
    have haxis : (b.mode != .axis) = false := by rw [hmode]; rfl
    simp only [hfield, haxis, Bool.false_eq_true, if_false, withStamps_of_reads hclock rowOf h]
    rw [Binding.span_axis hmode]
    rfl
  · simp only [hfield, bne_iff_ne.2 hmode, if_true, Binding.span_of_ne_axis hmode]

/-- The window of rows with times that are finite numbers or missing is the span of these times. -/
theorem timeWindowOf_eq_ok {b : Binding} (hbound : b.isBound = true) (rowOf : α → Row)
    {items : List α} (h : ∀ a ∈ items, b.Dates (rowOf a)) :
    timeWindowOf (fun a => .dict (rowOf a)) (some b) items
      = .ok (b.span (fun a => b.timeOf (rowOf a)) items) :=
  timeWindowOf_of_reads hbound rowOf fun a ha => (h a ha).reads

/-! ## Order of time and of arrival -/

/-- Items with a time stand as the items do. -/
theorem pairwise_timed {R : α → α → Prop} {items : List α} (h : items.Pairwise R) :
    (timed time items).Pairwise fun p q => R p.2 q.2 := by
  rw [timed, stampedOnly, List.filterMap_map]
  refine List.Pairwise.filterMap _ (fun a b hab p hp q hq => ?_) h
  obtain ⟨t, -, rfl⟩ := Option.map_eq_some_iff.1 hp
  obtain ⟨u, -, rfl⟩ := Option.map_eq_some_iff.1 hq
  exact hab

/-- **Items in order of time stand in order of arrival at each time.** -/
theorem pairwise_inOrder {R : Double × α → Double × α → Prop} {l : List (Double × α)}
    (h : l.Pairwise R) :
    (inOrder l).Pairwise fun p q =>
      p.1.order < q.1.order ∨ p.1.order = q.1.order ∧ R p q := by
  rw [List.pairwise_iff_forall_sublist]
  intro p q hpq
  have hle : p.1.order ≤ q.1.order := by
    have hsorted := inOrder_inOrder l
    rw [InOrder, List.pairwise_iff_forall_sublist] at hsorted
    exact hsorted hpq
  rcases lt_or_eq_of_le hle with hlt | heq
  · exact Or.inl hlt
  · -- both stand at one time, where the items are as they were
    have hat : [p, q].Sublist (atTime p.1.order l) := by
      have hfilter : (atTime p.1.order [p, q]).Sublist (atTime p.1.order (inOrder l)) :=
        hpq.filter _
      rw [atTime_cons_of_eq rfl, atTime_cons_of_eq heq.symm, atTime_inOrder] at hfilter
      exact hfilter
    rw [List.pairwise_iff_forall_sublist] at h
    exact Or.inr ⟨heq, h (hat.trans List.filter_sublist)⟩

/-- The last of some items in order is at the latest time. -/
theorem InOrder.le_getLast {l : List (Double × α)} (h : InOrder l) {p : Double × α}
    (hp : l.getLast? = some p) : ∀ q ∈ l, q.1.order ≤ p.1.order := by
  obtain ⟨front, rfl⟩ := List.getLast?_eq_some_iff.1 hp
  intro q hq
  rcases List.mem_append.1 hq with hq | hq
  · exact (List.pairwise_append.1 h).2.2 q hq p (List.mem_singleton_self p)
  · rw [List.mem_singleton.1 hq]

/-! ## Positions and their rows -/

/-- The items with a time, of positions and of what stands there. -/
theorem stampedOnly_map (f : α → β) (items : List (Stamped α)) :
    stampedOnly (items.map fun p => (p.1, f p.2))
      = (stampedOnly items).map fun p => (p.1, f p.2) := by
  rw [stampedOnly, stampedOnly, List.filterMap_map, List.map_filterMap]
  refine List.filterMap_congr fun p _ => ?_
  cases h : p.1 <;> simp [h]

/-- The times of what stands at some positions are those of the positions. -/
theorem map_fst_timed_map (f : α → β) (time : β → Option Double) (items : List α) :
    (timed time (items.map f)).map Prod.fst
      = (timed (fun a => time (f a)) items).map Prod.fst := by
  have hmap : (items.map f).map (fun a => (time a, a))
      = (items.map fun a => (time (f a), a)).map fun p => (p.1, f p.2) := by
    rw [List.map_map, List.map_map]
    rfl
  rw [timed, hmap, stampedOnly_map, List.map_map]
  rfl

/-- The items without a time, of positions and of what stands there. -/
theorem unstampedOnly_map (f : α → β) (items : List (Stamped α)) :
    unstampedOnly (items.map fun p => (p.1, f p.2)) = (unstampedOnly items).map f := by
  rw [unstampedOnly, unstampedOnly, List.filterMap_map, List.map_filterMap]
  refine List.filterMap_congr fun p _ => ?_
  cases h : p.1 <;> simp [h]

/-- Putting in order, of positions and of what stands there. -/
theorem inOrder_map (f : α → β) (l : List (Double × α)) :
    inOrder (l.map fun p => (p.1, f p.2)) = (inOrder l).map fun p => (p.1, f p.2) := by
  unfold inOrder
  rw [List.map_mergeSort]
  intro p _ q _
  rfl

/-- **The view of positions is the view of their rows.** -/
theorem axisView_map (range : Range) (f : α → β) (items : List (Stamped α)) :
    axisView range (items.map fun p => (p.1, f p.2)) = (axisView range items).map f := by
  unfold axisView
  simp only [stampedOnly_map, unstampedOnly_map]
  cases range.window? with
  | none =>
    simp only [inOrder_map, List.map_append, List.map_map]
    rfl
  | some window =>
    simp only [List.map_map, Function.comp_def]
    cases latest? ((stampedOnly items).map fun p => p.1) with
    | none => rfl
    | some last =>
      simp only [List.filter_map, inOrder_map, List.map_map]
      rfl

/-! ## Agreement -/

/-- What the positions in a view have to do with the window of their times: first come those with a
time, then those without. -/
structure Agrees {n : ℕ} (time : Fin n → Option Double) (range : Range) (lo hi : Double)
    (dated undated : List (Fin n)) : Prop where
  /-- Every position stands at most once. -/
  nodup : (dated ++ undated).Nodup
  /-- With an end, the view holds just the times of the window, both ends included. -/
  inside : range ≠ .infinite → ∀ i, i ∈ dated ++ undated ↔
    ∃ t, time i = some t ∧ lo.le t = true ∧ t.le hi = true
  /-- Without end, the view holds everything, and the window begins at the earliest time. -/
  whole : range = .infinite → (∀ i, i ∈ dated ++ undated) ∧ (∃ i, time i = some lo) ∧
    ∀ i t, time i = some t → lo.le t = true
  /-- The window ends at the latest time. -/
  latest : (∃ i, time i = some hi) ∧ ∀ i t, time i = some t → t.le hi = true
  dated_some : ∀ i ∈ dated, (time i).isSome = true
  /-- Positions with a time stand in order of time, and in order of arrival at each time. -/
  dated_order : dated.Pairwise fun i j => ∀ t u, time i = some t → time j = some u →
    t.lt u = true ∨ t.same u = true ∧ i < j
  undated_none : ∀ i ∈ undated, time i = none
  /-- Positions without a time stand in order of arrival. -/
  undated_order : undated.Pairwise (· < ·)
  /-- The window ends at the last time in the view. -/
  last : ∃ i t, dated.getLast? = some i ∧ time i = some t ∧ t.same hi = true

/-- The items with a time that the view of a window to `hi` holds. -/
def keptAt (range : Range) (hi : Double) (l : List (Double × α)) : List (Double × α) :=
  match range.window? with
  | none => l
  | some window => l.filter (inWindow window hi)

/-- The items without a time that a view holds. -/
def undatedOf (range : Range) (time : α → Option Double) (items : List α) : List α :=
  match range.window? with
  | none => untimed time items
  | some _ => []

/-- A range has no length just if it is infinite. -/
theorem Range.window?_eq_none {range : Range} : range.window? = none ↔ range = .infinite := by
  cases range with
  | infinite => simp [window?]
  | minutes length nonneg => simp [window?]

section Kept

variable {range : Range} {lo hi : Double} {items : List α}

/-- What is kept is part of what there was, in its order. -/
theorem keptAt_sublist (l : List (Double × α)) : (keptAt range hi l).Sublist l := by
  unfold keptAt
  cases range.window? with
  | none => exact List.Sublist.refl l
  | some window => exact List.filter_sublist

/-- What is kept goes with its times. -/
theorem time_of_mem_keptAt {p : Double × α} (h : p ∈ keptAt range hi (timed time items)) :
    p.2 ∈ items ∧ time p.2 = some p.1 :=
  mem_timed.1 ((keptAt_sublist _).subset h)

/-- Without end, everything is kept. -/
theorem keptAt_infinite (h : range = .infinite) (l : List (Double × α)) :
    keptAt range hi l = l := by
  unfold keptAt
  rw [Range.window?_eq_none.2 h]

/-- **With an end, just what lies in the window is kept**, both ends included. -/
theorem mem_keptAt (hrange : range ≠ .infinite) {l : List (Double × α)}
    (hfinite : ∀ p ∈ l, p.1.isFinite = true) (hhi : hi.isFinite = true)
    (hlo : windowOf range (l.map Prod.fst) = some (lo, hi)) {p : Double × α} :
    p ∈ keptAt range hi l ↔ p ∈ l ∧ lo.le p.1 = true ∧ p.1.le hi = true := by
  obtain ⟨window, hwindow⟩ : ∃ window, range.window? = some window :=
    Option.ne_none_iff_exists'.1 (mt Range.window?_eq_none.1 hrange)
  have hfirst := (windowOf_eq_some.1 hlo).2
  rw [hwindow] at hfirst
  have hloNumber : lo.isNaN = false := by
    rw [hfirst]
    exact Double.isNaN_sub hhi (Range.zero_le_window hwindow)
  unfold keptAt
  rw [hwindow]
  dsimp only
  rw [List.mem_filter]
  refine and_congr_right fun hp => ?_
  have hpNumber := Double.isNaN_of_isFinite (hfinite p hp)
  rw [inWindow, Bool.and_eq_true, decide_eq_true_eq, decide_eq_true_eq, ← hfirst,
    Double.le_iff_order hloNumber hpNumber,
    Double.le_iff_order hpNumber (Double.isNaN_of_isFinite hhi)]

/-- **The latest item is kept.** -/
theorem mem_keptAt_of_latest (range : Range) {p : Double × α} {l : List (Double × α)}
    (hp : p ∈ l) (hfinite : p.1.isFinite = true) : p ∈ keptAt range p.1 l := by
  unfold keptAt
  cases hwindow : range.window? with
  | none => exact hp
  | some window =>
    have hfirst := Double.order_sub_le hfinite (Range.zero_le_window hwindow)
    refine List.mem_filter.2 ⟨hp, ?_⟩
    rw [inWindow, Bool.and_eq_true, decide_eq_true_eq, decide_eq_true_eq]
    exact ⟨hfirst, le_rfl⟩

/-- With an end, nothing is in a view that has no time. -/
theorem undatedOf_window (h : range ≠ .infinite) : undatedOf range time items = [] := by
  unfold undatedOf
  cases hwindow : range.window? with
  | none => exact absurd (Range.window?_eq_none.1 hwindow) h
  | some window => rfl

/-- Without end, all that has no time is in a view. -/
theorem undatedOf_infinite (h : range = .infinite) :
    undatedOf range time items = untimed time items := by
  unfold undatedOf
  rw [Range.window?_eq_none.2 h]

/-- A view has two parts, with a time and without. -/
theorem axisView_eq (h : latest? ((timed time items).map Prod.fst) = some hi) :
    axisView range (items.map fun a => (time a, a))
      = (inOrder (keptAt range hi (timed time items))).map Prod.snd
        ++ undatedOf range time items := by
  unfold keptAt undatedOf
  cases hwindow : range.window? with
  | none => exact axisView_infinite hwindow items
  | some window => rw [axisView_window hwindow h, List.append_nil]

/-- What has no time in a view has none. -/
theorem time_of_mem_undatedOf {a : α} (h : a ∈ undatedOf range time items) : time a = none := by
  by_cases hrange : range = .infinite
  · rw [undatedOf_infinite hrange] at h
    exact (mem_untimed.1 h).2
  · rw [undatedOf_window hrange] at h
    exact absurd h List.not_mem_nil

/-- The part of a view with times, by what is kept. -/
theorem mem_dated {a : α} :
    a ∈ (inOrder (keptAt range hi (timed time items))).map Prod.snd ↔
      ∃ t, time a = some t ∧ (t, a) ∈ keptAt range hi (timed time items) := by
  rw [List.mem_map]
  constructor
  · rintro ⟨p, hp, rfl⟩
    rw [mem_inOrder] at hp
    exact ⟨p.1, (time_of_mem_keptAt hp).2, hp⟩
  · rintro ⟨t, -, hp⟩
    exact ⟨(t, a), mem_inOrder.2 hp, rfl⟩

/-- **With an end, the view holds just the times of the window.** -/
theorem mem_view_window (hrange : range ≠ .infinite)
    (hfinite : ∀ p ∈ timed time items, p.1.isFinite = true)
    (h : windowOf range ((timed time items).map Prod.fst) = some (lo, hi)) {a : α}
    (ha : a ∈ items) :
    a ∈ (inOrder (keptAt range hi (timed time items))).map Prod.snd
        ++ undatedOf range time items ↔
      ∃ t, time a = some t ∧ lo.le t = true ∧ t.le hi = true := by
  obtain ⟨p, hp, rfl⟩ := List.mem_map.1 (latest?_eq_some (windowOf_eq_some.1 h).1).1
  rw [undatedOf_window hrange, List.append_nil, mem_dated]
  refine exists_congr fun t => and_congr_right fun ht => ?_
  rw [mem_keptAt hrange hfinite (hfinite p hp) h, and_iff_right (mem_timed.2 ⟨ha, ht⟩)]

/-- **Without end, the view holds everything.** -/
theorem mem_view_infinite (hrange : range = .infinite) {a : α} (ha : a ∈ items) :
    a ∈ (inOrder (keptAt range hi (timed time items))).map Prod.snd
        ++ undatedOf range time items := by
  rw [List.mem_append, mem_dated, undatedOf_infinite hrange, keptAt_infinite hrange, mem_untimed]
  cases ht : time a with
  | none => exact Or.inr ⟨ha, rfl⟩
  | some t => exact Or.inl ⟨t, rfl, mem_timed.2 ⟨ha, ht⟩⟩

/-- **The last time in a view is the latest time.** -/
theorem getLast?_kept (range : Range) (hfinite : ∀ p ∈ timed time items, p.1.isFinite = true)
    (h : latest? ((timed time items).map Prod.fst) = some hi) :
    ∃ p, (inOrder (keptAt range hi (timed time items))).getLast? = some p ∧
      p.1.order = hi.order := by
  obtain ⟨hmem, hle⟩ := latest?_eq_some h
  obtain ⟨latest, hlatest, rfl⟩ := List.mem_map.1 hmem
  have hkept := mem_inOrder.2 (mem_keptAt_of_latest range hlatest (hfinite _ hlatest))
  obtain ⟨p, hp⟩ : ∃ p, (inOrder (keptAt range latest.1 (timed time items))).getLast? = some p := by
    refine Option.ne_none_iff_exists'.1 fun hnone => ?_
    rw [List.getLast?_eq_none_iff] at hnone
    rw [hnone] at hkept
    exact List.not_mem_nil hkept
  have hpl : p ∈ timed time items :=
    (keptAt_sublist _).subset (mem_inOrder.1 (List.mem_of_getLast? hp))
  exact ⟨p, hp, le_antisymm (hle p.1 (List.mem_map_of_mem hpl))
    ((inOrder_inOrder _).le_getLast hp latest hkept)⟩

/-- The times in a view are those of what is kept. -/
theorem timed_view (l : List (Double × α)) (hl : ∀ p ∈ l, time p.2 = some p.1) :
    timed time (l.map Prod.snd ++ undatedOf range time items) = l := by
  have hnone : timed time (undatedOf range time items) = [] := by
    refine List.eq_nil_iff_forall_not_mem.2 fun p hp => ?_
    obtain ⟨hmem, hsome⟩ := mem_timed.1 hp
    rw [time_of_mem_undatedOf hmem] at hsome
    cases hsome
  rw [timed_append, timed_map_snd hl, hnone, List.append_nil]

/-- **A view has the window of its snapshot.** -/
theorem windowOf_view (hfinite : ∀ p ∈ timed time items, p.1.isFinite = true)
    (h : windowOf range ((timed time items).map Prod.fst) = some (lo, hi)) :
    windowOf range ((timed time (axisView range (items.map fun a => (time a, a)))).map Prod.fst)
      = some (lo, hi) := by
  obtain ⟨hlast, hfirst⟩ := windowOf_eq_some.1 h
  set l := timed time items with hl
  have hkept : ∀ p ∈ inOrder (keptAt range hi l), time p.2 = some p.1 := fun p hp =>
    (time_of_mem_keptAt (mem_inOrder.1 hp)).2
  rw [axisView_eq hlast, timed_view _ hkept]
  refine windowOf_of_mem (l := l.map Prod.fst) ?_ ?_ h ?_ ?_
  · intro x hx
    obtain ⟨p, hp, rfl⟩ := List.mem_map.1 hx
    exact hfinite p hp
  · intro x hx
    obtain ⟨p, hp, rfl⟩ := List.mem_map.1 hx
    exact List.mem_map_of_mem ((keptAt_sublist l).subset (mem_inOrder.1 hp))
  · -- whatever the range, the latest item is kept
    obtain ⟨p, hp, rfl⟩ := List.mem_map.1 (latest?_eq_some hlast).1
    exact List.mem_map_of_mem (mem_inOrder.2 (mem_keptAt_of_latest range hp (hfinite p hp)))
  · -- without end everything is kept, the earliest item too
    intro hwindow
    rw [hwindow] at hfirst
    obtain ⟨p, hp, rfl⟩ := List.mem_map.1 (earliest?_eq_some hfirst).1
    have hmem : p ∈ keptAt range hi l := by
      rw [keptAt_infinite (Range.window?_eq_none.1 hwindow)]
      exact hp
    exact List.mem_map_of_mem (mem_inOrder.2 hmem)

end Kept

section Positions

variable {n : ℕ} {time : Fin n → Option Double} {range : Range} {lo hi : Double}

/-- What is kept of some positions stands in order of arrival. -/
theorem pairwise_kept :
    (keptAt range hi (timed time (List.finRange n))).Pairwise fun p q => p.2 < q.2 :=
  (pairwise_timed (List.pairwise_lt_finRange n)).sublist (keptAt_sublist _)

/-- The positions with a time in a view stand in order of time and of arrival. -/
theorem pairwise_dated (hfinite : ∀ i t, time i = some t → t.isFinite = true) :
    ((inOrder (keptAt range hi (timed time (List.finRange n)))).map Prod.snd).Pairwise
      fun i j => ∀ t u, time i = some t → time j = some u →
        t.lt u = true ∨ t.same u = true ∧ i < j := by
  rw [List.pairwise_map]
  refine (pairwise_inOrder pairwise_kept).imp_of_mem fun {p q} hp hq hpq t u ht hu => ?_
  have hpt := (time_of_mem_keptAt (mem_inOrder.1 hp)).2
  have hqu := (time_of_mem_keptAt (mem_inOrder.1 hq)).2
  obtain rfl : p.1 = t := Option.some.inj (hpt.symm.trans ht)
  obtain rfl : q.1 = u := Option.some.inj (hqu.symm.trans hu)
  have hpNumber := Double.isNaN_of_isFinite (hfinite _ _ hpt)
  have hqNumber := Double.isNaN_of_isFinite (hfinite _ _ hqu)
  rw [Double.lt_iff_order hpNumber hqNumber, Double.same_iff_order hpNumber hqNumber]
  exact hpq

/-- The positions without a time in a view stand in order of arrival. -/
theorem pairwise_undated : (undatedOf range time (List.finRange n)).Pairwise (· < ·) := by
  by_cases hrange : range = .infinite
  · rw [undatedOf_infinite hrange, untimed_eq_filter]
    exact (List.pairwise_lt_finRange n).filter _
  · rw [undatedOf_window hrange]
    exact List.Pairwise.nil

/-- Every position stands at most once in a view. -/
theorem nodup_view :
    ((inOrder (keptAt range hi (timed time (List.finRange n)))).map Prod.snd
      ++ undatedOf range time (List.finRange n)).Nodup := by
  rw [List.nodup_append]
  refine ⟨?_, pairwise_undated.imp fun hij => ne_of_lt hij, ?_⟩
  · have hnodup : ((keptAt range hi (timed time (List.finRange n))).map Prod.snd).Nodup :=
      List.pairwise_map.2 (pairwise_kept.imp fun hij => ne_of_lt hij)
    exact ((inOrder_perm _).map Prod.snd).nodup_iff.2 hnodup
  · -- a position with a time is none without one
    rintro i hi j hj rfl
    obtain ⟨p, hp, rfl⟩ := List.mem_map.1 hi
    have hsome := (time_of_mem_keptAt (mem_inOrder.1 hp)).2
    rw [time_of_mem_undatedOf hj] at hsome
    cases hsome

/-- **A view agrees with the window of its snapshot.** -/
theorem agrees (hfinite : ∀ i t, time i = some t → t.isFinite = true)
    (h : windowOf range ((timed time (List.finRange n)).map Prod.fst) = some (lo, hi)) :
    Agrees time range lo hi
      ((inOrder (keptAt range hi (timed time (List.finRange n)))).map Prod.snd)
      (undatedOf range time (List.finRange n)) := by
  obtain ⟨hlast, hfirst⟩ := windowOf_eq_some.1 h
  have hmem : ∀ {i t}, time i = some t → (t, i) ∈ timed time (List.finRange n) := fun ht =>
    mem_timed.2 ⟨List.mem_finRange _, ht⟩
  have hkept : ∀ p ∈ timed time (List.finRange n), p.1.isFinite = true := fun p hp =>
    hfinite p.2 p.1 (mem_timed.1 hp).2
  have hnumber : ∀ {i t}, time i = some t → t.isNaN = false := fun ht =>
    Double.isNaN_of_isFinite (hfinite _ _ ht)
  obtain ⟨hhiMem, hle⟩ := latest?_eq_some hlast
  obtain ⟨latest, hlatest, rfl⟩ := List.mem_map.1 hhiMem
  have hlatestTime := (mem_timed.1 hlatest).2
  refine ⟨nodup_view, fun hrange i => mem_view_window hrange hkept h (List.mem_finRange i),
    fun hrange => ⟨fun i => mem_view_infinite hrange (List.mem_finRange i), ?_⟩,
    ⟨⟨latest.2, hlatestTime⟩, fun i t ht => ?_⟩, fun i hi => ?_, pairwise_dated hfinite,
    fun i hi => time_of_mem_undatedOf hi, pairwise_undated, ?_⟩
  · -- a window without end begins at the earliest time
    rw [Range.window?_eq_none.2 hrange] at hfirst
    obtain ⟨hearliest, hfirstLe⟩ := earliest?_eq_some hfirst
    obtain ⟨p, hp, rfl⟩ := List.mem_map.1 hearliest
    refine ⟨⟨p.2, (mem_timed.1 hp).2⟩, fun i t ht => ?_⟩
    rw [Double.le_iff_order (hnumber (mem_timed.1 hp).2) (hnumber ht)]
    exact Double.order_le_of_fineOrder_le (hfirstLe t (List.mem_map_of_mem (hmem ht)))
  · rw [Double.le_iff_order (hnumber ht) (hnumber hlatestTime)]
    exact hle t (List.mem_map_of_mem (hmem ht))
  · obtain ⟨t, ht, -⟩ := mem_dated.1 hi
    rw [ht]
    rfl
  · obtain ⟨p, hp, hsame⟩ := getLast?_kept range hkept hlast
    have hpt := (time_of_mem_keptAt (mem_inOrder.1 (List.mem_of_getLast? hp))).2
    refine ⟨p.2, p.1, by rw [List.getLast?_map, hp]; rfl, hpt, ?_⟩
    rw [Double.same_iff_order (hnumber hpt) (hnumber hlatestTime)]
    exact hsame

end Positions

/-! ## The window and the view of a snapshot -/

/-- A window of a minute. -/
def Range.minute : Range := .minutes (.ofNat 1) (by decide +kernel)

namespace Binding

/-- In axis mode a binding selects a view of a window. -/
theorem select_axis {b : Binding} (hmode : b.mode = .axis) (time : α → Option Double)
    (key : α → List Key) (items : List α) :
    b.select time key items = axisView b.range (items.map fun a => (time a, a)) := by
  unfold select
  rw [hmode]

/-- The view of a snapshot holds the rows at the positions in the view of its positions. -/
theorem axisView_get (range : Range) (rowTime : Row → Option Double) (snapshot : List Row) :
    axisView range (snapshot.map fun row => (rowTime row, row))
      = (axisView range ((List.finRange snapshot.length).map fun i =>
          (rowTime (snapshot.get i), i))).map snapshot.get := by
  rw [← axisView_map, List.map_map]
  conv_lhs => rw [← List.map_get_finRange snapshot, List.map_map]
  rfl

/-- **The view of a snapshot agrees with its window.**  Where all times can be read, a snapshot has
a window unless no row has a time.  The view then holds just the rows of the window, or all rows if
it has no end, in order of time and of arrival, the rows without a time at the end; the window ends
at the last time in the view, and is the window of the view. -/
theorem view_agrees {b : Binding} (hmode : b.mode = .axis) (hbound : b.isBound = true)
    (snapshot : List Row) (hdates : ∀ row ∈ snapshot, b.Dates row) :
    ∃ (window : Option (Double × Double)) (v : List (Fin snapshot.length)),
      timeWindow (some b) snapshot = .ok window ∧
      viewOf (fun i => .dict (snapshot.get i)) (some b) (List.finRange snapshot.length) = .ok v ∧
      view (some b) snapshot = .ok (v.map snapshot.get) ∧
      (window = none ↔ ∀ row ∈ snapshot, b.timeOf row = none) ∧
      ∀ lo hi, window = some (lo, hi) →
        timeWindow (some b) (v.map snapshot.get) = .ok (some (lo, hi)) ∧
        ∃ dated undated, v = dated ++ undated ∧
          Agrees (fun i => b.timeOf (snapshot.get i)) b.range lo hi dated undated := by
  set time : Fin snapshot.length → Option Double := fun i => b.timeOf (snapshot.get i) with htime
  set positions := List.finRange snapshot.length with hpositions
  have hget : ∀ i ∈ positions, b.Dates (snapshot.get i) := fun i _ =>
    hdates _ (snapshot.get_mem i)
  have hfinite : ∀ i t, time i = some t → t.isFinite = true := fun i t ht =>
    (hget i (List.mem_finRange i)).isFinite ht
  have hrows : positions.map snapshot.get = snapshot := List.map_get_finRange snapshot
  -- the times of the snapshot are those of its positions
  have hstamps : (timed b.timeOf snapshot).map Prod.fst = (timed time positions).map Prod.fst := by
    rw [← map_fst_timed_map snapshot.get, hrows]
  have hwindow : timeWindow (some b) snapshot
      = .ok (windowOf b.range ((timed time positions).map Prod.fst)) := by
    rw [← hstamps, ← span_axis hmode]
    exact timeWindowOf_eq_ok hbound id hdates
  have hview : viewOf (fun i => .dict (snapshot.get i)) (some b) positions
      = .ok (axisView b.range (positions.map fun i => (time i, i))) := by
    rw [viewOf_eq_ok hbound snapshot.get hget, select_axis hmode]
  refine ⟨_, _, hwindow, hview, ?_, ?_, fun lo hi h => ⟨?_, _, _, ?_, agrees hfinite h⟩⟩
  · rw [← axisView_get]
    exact (viewOf_eq_ok hbound id hdates).trans (by rw [select_axis hmode]; rfl)
  · rw [← hstamps, windowOf_timed_eq_none]
  · have hshown : ∀ row ∈ (axisView b.range (positions.map fun i => (time i, i))).map snapshot.get,
        b.Dates row := by
      intro row hrow
      obtain ⟨i, -, rfl⟩ := List.mem_map.1 hrow
      exact hdates _ (snapshot.get_mem i)
    have hkept : ∀ p ∈ timed time positions, p.1.isFinite = true := fun p hp =>
      hfinite p.2 p.1 (mem_timed.1 hp).2
    refine (timeWindowOf_eq_ok hbound id hshown).trans (congrArg Except.ok ?_)
    rw [span_axis hmode, map_fst_timed_map]
    exact windowOf_view hkept h
  · exact axisView_eq (windowOf_eq_some.1 h).1

/-- Readings without order, one of them without a time, in a window of a minute. -/
theorem view_agrees_readings :
    let b : Binding := { mode := .axis, field := some (.name "at")
                         range := .minute }
    let snapshot := [readings 0, readings 1, readings 2, readings 3]
    (b.mode = .axis ∧ b.isBound = true ∧ ∀ row ∈ snapshot, b.Dates row) ∧
    ∃ (window : Option (Double × Double)) (v : List (Fin snapshot.length)),
      timeWindow (some b) snapshot = .ok window ∧
      viewOf (fun i => .dict (snapshot.get i)) (some b) (List.finRange snapshot.length) = .ok v ∧
      view (some b) snapshot = .ok (v.map snapshot.get) ∧
      (window = none ↔ ∀ row ∈ snapshot, b.timeOf row = none) ∧
      ∀ lo hi, window = some (lo, hi) →
        timeWindow (some b) (v.map snapshot.get) = .ok (some (lo, hi)) ∧
        ∃ dated undated, v = dated ++ undated ∧
          Agrees (fun i => b.timeOf (snapshot.get i)) b.range lo hi dated undated := by
  intro b snapshot
  have hdates : ∀ row ∈ snapshot, b.Dates row := by
    intro row hrow field hfield
    obtain rfl := Option.some.inj hfield
    have hcases : row = readings 0 ∨ row = readings 1 ∨ row = readings 2 ∨ row = readings 3 := by
      simpa [snapshot] using hrow
    rcases hcases with rfl | rfl | rfl | rfl
    · exact ⟨_, rfl, fun _ => isFinite_of_finite?⟩
    · exact ⟨none, rfl, fun _ h => by cases h⟩
    · exact ⟨_, rfl, fun _ => isFinite_of_finite?⟩
    · exact ⟨_, rfl, fun _ => isFinite_of_finite?⟩
  exact ⟨⟨rfl, rfl, hdates⟩, view_agrees rfl rfl snapshot hdates⟩

/-- A row with a whole number in place of its time, and one with a time. -/
def wholeThenTime (n : Int) : List Row :=
  [[(.text "at", .int n)], [(.text "at", .scalar (.double (.ofNat 5000)))]]

/-- No time can be read from a whole number beyond the doubles. -/
theorem epochMillis_of_ofInt?_eq_none {n : Int} (h : Double.ofInt? n = none) :
    epochMillis (.int n) = fail .overflow := by
  unfold epochMillis
  dsimp only
  rw [h]

/-- The times of rows cannot be read if one of them is a whole number beyond the doubles. -/
theorem timeWindow_wholeThenTime {n : Int} (h : Double.ofInt? n = none) :
    timeWindow (some { mode := .axis, field := some (.name "at") }) (wholeThenTime n)
      = fail .overflow := by
  have hmember : (Value.dict [(.text "at", .int n)]).memberAt (.text "at")
      = .ok (some (.int n)) := rfl
  have hread : stampOf (.text "at") (.dict [(.text "at", .int n)]) = fail .overflow := by
    rw [stampOf, hmember]
    simp only [bind, Except.bind]
    exact epochMillis_of_ofInt?_eq_none h
  have hstamps : withStamps Value.dict (.text "at") (wholeThenTime n) = fail .overflow := by
    rw [withStamps, wholeThenTime, List.mapM_cons, hread]
    rfl
  show (withStamps Value.dict (.text "at") (wholeThenTime n) >>= _) = fail .overflow
  rw [hstamps]
  rfl

/-- Among any values there need be no window: a whole number beyond the doubles is not left out. -/
theorem timeWindow_beyondDoubles :
    ¬∀ (b : Binding) (snapshot : List Row), b.mode = .axis → b.isBound = true →
      ∃ window, timeWindow (some b) snapshot = .ok window ∧
        (window = none ↔ ∀ row ∈ snapshot, b.timeOf row = none) := by
  intro h
  have hbeyond : Double.ofInt? (10 ^ 309) = none := by decide +kernel
  obtain ⟨window, hwindow, -⟩ := h { mode := .axis, field := some (.name "at") }
    (wholeThenTime (10 ^ 309)) rfl rfl
  rw [timeWindow_wholeThenTime hbeyond] at hwindow
  cases hwindow

end Binding

end LiveChart
