import LiveChart.Proofs.Temporal.Groups
import LiveChart.Proofs.Temporal.Order
import LiveChart.Proofs.Temporal.Reading
/-!
# Compaction of views

A view can stand for the rows it was taken of: what it leaves out, no later row brings back, and
what it keeps stays in order.  The view of a view and some later rows is the view of all rows.

* `axisView_append`, `frameView_append` and `newestPerKey_append` : the three modes, on items with
  times and keys;
* `viewOf_compaction` : the compaction of snapshots, under every binding.
-/

namespace LiveChart

variable {α : Type} {time : α → Option Double}

/-! ## Items with and without a time -/

/-- The items that have a time, each with it. -/
def timed (time : α → Option Double) (items : List α) : List (Double × α) :=
  stampedOnly (items.map fun a => (time a, a))

/-- The items that have no time. -/
def untimed (time : α → Option Double) (items : List α) : List α :=
  unstampedOnly (items.map fun a => (time a, a))

theorem timed_append (s t : List α) : timed time (s ++ t) = timed time s ++ timed time t := by
  rw [timed, List.map_append]
  exact List.filterMap_append

/-- The items that have no time, by a filter. -/
theorem untimed_eq_filter (items : List α) :
    untimed time items = items.filter fun a => (time a).isNone := by
  rw [untimed, unstampedOnly, List.filterMap_map, ← List.filterMap_eq_filter]
  refine List.filterMap_congr fun a _ => ?_
  cases h : time a <;> simp [h, Option.guard]

theorem untimed_append (s t : List α) :
    untimed time (s ++ t) = untimed time s ++ untimed time t := by
  rw [untimed_eq_filter, untimed_eq_filter, untimed_eq_filter, List.filter_append]

theorem mem_timed {items : List α} {p : Double × α} :
    p ∈ timed time items ↔ p.2 ∈ items ∧ time p.2 = some p.1 := by
  obtain ⟨x, a⟩ := p
  simp only [timed, stampedOnly, List.mem_filterMap, List.mem_map]
  constructor
  · rintro ⟨-, ⟨b, hb, rfl⟩, h⟩
    obtain ⟨y, hy, hya⟩ := Option.map_eq_some_iff.1 h
    obtain ⟨rfl, rfl⟩ := Prod.mk.inj hya
    exact ⟨hb, hy⟩
  · rintro ⟨ha, h⟩
    exact ⟨(time a, a), ⟨a, ha, rfl⟩, by rw [h]; rfl⟩

theorem mem_untimed {items : List α} {a : α} :
    a ∈ untimed time items ↔ a ∈ items ∧ time a = none := by
  rw [untimed_eq_filter, List.mem_filter, Option.isNone_iff_eq_none]

/-- Items that go with their times have these times. -/
theorem timed_map_snd {l : List (Double × α)} (h : ∀ p ∈ l, time p.2 = some p.1) :
    timed time (l.map Prod.snd) = l := by
  induction l with
  | nil => rfl
  | cons p l ih =>
    obtain ⟨hp, hl⟩ := List.forall_mem_cons.1 h
    show timed time ([p.2] ++ l.map Prod.snd) = p :: l
    rw [timed_append, ih hl]
    simp [timed, stampedOnly, hp]

/-- Items that go with their times are not without. -/
theorem untimed_map_snd {l : List (Double × α)} (h : ∀ p ∈ l, time p.2 = some p.1) :
    untimed time (l.map Prod.snd) = [] := by
  refine List.eq_nil_iff_forall_not_mem.2 fun a ha => ?_
  obtain ⟨hmem, hnone⟩ := mem_untimed.1 ha
  obtain ⟨p, hp, rfl⟩ := List.mem_map.1 hmem
  rw [h p hp] at hnone
  cases hnone

/-- Items without a time are not among those that have one. -/
theorem timed_untimed (items : List α) : timed time (untimed time items) = [] := by
  refine List.eq_nil_iff_forall_not_mem.2 fun p hp => ?_
  obtain ⟨hmem, hsome⟩ := mem_timed.1 hp
  rw [(mem_untimed.1 hmem).2] at hsome
  cases hsome

/-- Items without a time stay without. -/
theorem untimed_untimed (items : List α) :
    untimed time (untimed time items) = untimed time items := by
  rw [untimed_eq_filter]
  exact List.filter_eq_self.2 fun a ha => Option.isNone_iff_eq_none.2 (mem_untimed.1 ha).2

/-! ## The latest time -/

/-- The latest times of two lists are one if each time of either is reached in the other. -/
theorem order_latest?_eq {l m : List Double} {x y : Double} (hx : latest? l = some x)
    (hy : latest? m = some y) (hlm : ∀ z ∈ l, ∃ w ∈ m, z.order ≤ w.order)
    (hml : ∀ z ∈ m, ∃ w ∈ l, z.order ≤ w.order) : x.order = y.order := by
  obtain ⟨hxl, hlx⟩ := latest?_eq_some hx
  obtain ⟨hym, hmy⟩ := latest?_eq_some hy
  obtain ⟨v, hv, hxv⟩ := hlm x hxl
  obtain ⟨w, hw, hyw⟩ := hml y hym
  exact le_antisymm (le_trans hxv (hmy v hv)) (le_trans hyw (hlx w hw))

/-- Leaving out items keeps the latest time, also among later items, if an item of that time is
kept. -/
theorem latest?_append {kept l : List (Double × α)} (m : List (Double × α)) {last : Double}
    (hlast : latest? (l.map Prod.fst) = some last) (hkept : ∀ p ∈ kept, p ∈ l)
    (hmem : ∃ p ∈ kept, p.1 = last) :
    ∃ x y, latest? ((kept ++ m).map Prod.fst) = some x ∧
      latest? ((l ++ m).map Prod.fst) = some y ∧ x.order = y.order ∧ last.order ≤ x.order := by
  obtain ⟨p, hp, rfl⟩ := hmem
  -- the kept item is on both sides, so both have a latest time
  have hsome : ∀ n : List (Double × α), p ∈ n → ∃ x, latest? (n.map Prod.fst) = some x := by
    intro n hn
    refine Option.ne_none_iff_exists'.1 fun hnone => ?_
    rw [latest?_eq_none, List.map_eq_nil_iff] at hnone
    rw [hnone] at hn
    exact List.not_mem_nil hn
  obtain ⟨x, hx⟩ := hsome (kept ++ m) (List.mem_append_left m hp)
  obtain ⟨y, hy⟩ := hsome (l ++ m) (List.mem_append_left m (hkept p hp))
  have hpx : p.1 ∈ (kept ++ m).map Prod.fst := List.mem_map_of_mem (List.mem_append_left m hp)
  refine ⟨x, y, hx, hy, order_latest?_eq hx hy (fun z hz => ?_) fun z hz => ?_,
    (latest?_eq_some hx).2 _ hpx⟩
  · obtain ⟨q, hq, rfl⟩ := List.mem_map.1 hz
    refine ⟨q.1, List.mem_map_of_mem ?_, le_rfl⟩
    rcases List.mem_append.1 hq with hq | hq
    · exact List.mem_append_left m (hkept q hq)
    · exact List.mem_append_right l hq
  · obtain ⟨q, hq, rfl⟩ := List.mem_map.1 hz
    rcases List.mem_append.1 hq with hq | hq
    · exact ⟨p.1, hpx, (latest?_eq_some hlast).2 _ (List.mem_map_of_mem hq)⟩
    · exact ⟨q.1, List.mem_map_of_mem (List.mem_append_right kept hq), le_rfl⟩

/-- Only of items without times there is no latest one. -/
theorem timed_eq_nil {items : List α} (h : latest? ((timed time items).map Prod.fst) = none) :
    timed time items = [] :=
  List.map_eq_nil_iff.1 (latest?_eq_none.1 h)

/-! ## Sliding windows -/

/-- An item lies in a window that ends at a time. -/
def inWindow (window last : Double) (p : Double × α) : Bool :=
  (last.sub window).order ≤ p.1.order && p.1.order ≤ last.order

/-- The rows of a window without end. -/
theorem axisView_infinite {range : Range} (h : range.window? = none) (items : List α) :
    axisView range (items.map fun a => (time a, a))
      = (inOrder (timed time items)).map Prod.snd ++ untimed time items := by
  unfold axisView
  rw [h]
  rfl

/-- The rows of a window with an end. -/
theorem axisView_window {range : Range} {window : Double} (h : range.window? = some window)
    {items : List α} {last : Double}
    (hlast : latest? ((timed time items).map Prod.fst) = some last) :
    axisView range (items.map fun a => (time a, a))
      = (inOrder ((timed time items).filter (inWindow window last))).map Prod.snd := by
  unfold timed at hlast ⊢
  unfold axisView
  rw [h]
  dsimp only
  rw [hlast]
  rfl

/-- Without times a window with an end holds no rows. -/
theorem axisView_untimed {range : Range} {window : Double} (h : range.window? = some window)
    {items : List α} (hnone : timed time items = []) :
    axisView range (items.map fun a => (time a, a)) = [] := by
  unfold timed at hnone
  unfold axisView
  rw [h]
  dsimp only
  rw [hnone]
  rfl

/-- A window with an end depends only on the items that have a time. -/
theorem axisView_congr {range : Range} {window : Double} (h : range.window? = some window)
    {l m : List α} (hlm : timed time l = timed time m) :
    axisView range (l.map fun a => (time a, a)) = axisView range (m.map fun a => (time a, a)) := by
  unfold timed at hlm
  unfold axisView
  rw [h]
  dsimp only
  rw [hlm]

/-- A later window holds no item that an earlier one left out. -/
theorem filter_inWindow_filter {window last x : Double} {l : List (Double × α)}
    (hlast : latest? (l.map Prod.fst) = some last)
    (hfirst : (last.sub window).order ≤ (x.sub window).order) :
    (l.filter (inWindow window last)).filter (inWindow window x)
      = l.filter (inWindow window x) := by
  rw [List.filter_filter]
  refine List.filter_congr fun p hp => ?_
  have hle := (latest?_eq_some hlast).2 p.1 (List.mem_map_of_mem hp)
  rw [Bool.and_eq_left_iff_imp]
  unfold inWindow
  simp only [Bool.and_eq_true, decide_eq_true_eq]
  exact fun h => ⟨le_trans hfirst h.1, hle⟩

/-- Windows that end at one time are one window. -/
theorem inWindow_congr {window x y : Double} (hpos : Double.zero.le window = true)
    (hx : x.isFinite = true) (hy : y.isFinite = true) (hxy : x.order = y.order) :
    (inWindow window x : Double × α → Bool) = inWindow window y := by
  have hfirst : (x.sub window).order = (y.sub window).order :=
    le_antisymm (Double.order_sub_mono hx hy hpos hxy.le) (Double.order_sub_mono hy hx hpos hxy.ge)
  funext p
  rw [inWindow, inWindow, hfirst, hxy]

/-- The window without end of a window without end and later items is that of all items. -/
theorem axisView_append_infinite {range : Range} (h : range.window? = none) (s t : List α) :
    axisView range ((axisView range (s.map fun a => (time a, a)) ++ t).map fun a => (time a, a))
      = axisView range ((s ++ t).map fun a => (time a, a)) := by
  have hsorted : ∀ p ∈ inOrder (timed time s), time p.2 = some p.1 := fun p hp =>
    (mem_timed.1 (mem_inOrder.1 hp)).2
  rw [axisView_infinite h, axisView_infinite h, axisView_infinite h, timed_append, timed_append,
    timed_append, untimed_append, untimed_append, untimed_append, timed_map_snd hsorted,
    untimed_map_snd hsorted, timed_untimed, untimed_untimed, List.append_nil, List.nil_append,
    inOrder_append_inOrder]

/-- **The window of a window and later items is the window of all items.** -/
theorem axisView_append (range : Range) {s t : List α}
    (hfinite : ∀ a ∈ s ++ t, ∀ x, time a = some x → x.isFinite = true) :
    axisView range ((axisView range (s.map fun a => (time a, a)) ++ t).map fun a => (time a, a))
      = axisView range ((s ++ t).map fun a => (time a, a)) := by
  cases hwindow : range.window? with
  | none => exact axisView_append_infinite hwindow s t
  | some window =>
    have hpos := Range.zero_le_window hwindow
    have hfinite : ∀ x ∈ (timed time s ++ timed time t).map Prod.fst, x.isFinite = true := by
      intro x hx
      obtain ⟨p, hp, rfl⟩ := List.mem_map.1 hx
      rw [← timed_append] at hp
      exact hfinite p.2 (mem_timed.1 hp).1 p.1 (mem_timed.1 hp).2
    cases hlast : latest? ((timed time s).map Prod.fst) with
    | none =>
      have hnone := timed_eq_nil hlast
      rw [axisView_untimed hwindow hnone]
      exact axisView_congr hwindow (by rw [List.nil_append, timed_append, hnone, List.nil_append])
    | some last =>
      set kept := (timed time s).filter (inWindow window last) with hkept
      -- the latest item lies in its own window
      obtain ⟨p, hp, rfl⟩ := List.mem_map.1 (latest?_eq_some hlast).1
      have hpfinite : p.1.isFinite = true :=
        hfinite _ (List.mem_map_of_mem (List.mem_append_left _ hp))
      have hpkept : p ∈ inOrder kept := by
        rw [mem_inOrder, hkept, List.mem_filter, inWindow, Bool.and_eq_true, decide_eq_true_eq,
          decide_eq_true_eq]
        exact ⟨hp, Double.order_sub_le hpfinite hpos, le_rfl⟩
      have hsub : ∀ q ∈ inOrder kept, q ∈ timed time s := fun q hq =>
        (List.mem_filter.1 (mem_inOrder.1 hq)).1
      have htimed : timed time ((inOrder kept).map Prod.snd ++ t)
          = inOrder kept ++ timed time t := by
        rw [timed_append, timed_map_snd fun q hq => (mem_timed.1 (hsub q hq)).2]
      -- so both windows end at the same time
      obtain ⟨x, y, hx, hy, hxy, hpx⟩ := latest?_append (timed time t) hlast hsub ⟨p, hpkept, rfl⟩
      have hyfinite : y.isFinite = true := hfinite y (latest?_eq_some hy).1
      have hxfinite : x.isFinite = true := by
        refine hfinite x ?_
        have hmem := (latest?_eq_some hx).1
        rw [List.map_append, List.mem_append] at hmem ⊢
        exact hmem.imp_left fun h => List.map_subset _ hsub h
      rw [axisView_window hwindow hlast, ← hkept, axisView_window hwindow (htimed ▸ hx), htimed,
        axisView_window hwindow (timed_append s t ▸ hy), timed_append, List.filter_append,
        List.filter_append, filter_inOrder, inOrder_append_inOrder, hkept,
        filter_inWindow_filter hlast (Double.order_sub_mono hpfinite hxfinite hpos hpx),
        inWindow_congr hpos hxfinite hyfinite hxy]

/-! ## Frames -/

/-- The rows of the latest time. -/
theorem frameView_eq {items : List α} {last : Double}
    (hlast : latest? ((timed time items).map Prod.fst) = some last) :
    frameView (items.map fun a => (time a, a))
      = ((timed time items).filter fun p => p.1.order == last.order).map Prod.snd := by
  unfold timed at hlast ⊢
  unfold frameView
  dsimp only
  rw [hlast]

/-- Frames depend only on the items that have a time. -/
theorem frameView_congr {l m : List α} (hlm : timed time l = timed time m) :
    frameView (l.map fun a => (time a, a)) = frameView (m.map fun a => (time a, a)) := by
  unfold timed at hlm
  unfold frameView
  dsimp only
  rw [hlm]

/-- Without times there is no frame. -/
theorem frameView_untimed {items : List α} (h : timed time items = []) :
    frameView (items.map fun a => (time a, a)) = [] :=
  frameView_congr (m := []) h

/-- **The frame of a frame and later items is the frame of all items.** -/
theorem frameView_append (s t : List α) :
    frameView ((frameView (s.map fun a => (time a, a)) ++ t).map fun a => (time a, a))
      = frameView ((s ++ t).map fun a => (time a, a)) := by
  cases hlast : latest? ((timed time s).map Prod.fst) with
  | none =>
    have hnone := timed_eq_nil hlast
    rw [frameView_untimed hnone]
    exact frameView_congr (by rw [List.nil_append, timed_append, hnone, List.nil_append])
  | some last =>
    obtain ⟨p, hp, rfl⟩ := List.mem_map.1 (latest?_eq_some hlast).1
    set kept := (timed time s).filter fun q => q.1.order == p.1.order with hkept
    have hpkept : p ∈ kept := List.mem_filter.2 ⟨hp, beq_self_eq_true _⟩
    have hsub : ∀ q ∈ kept, q ∈ timed time s := fun q hq => (List.mem_filter.1 hq).1
    have htimed : timed time (kept.map Prod.snd ++ t) = kept ++ timed time t := by
      rw [timed_append, timed_map_snd fun q hq => (mem_timed.1 (hsub q hq)).2]
    obtain ⟨x, y, hx, hy, hxy, hpx⟩ := latest?_append (timed time t) hlast hsub ⟨p, hpkept, rfl⟩
    -- an item of the latest time of all is of the latest time of its part
    have hagain : kept.filter (fun q => q.1.order == y.order)
        = (timed time s).filter fun q => q.1.order == y.order := by
      rw [hkept, List.filter_filter]
      refine List.filter_congr fun q hq => ?_
      have hle := (latest?_eq_some hlast).2 q.1 (List.mem_map_of_mem hq)
      rw [Bool.and_eq_left_iff_imp, beq_iff_eq, beq_iff_eq]
      omega
    rw [frameView_eq hlast, ← hkept, frameView_eq (htimed ▸ hx), htimed,
      frameView_eq (timed_append s t ▸ hy), timed_append, List.filter_append, List.filter_append,
      hxy, hagain]

/-! ## Keys -/

/-- The newest per key, as one per key of the items with their times. -/
theorem newestPerKey_eq {key : α → List Key} (items : List α) :
    newestPerKey (items.map fun a => (key a, time a, a))
      = (onePerKey supersedes ((items.map fun a => (time a, a)).map fun p => (key p.2, p))).map
          Prod.snd := by
  rw [newestPerKey, List.map_map]
  rfl

/-- **The newest per key of the newest per key and later items is that of all items.** -/
theorem newestPerKey_append {key : α → List Key} {s t : List α}
    (hkeys : KeysTransitive key (s ++ t)) :
    newestPerKey ((newestPerKey (s.map fun a => (key a, time a, a)) ++ t).map
        fun a => (key a, time a, a))
      = newestPerKey ((s ++ t).map fun a => (key a, time a, a)) := by
  have hmem : ∀ {p : Stamped α} {l : List α}, p ∈ l.map (fun a => (time a, a)) →
      p.2 ∈ l ∧ (time p.2, p.2) = p := by
    intro p l hp
    obtain ⟨a, ha, rfl⟩ := List.mem_map.1 hp
    exact ⟨ha, rfl⟩
  have hkeys' : KeysTransitive (fun p : Stamped α => key p.2)
      ((s ++ t).map fun a => (time a, a)) := fun p hp q hq r hr =>
    hkeys p.2 (hmem hp).1 q.2 (hmem hq).1 r.2 (hmem hr).1
  set kept := onePerKey supersedes
    ((s.map fun a => (time a, a)).map fun p => (key p.2, p)) with hkept
  -- the items that are kept go with their own times
  have htimes : (kept.map Prod.snd).map (fun a => (time a, a)) = kept := by
    rw [List.map_map]
    exact (List.map_congr_left fun p hp =>
      (hmem (mem_onePerKey supersedes (fun p => key p.2) hp)).2).trans (List.map_id _)
  have hall : (s ++ t).map (fun a => (time a, a))
      = s.map (fun a => (time a, a)) ++ t.map fun a => (time a, a) := List.map_append
  rw [hall] at hkeys'
  rw [newestPerKey_eq, newestPerKey_eq, newestPerKey_eq, ← hkept, hall, List.map_append, htimes,
    hkept, onePerKey_append hkeys' (fun _ hp => List.mem_append_left _ hp)
      (fun _ hp => List.mem_append_right _ hp)]

/-! ## The view of a snapshot -/

namespace Binding

variable {key : α → List Key}

/-- What a binding selects is among the items. -/
theorem mem_of_mem_select {b : Binding} {items : List α} {a : α}
    (h : a ∈ b.select time key items) : a ∈ items := by
  unfold select at h
  cases hmode : b.mode with
  | axis =>
    simp only [hmode] at h
    cases hwindow : b.range.window? with
    | none =>
      rw [axisView_infinite hwindow, List.mem_append] at h
      rcases h with h | h
      · obtain ⟨p, hp, rfl⟩ := List.mem_map.1 h
        exact (mem_timed.1 (mem_inOrder.1 hp)).1
      · exact (mem_untimed.1 h).1
    | some window =>
      cases hlast : latest? ((timed time items).map Prod.fst) with
      | none =>
        rw [axisView_untimed hwindow (timed_eq_nil hlast)] at h
        exact absurd h List.not_mem_nil
      | some last =>
        rw [axisView_window hwindow hlast] at h
        obtain ⟨p, hp, rfl⟩ := List.mem_map.1 h
        exact (mem_timed.1 (List.mem_filter.1 (mem_inOrder.1 hp)).1).1
  | frame =>
    simp only [hmode] at h
    cases hlast : latest? ((timed time items).map Prod.fst) with
    | none =>
      rw [frameView_untimed (timed_eq_nil hlast)] at h
      exact absurd h List.not_mem_nil
    | some last =>
      rw [frameView_eq hlast] at h
      obtain ⟨p, hp, rfl⟩ := List.mem_map.1 h
      exact (mem_timed.1 (List.mem_filter.1 hp).1).1
  | key =>
    simp only [hmode] at h
    split_ifs at h with horder
    · exact mem_onePerKey _ key h
    · rw [newestPerKey_eq] at h
      obtain ⟨p, hp, rfl⟩ := List.mem_map.1 h
      obtain ⟨a, ha, rfl⟩ := List.mem_map.1 (mem_onePerKey supersedes (fun p => key p.2) hp)
      exact ha

/-- **What a binding selects of its selection and later items is what it selects of all items.** -/
theorem select_append (b : Binding) {s t : List α}
    (hfinite : ∀ a ∈ s ++ t, ∀ x, time a = some x → x.isFinite = true)
    (hkeys : b.mode = .key → KeysTransitive key (s ++ t)) :
    b.select time key (b.select time key s ++ t) = b.select time key (s ++ t) := by
  unfold select
  cases hmode : b.mode with
  | axis => exact axisView_append b.range hfinite
  | frame => exact frameView_append s t
  | key =>
    dsimp only
    split_ifs with horder
    · exact onePerKey_append (hkeys hmode) (fun _ ha => List.mem_append_left t ha)
        (fun _ ha => List.mem_append_right s ha)
    · exact newestPerKey_append (hkeys hmode)

end Binding

/-- **Compaction.**  The view of a view and later rows is the view of all rows, the same ones in the
same order, where all times can be read and, in key mode, equality of the keys is transitive. -/
theorem viewOf_compaction (rowOf : α → Row) (binding : Option Binding) (s t : List α)
    (htimes : ∀ b, binding = some b → ∀ a ∈ s ++ t, b.Dates (rowOf a))
    (hkeys : ∀ b, binding = some b → b.mode = .key →
      KeysTransitive (fun a => b.rowKey (rowOf a)) (s ++ t)) :
    ∃ v w, viewOf (fun a => .dict (rowOf a)) binding s = .ok v ∧
      viewOf (fun a => .dict (rowOf a)) binding (s ++ t) = .ok w ∧
      viewOf (fun a => .dict (rowOf a)) binding (v ++ t) = .ok w := by
  cases binding with
  | none => exact ⟨s, s ++ t, rfl, rfl, rfl⟩
  | some b =>
    cases hbound : b.isBound with
    | false =>
      -- without a field there is nothing to choose by, and every view is all rows
      have hnone : b.field = none := by simpa [Binding.isBound] using hbound
      have hall : ∀ items, viewOf (fun a => .dict (rowOf a)) (some b) items = .ok items := by
        intro items
        simp only [viewOf, hnone]
      exact ⟨s, s ++ t, hall _, hall _, hall _⟩
    | true =>
      have hdates := htimes b rfl
      have hs : ∀ a ∈ s, b.Dates (rowOf a) := fun a ha => hdates a (List.mem_append_left t ha)
      have hview := viewOf_eq_ok hbound rowOf hs
      refine ⟨_, _, hview, viewOf_eq_ok hbound rowOf hdates, ?_⟩
      rw [viewOf_eq_ok hbound rowOf, Binding.select_append b (fun a ha x => (hdates a ha).isFinite)
        (hkeys b rfl)]
      -- the rows of the first view are among those given, so their times can be read
      intro a ha
      rcases List.mem_append.1 ha with ha | ha
      · exact hs a (Binding.mem_of_mem_select ha)
      · exact hdates a (List.mem_append_right s ha)

/-- Readings of two sensors, one of them without a time and one arriving late. -/
def readings : ℕ → Row
  | 0 => [(.text "sensor", .text "north"), (.text "at", .scalar (.double (.ofNat 3)))]
  | 1 => [(.text "sensor", .text "south")]
  | 2 => [(.text "sensor", .text "north"), (.text "at", .scalar (.double (.ofNat 1)))]
  | _ => [(.text "sensor", .text "south"), (.text "at", .scalar (.double (.ofNat 2)))]

/-- The newest reading of every sensor. -/
def perSensor : Binding :=
  { mode := .key, field := some (.name "sensor"), orderField := some (.text "at") }

/-- The readings of the sensors can be compacted. -/
theorem viewOf_compaction_readings :
    ∃ v w, viewOf (fun a => .dict (readings a)) (some perSensor) [0, 1, 2] = .ok v ∧
      viewOf (fun a => .dict (readings a)) (some perSensor) ([0, 1, 2] ++ [3]) = .ok w ∧
      viewOf (fun a => .dict (readings a)) (some perSensor) (v ++ [3]) = .ok w := by
  refine viewOf_compaction readings (some perSensor) [0, 1, 2] [3] ?_ ?_
  · rintro _ ⟨⟩ a ha field hfield
    obtain rfl := Option.some.inj hfield
    have hcases : a = 0 ∨ a = 1 ∨ a = 2 ∨ a = 3 := by simpa using ha
    rcases hcases with rfl | rfl | rfl | rfl
    · exact ⟨_, rfl, fun _ => isFinite_of_finite?⟩
    · exact ⟨none, rfl, fun _ h => by cases h⟩
    · exact ⟨_, rfl, fun _ => isFinite_of_finite?⟩
    · exact ⟨_, rfl, fun _ => isFinite_of_finite?⟩
  · rintro _ ⟨⟩ -
    exact KeysTransitive.of_tickFree (by decide)

/-- One midnight as a tick of days, as a tick of hours and as a moment.  The ticks are equal, and
the tick of hours equals the moment, but the tick of days does not. -/
def midnight : ℕ → Row
  | 0 => [(.text "k", .scalar (.tick ⟨.day, some 18262⟩))]
  | 1 => [(.text "k", .scalar (.tick ⟨.hour, some 438288⟩))]
  | _ => [(.text "k", .scalar (.moment ⟨1577836800000000, none⟩))]

/-- Among ticks and moments a view cannot stand for its rows: the key that decides may be gone. -/
theorem viewOf_midnight :
    ¬∀ (rowOf : ℕ → Row) (binding : Option Binding) (s t : List ℕ),
      (∀ b, binding = some b → ∀ a ∈ s ++ t, b.Dates (rowOf a)) →
      ∃ v w, viewOf (fun a => .dict (rowOf a)) binding s = .ok v ∧
        viewOf (fun a => .dict (rowOf a)) binding (s ++ t) = .ok w ∧
        viewOf (fun a => .dict (rowOf a)) binding (v ++ t) = .ok w := by
  intro h
  obtain ⟨v, w, hv, hw, hvw⟩ := h midnight (some { mode := .key, field := some (.name "k") })
    [0, 1] [2] (by rintro _ ⟨⟩ a - field hfield; cases hfield)
  obtain rfl : [1] = v := Except.ok.inj hv
  obtain rfl : [1, 2] = w := Except.ok.inj hw
  have hshort : [2] = [1, 2] := Except.ok.inj hvw
  cases hshort

end LiveChart
