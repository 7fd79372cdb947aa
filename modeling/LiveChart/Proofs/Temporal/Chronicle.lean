import LiveChart.Proofs.Stream.Retention
import LiveChart.Proofs.Temporal.Agreement
/-!
# Views of items that arrive in order

Where all items have a time and arrive in order of time, a window and a frame hold an end of them:
what is shown at all is shown from some item on.  So it makes no difference whether the oldest items
are let go before the view is taken or after.

* `filter_suffix` and `filter_lastN` : choosing from some item on, and letting the oldest go;
* `Chronological` : all items have a time and stand in order of time;
* `Binding.select_of_chronological` : a view chooses from some item on;
* `Binding.select_lastN` : the view of the last items is the last items of the view;
* `Binding.getLast?_select` : the view ends with the last item;
* `Chronological.windowOf_eq` : the window ends at the time of the last item;
* `Chronological.windowOf_lastN_mono` : the window does not go back when items come.
-/

namespace LiveChart

variable {α : Type} {time : α → Option Double} {items : List α}

/-! ## Choosing from some item on -/

/-- What is chosen from some item on follows what is not chosen. -/
theorem filter_suffix {p : α → Bool} {l : List α}
    (h : l.Pairwise fun a b => p a = true → p b = true) :
    ∃ front, l = front ++ l.filter p ∧ ∀ a ∈ front, p a = false := by
  induction l with
  | nil => exact ⟨[], rfl, fun _ ha => absurd ha List.not_mem_nil⟩
  | cons a l ih =>
    obtain ⟨hfirst, hrest⟩ := List.pairwise_cons.1 h
    cases hp : p a with
    | true =>
      -- all that follows is chosen too
      have hall : (a :: l).filter p = a :: l := by
        refine List.filter_eq_self.2 fun b hb => ?_
        rcases List.mem_cons.1 hb with rfl | hb
        · exact hp
        · exact hfirst b hb hp
      exact ⟨[], hall.symm, fun _ ha => absurd ha List.not_mem_nil⟩
    | false =>
      obtain ⟨front, hl, hfront⟩ := ih hrest
      refine ⟨a :: front, ?_, ?_⟩
      · rw [List.filter_cons_of_neg (by rw [hp]; decide), List.cons_append, ← hl]
      · intro b hb
        rcases List.mem_cons.1 hb with rfl | hb
        · exact hp
        · exact hfront b hb

/-- **What is chosen from some item on can be chosen before the oldest items go, or after.** -/
theorem filter_lastN (n : ℕ) {p : α → Bool} {l : List α}
    (h : l.Pairwise fun a b => p a = true → p b = true) :
    (lastN n l).filter p = lastN n (l.filter p) := by
  obtain ⟨front, hl, hfront⟩ := filter_suffix h
  set kept := l.filter p with hkept
  have hkeptAll : ∀ b ∈ kept, p b = true := fun b hb => (List.mem_filter.1 hb).2
  have hlength : l.length = front.length + kept.length := by rw [hl, List.length_append]
  by_cases hn : n ≤ kept.length
  · -- the last items are all chosen
    rw [hl, lastN_append_of_le front hn]
    exact List.filter_eq_self.2 fun b hb => hkeptAll b ((lastN_suffix n kept).subset hb)
  · -- all that is chosen is among the last items
    have hdrop : (l.length - n) - front.length = 0 := by omega
    have hlast : lastN n l = front.drop (l.length - n) ++ kept := by
      rw [lastN]
      conv_lhs => rw [hl, List.drop_append]
      rw [← hl, hdrop, List.drop_zero]
    have hnone : (front.drop (l.length - n)).filter p = [] := by
      rw [List.filter_eq_nil_iff]
      intro a ha
      rw [hfront a (List.mem_of_mem_drop ha)]
      decide
    rw [hlast, List.filter_append, hnone, List.nil_append, List.filter_eq_self.2 hkeptAll,
      lastN_of_length_le (Nat.le_of_not_le hn)]

/-! ## Items in order of time -/

/-- All items have a time and stand in order of time. -/
structure Chronological (time : α → Option Double) (items : List α) : Prop where
  dated : ∀ a ∈ items, ∃ t, time a = some t ∧ t.isFinite = true
  ordered : items.Pairwise fun a b => ∀ t u, time a = some t → time b = some u → t.le u = true

namespace Chronological

/-- Of items in order, any that stand as they did are in order. -/
theorem sublist (h : Chronological time items) {l : List α} (hl : l.Sublist items) :
    Chronological time l where
  dated a ha := h.dated a (hl.subset ha)
  ordered := h.ordered.sublist hl

/-- The last of some items in order are in order. -/
theorem lastN (h : Chronological time items) (n : ℕ) : Chronological time (lastN n items) :=
  h.sublist (lastN_suffix n items).sublist

/-- All times are finite. -/
theorem isFinite (h : Chronological time items) {p : Double × α} (hp : p ∈ timed time items) :
    p.1.isFinite = true := by
  obtain ⟨ha, ht⟩ := mem_timed.1 hp
  obtain ⟨t, ht', hfinite⟩ := h.dated _ ha
  obtain rfl : t = p.1 := Option.some.inj (ht'.symm.trans ht)
  exact hfinite

/-- The items with their times stand in order. -/
theorem inOrder_timed (h : Chronological time items) : InOrder (timed time items) := by
  refine (List.Pairwise.and_mem.1 (pairwise_timed h.ordered)).imp fun {p q} hpq => ?_
  obtain ⟨hp, hq, hle⟩ := hpq
  have hpt := (mem_timed.1 hp).2
  have hqt := (mem_timed.1 hq).2
  exact (Double.le_iff_order (Double.isNaN_of_isFinite (h.isFinite hp))
    (Double.isNaN_of_isFinite (h.isFinite hq))).1 (hle _ _ hpt hqt)

/-- No item is without a time. -/
theorem untimed_eq_nil (h : Chronological time items) : untimed time items = [] := by
  refine List.eq_nil_iff_forall_not_mem.2 fun a ha => ?_
  obtain ⟨hmem, hnone⟩ := mem_untimed.1 ha
  obtain ⟨t, ht, -⟩ := h.dated a hmem
  rw [hnone] at ht
  cases ht

/-- **The latest time is that of the last item.** -/
theorem latest?_eq (h : Chronological time items) {a : α} (ha : items.getLast? = some a) :
    ∃ hi t, latest? ((timed time items).map Prod.fst) = some hi ∧ hi.isFinite = true ∧
      time a = some t ∧ t.isFinite = true ∧ hi.order = t.order := by
  obtain ⟨t, ht, htfinite⟩ := h.dated a (List.mem_of_getLast? ha)
  have hmem : (t, a) ∈ timed time items := mem_timed.2 ⟨List.mem_of_getLast? ha, ht⟩
  cases hlatest : latest? ((timed time items).map Prod.fst) with
  | none =>
    rw [timed_eq_nil hlatest] at hmem
    exact absurd hmem List.not_mem_nil
  | some hi =>
    obtain ⟨hhi, hle⟩ := latest?_eq_some hlatest
    obtain ⟨p, hp, rfl⟩ := List.mem_map.1 hhi
    refine ⟨p.1, t, rfl, h.isFinite hp, ht, htfinite,
      le_antisymm ?_ (hle t (List.mem_map_of_mem hmem))⟩
    -- the last item stands last among those with their times, too
    obtain ⟨front, rfl⟩ := List.getLast?_eq_some_iff.1 ha
    have hsorted := h.inOrder_timed
    have hlast : timed time (front ++ [a]) = timed time front ++ [(t, a)] := by
      rw [timed_append]
      simp [timed, stampedOnly, ht]
    have hgetLast : (timed time (front ++ [a])).getLast? = some (t, a) := by
      rw [hlast, List.getLast?_concat]
    exact hsorted.le_getLast hgetLast p hp

/-- **The window of items in order ends at the time of the last one.** -/
theorem windowOf_eq (h : Chronological time items) (range : Range) {a : α}
    (ha : items.getLast? = some a) :
    ∃ lo hi t, windowOf range ((timed time items).map Prod.fst) = some (lo, hi) ∧
      time a = some t ∧ hi.same t = true := by
  obtain ⟨hi, t, hlatest, hhi, ht, htfinite, hsame⟩ := h.latest?_eq ha
  have hne : windowOf range ((timed time items).map Prod.fst) ≠ none := by
    rw [Ne, windowOf_eq_none]
    intro hnone
    rw [hnone] at hlatest
    cases hlatest
  obtain ⟨⟨lo, hi'⟩, hwindow⟩ := Option.ne_none_iff_exists'.1 hne
  have hhi' := (windowOf_eq_some.1 hwindow).1
  obtain rfl : hi = hi' := Option.some.inj (hlatest.symm.trans hhi')
  refine ⟨lo, hi, t, hwindow, ht, ?_⟩
  rw [Double.same_iff_order (Double.isNaN_of_isFinite hhi) (Double.isNaN_of_isFinite htfinite)]
  exact hsame

/-- **The window of the last items ends at no time before that of any item.** -/
theorem le_of_windowOf_lastN (h : Chronological time items) {range : Range} {n : ℕ} (hn : 0 < n)
    {lo hi : Double} (hwindow : windowOf range ((timed time (LiveChart.lastN n items)).map Prod.fst)
      = some (lo, hi)) {a : α} {t : Double} (ha : a ∈ items) (ht : time a = some t) :
    t.le hi = true := by
  obtain ⟨z, hz⟩ := Option.ne_none_iff_exists'.1 fun hnone =>
    List.ne_nil_of_mem ha (List.getLast?_eq_none_iff.1 hnone)
  -- the last items end with the last of all items
  obtain ⟨last, u, hlast, -, hu, -, hlastu⟩ := h.latest?_eq hz
  obtain ⟨hi', u', hhi, hfinite, hu', -, hhiu⟩ :=
    (h.lastN n).latest?_eq ((getLast?_lastN hn items).trans hz)
  obtain rfl : u = u' := Option.some.inj (hu.symm.trans hu')
  obtain rfl : hi' = hi := Option.some.inj (hhi.symm.trans (windowOf_eq_some.1 hwindow).1)
  have hmem : (t, a) ∈ timed time items := mem_timed.2 ⟨ha, ht⟩
  rw [Double.le_iff_order (Double.isNaN_of_isFinite (h.isFinite hmem))
    (Double.isNaN_of_isFinite hfinite)]
  calc t.order ≤ last.order := (latest?_eq_some hlast).2 t (List.mem_map_of_mem hmem)
    _ = hi'.order := by rw [hlastu, hhiu]

/-- **The window of the last items does not go back** when more items come. -/
theorem windowOf_lastN_mono (h : Chronological time items) {range : Range} {n : ℕ} (hn : 0 < n)
    {earlier : List α} (hearlier : earlier <+: items) {lo hi lo' hi' : Double}
    (hwindow : windowOf range ((timed time (LiveChart.lastN n earlier)).map Prod.fst)
      = some (lo, hi))
    (hwindow' : windowOf range ((timed time (LiveChart.lastN n items)).map Prod.fst)
      = some (lo', hi')) : hi.le hi' = true := by
  obtain ⟨hhi, -⟩ := latest?_eq_some (windowOf_eq_some.1 hwindow).1
  obtain ⟨p, hp, rfl⟩ := List.mem_map.1 hhi
  obtain ⟨hmem, ht⟩ := mem_timed.1 hp
  exact h.le_of_windowOf_lastN hn hwindow'
    (hearlier.subset ((lastN_suffix n earlier).subset hmem)) ht

end Chronological

/-! ## What is shown -/

/-- Items chosen by their times, from the items with their times. -/
theorem map_snd_filter_timed (q : Double → Bool) (items : List α) :
    ((timed time items).filter fun p => q p.1).map Prod.snd
      = items.filter fun a => (time a).any q := by
  induction items with
  | nil => rfl
  | cons a items ih =>
    have hsplit : timed time (a :: items) = timed time [a] ++ timed time items :=
      timed_append [a] items
    rw [hsplit, List.filter_append, List.map_append, ih]
    cases ht : time a with
    | none =>
      rw [List.filter_cons_of_neg (by rw [ht, Option.any_none]; decide)]
      simp [timed, stampedOnly, ht]
    | some t =>
      cases hq : q t with
      | true =>
        rw [List.filter_cons_of_pos (by rw [ht]; exact hq)]
        simp [timed, stampedOnly, ht, hq]
      | false =>
        rw [List.filter_cons_of_neg (by rw [ht, Option.any_some, hq]; decide)]
        simp [timed, stampedOnly, ht, hq]

namespace Binding

variable {key : α → List Key} {b : Binding}

/-- Whether a time is shown when the latest time is `last`. -/
def showsAt (b : Binding) (last t : Double) : Bool :=
  match b.mode with
  | .axis =>
    match b.range.window? with
    | none => true
    | some window => (last.sub window).order ≤ t.order && t.order ≤ last.order
  | .frame => t.order == last.order
  | .key => true

/-- What is shown depends on the place of the latest time only. -/
theorem showsAt_congr {x y : Double} (hx : x.isFinite = true) (hy : y.isFinite = true)
    (h : x.order = y.order) : b.showsAt x = b.showsAt y := by
  funext t
  unfold showsAt
  cases b.mode with
  | key => rfl
  | frame => simp only [h]
  | axis =>
    cases hwindow : b.range.window? with
    | none => rfl
    | some window =>
      have hpos := Range.zero_le_window hwindow
      have hfirst : (x.sub window).order = (y.sub window).order :=
        le_antisymm (Double.order_sub_mono hx hy hpos h.le)
          (Double.order_sub_mono hy hx hpos h.ge)
      simp only [h, hfirst]

/-- A later time is shown if an earlier one is, up to the latest. -/
theorem showsAt_mono {last t u : Double} (htu : t.order ≤ u.order) (hu : u.order ≤ last.order)
    (h : b.showsAt last t = true) : b.showsAt last u = true := by
  unfold showsAt at h ⊢
  cases hmode : b.mode with
  | key => rfl
  | frame =>
    simp only [hmode, beq_iff_eq] at h ⊢
    omega
  | axis =>
    simp only [hmode] at h ⊢
    cases hwindow : b.range.window? with
    | none => rfl
    | some window =>
      simp only [hwindow, Bool.and_eq_true, decide_eq_true_eq] at h ⊢
      omega

/-- The latest time is shown. -/
theorem showsAt_of_order_eq {last t : Double} (hlast : last.isFinite = true)
    (h : t.order = last.order) : b.showsAt last t = true := by
  unfold showsAt
  cases b.mode with
  | key => rfl
  | frame => exact beq_iff_eq.2 h
  | axis =>
    cases hwindow : b.range.window? with
    | none => rfl
    | some window =>
      have hfirst := Double.order_sub_le hlast (Range.zero_le_window hwindow)
      simp only [h, Bool.and_eq_true, decide_eq_true_eq]
      exact ⟨hfirst, le_rfl⟩

/-- **Of items in order a view chooses by the latest time.** -/
theorem select_of_chronological (hmode : b.mode ≠ .key) (h : Chronological time items)
    {last : Double} (hlast : latest? ((timed time items).map Prod.fst) = some last) :
    b.select time key items = items.filter fun a => (time a).any (b.showsAt last) := by
  have hkept : ∀ q : Double → Bool,
      (inOrder ((timed time items).filter fun p => q p.1)).map Prod.snd
        = items.filter fun a => (time a).any q := by
    intro q
    rw [inOrder_eq_self (h.inOrder_timed.filter _), map_snd_filter_timed]
  unfold select showsAt
  cases hb : b.mode with
  | key => exact absurd hb hmode
  | frame =>
    dsimp only
    rw [frameView_eq hlast]
    exact map_snd_filter_timed (fun t => t.order == last.order) items
  | axis =>
    dsimp only
    cases hwindow : b.range.window? with
    | none =>
      have hall := hkept fun _ => true
      rw [List.filter_true] at hall
      rw [axisView_infinite hwindow, h.untimed_eq_nil, List.append_nil, hall]
    | some window =>
      rw [axisView_window hwindow hlast]
      exact hkept fun t => (last.sub window).order ≤ t.order && t.order ≤ last.order

/-- What a view chooses of items in order, it chooses from some item on. -/
theorem pairwise_showsAt (h : Chronological time items) {last : Double}
    (hlast : latest? ((timed time items).map Prod.fst) = some last) :
    items.Pairwise fun a b' => (time a).any (b.showsAt last) = true →
      (time b').any (b.showsAt last) = true := by
  refine (List.Pairwise.and_mem.1 h.ordered).imp fun {a c} hac ha => ?_
  obtain ⟨hamem, hcmem, hle⟩ := hac
  obtain ⟨t, ht, htfinite⟩ := h.dated a hamem
  obtain ⟨u, hu, hufinite⟩ := h.dated c hcmem
  rw [ht, Option.any_some] at ha
  rw [hu, Option.any_some]
  have htu := (Double.le_iff_order (Double.isNaN_of_isFinite htfinite)
    (Double.isNaN_of_isFinite hufinite)).1 (hle t u ht hu)
  have hmem : (u, c) ∈ timed time items := mem_timed.2 ⟨hcmem, hu⟩
  have hulast : u.order ≤ last.order :=
    (latest?_eq_some hlast).2 u (List.mem_map_of_mem hmem)
  exact showsAt_mono htu hulast ha

/-- **The view of items in order is an end of them.** -/
theorem select_suffix (hmode : b.mode ≠ .key) (h : Chronological time items) :
    b.select time key items <:+ items := by
  cases ha : items.getLast? with
  | none =>
    rw [List.getLast?_eq_none_iff.1 ha, select_nil]
  | some a =>
    obtain ⟨last, -, hlast, -⟩ := h.latest?_eq ha
    obtain ⟨front, hfront, -⟩ := filter_suffix (pairwise_showsAt (b := b) h hlast)
    rw [select_of_chronological hmode h hlast]
    exact ⟨front, hfront.symm⟩

/-- **The view of items in order ends with the last of them.** -/
theorem getLast?_select (hmode : b.mode ≠ .key) (h : Chronological time items) :
    (b.select time key items).getLast? = items.getLast? := by
  cases ha : items.getLast? with
  | none => rw [List.getLast?_eq_none_iff.1 ha, select_nil, List.getLast?_nil]
  | some a =>
    obtain ⟨last, t, hlast, hfinite, ht, -, hsame⟩ := h.latest?_eq ha
    obtain ⟨front, rfl⟩ := List.getLast?_eq_some_iff.1 ha
    have hshown : [a].filter (fun a => (time a).any (b.showsAt last)) = [a] := by
      rw [List.filter_cons_of_pos, List.filter_nil]
      rw [ht, Option.any_some]
      exact showsAt_of_order_eq hfinite hsame.symm
    rw [select_of_chronological hmode h hlast, List.filter_append, hshown, List.getLast?_concat]

/-- **The view of the last items is the last items of the view**, where items are in order. -/
theorem select_lastN (hmode : b.mode ≠ .key) (h : Chronological time items) {n : ℕ} (hn : 0 < n) :
    b.select time key (lastN n items) = lastN n (b.select time key items) := by
  cases ha : items.getLast? with
  | none => rw [List.getLast?_eq_none_iff.1 ha, lastN_nil, select_nil, lastN_nil]
  | some a =>
    -- the last items have the same last one, so the same is shown of them
    have ha' : (lastN n items).getLast? = some a := (getLast?_lastN hn items).trans ha
    obtain ⟨x, t, hx, hxfinite, ht, -, hxt⟩ := h.latest?_eq ha
    obtain ⟨y, u, hy, hyfinite, hu, -, hyu⟩ := (h.lastN n).latest?_eq ha'
    obtain rfl : t = u := Option.some.inj (ht.symm.trans hu)
    rw [select_of_chronological hmode (h.lastN n) hy, select_of_chronological hmode h hx,
      ← filter_lastN n (pairwise_showsAt h hx),
      showsAt_congr hyfinite hxfinite (hyu.trans hxt.symm)]

/-! ## Rows -/

/-- The time of a row can be read if it is a finite number. -/
theorem dates_of_timeOf {row : Row} {t : Double} (h : b.timeOf row = some t)
    (ht : t.isFinite = true) : b.Dates row := by
  intro field hfield
  rw [timeOf, hfield, Option.bind_some, Option.join_eq_some_iff] at h
  cases hread : stampOf field (.dict row) with
  | error e =>
    rw [hread] at h
    cases h
  | ok time =>
    rw [hread] at h
    obtain rfl : time = some t := Option.some.inj h
    refine ⟨some t, rfl, fun x hx => ?_⟩
    obtain rfl : t = x := Option.some.inj hx
    exact ht

end Binding

/-- Rows in order of time have times that can be read. -/
theorem Chronological.dates {b : Binding} {rows : List Row} (h : Chronological b.timeOf rows) :
    ∀ row ∈ rows, b.Dates row := by
  intro row hrow
  obtain ⟨t, ht, hfinite⟩ := h.dated row hrow
  exact Binding.dates_of_timeOf ht hfinite

end LiveChart
