import LiveChart.Temporal.View
import Mathlib.Algebra.Order.Ring.Int
import Mathlib.Data.List.Sort
/-!
# Items in order of time

Putting items in order of time is stable: the items of one time stay in the order of arrival.  A
list in order is determined by what it holds at each time, so two lists with the same items at each
time come out the same.

* `atTime_inOrder` : putting items in order keeps what there is at each time;
* `eq_of_atTime_eq` : lists in order with the same items at each time are equal;
* `inOrder_append_inOrder` : items put in order beforehand come out the same;
* `latest?_eq_some` : the latest time is one of the times, and none is later.
-/

namespace LiveChart

variable {α : Type}

/-! ## Stability -/

/-- Items stand in order of time. -/
def InOrder (items : List (Double × α)) : Prop :=
  items.Pairwise fun a b => a.1.order ≤ b.1.order

/-- The items at one place in the order of times. -/
def atTime (k : ℤ) (items : List (Double × α)) : List (Double × α) :=
  items.filter fun a => a.1.order = k

@[simp] theorem atTime_append (k : ℤ) (l m : List (Double × α)) :
    atTime k (l ++ m) = atTime k l ++ atTime k m :=
  List.filter_append ..

/-- An item at a time comes first among those at that time. -/
theorem atTime_cons_of_eq {k : ℤ} {a : Double × α} (h : a.1.order = k)
    (items : List (Double × α)) : atTime k (a :: items) = a :: atTime k items :=
  List.filter_cons_of_pos (decide_eq_true h)

/-- An item at another time is left out. -/
theorem atTime_cons_of_ne {k : ℤ} {a : Double × α} (h : a.1.order ≠ k)
    (items : List (Double × α)) : atTime k (a :: items) = atTime k items :=
  List.filter_cons_of_neg (by simpa using h)

/-- Every item is among those at its own time. -/
theorem mem_atTime {p : Double × α} {items : List (Double × α)} :
    p ∈ atTime p.1.order items ↔ p ∈ items := by
  rw [atTime, List.mem_filter, and_iff_left (decide_eq_true rfl)]

/-- Lists with the same items at each time have the same items. -/
theorem mem_iff_of_atTime_eq {l m : List (Double × α)} (h : ∀ k, atTime k l = atTime k m)
    (p : Double × α) : p ∈ l ↔ p ∈ m := by
  rw [← mem_atTime, h, mem_atTime]

/-- The comparison of times is transitive. -/
theorem order_le_trans (a b c : Double × α) (hab : decide (a.1.order ≤ b.1.order) = true)
    (hbc : decide (b.1.order ≤ c.1.order) = true) : decide (a.1.order ≤ c.1.order) = true := by
  rw [decide_eq_true_eq] at *
  exact le_trans hab hbc

/-- Any two times can be compared. -/
theorem order_le_total (a b : Double × α) :
    (decide (a.1.order ≤ b.1.order) || decide (b.1.order ≤ a.1.order)) = true := by
  rw [Bool.or_eq_true, decide_eq_true_eq, decide_eq_true_eq]
  exact le_total _ _

/-- Items put in order stand in order. -/
theorem inOrder_inOrder (items : List (Double × α)) : InOrder (inOrder items) := by
  have hsorted := List.pairwise_mergeSort order_le_trans order_le_total items
  exact hsorted.imp fun h => of_decide_eq_true h

/-- Putting items in order only permutes them. -/
theorem inOrder_perm (items : List (Double × α)) : (inOrder items).Perm items :=
  List.mergeSort_perm _ _

@[simp] theorem mem_inOrder {p : Double × α} {items : List (Double × α)} :
    p ∈ inOrder items ↔ p ∈ items :=
  (inOrder_perm items).mem_iff

/-- **Stability.**  Putting items in order keeps those of each time, in their order. -/
theorem atTime_inOrder (k : ℤ) (items : List (Double × α)) :
    atTime k (inOrder items) = atTime k items := by
  have hsame : (atTime k items).Pairwise fun a b => decide (a.1.order ≤ b.1.order) = true := by
    refine List.pairwise_of_forall_mem_list fun a ha b hb => ?_
    have hak := of_decide_eq_true (List.mem_filter.1 ha).2
    have hbk := of_decide_eq_true (List.mem_filter.1 hb).2
    rw [hak, hbk]
    exact decide_eq_true le_rfl
  have hsub : (atTime k items).Sublist (inOrder items) :=
    List.sublist_mergeSort order_le_trans order_le_total hsame List.filter_sublist
  have hself : atTime k (atTime k items) = atTime k items :=
    List.filter_eq_self.2 fun a ha => (List.mem_filter.1 ha).2
  have hfilter : (atTime k (atTime k items)).Sublist (atTime k (inOrder items)) := hsub.filter _
  rw [hself] at hfilter
  have hlen : (atTime k (inOrder items)).length = (atTime k items).length :=
    ((inOrder_perm items).filter _).length_eq
  exact (hfilter.eq_of_length hlen.symm).symm

/-- The first item of a list in order is at the earliest time. -/
theorem InOrder.head_le {a : Double × α} {l : List (Double × α)} (h : InOrder (a :: l)) :
    ∀ b ∈ a :: l, a.1.order ≤ b.1.order := by
  intro b hb
  rcases List.mem_cons.1 hb with rfl | hb
  · exact le_rfl
  · exact List.rel_of_pairwise_cons h hb

/-- **A list in order is determined by its items at each time.** -/
theorem eq_of_atTime_eq {l m : List (Double × α)} (hl : InOrder l) (hm : InOrder m)
    (h : ∀ k, atTime k l = atTime k m) : l = m := by
  have mem_iff := mem_iff_of_atTime_eq h
  induction l generalizing m with
  | nil =>
    cases m with
    | nil => rfl
    | cons b m => exact absurd ((mem_iff b).2 List.mem_cons_self) List.not_mem_nil
  | cons a l ih =>
    cases m with
    | nil => exact absurd ((mem_iff a).1 List.mem_cons_self) List.not_mem_nil
    | cons b m =>
      -- both heads are at the earliest time, so they are the first items at that time
      have hab : a.1.order = b.1.order :=
        le_antisymm (hl.head_le b ((mem_iff b).2 List.mem_cons_self))
          (hm.head_le a ((mem_iff a).1 List.mem_cons_self))
      have hhead := h a.1.order
      rw [atTime_cons_of_eq rfl, atTime_cons_of_eq hab.symm] at hhead
      obtain rfl : a = b := (List.cons.inj hhead).1
      have htail : ∀ k, atTime k l = atTime k m := by
        intro k
        have hk := h k
        by_cases hak : a.1.order = k
        · rw [atTime_cons_of_eq hak, atTime_cons_of_eq hak] at hk
          exact (List.cons.inj hk).2
        · rw [atTime_cons_of_ne hak, atTime_cons_of_ne hak] at hk
          exact hk
      rw [ih hl.of_cons hm.of_cons htail (mem_iff_of_atTime_eq htail)]

/-- Lists with the same items at each time come out the same. -/
theorem inOrder_congr {l m : List (Double × α)} (h : ∀ k, atTime k l = atTime k m) :
    inOrder l = inOrder m :=
  eq_of_atTime_eq (inOrder_inOrder l) (inOrder_inOrder m) fun k => by
    rw [atTime_inOrder, atTime_inOrder, h]

/-- Items that stand in order stay as they are. -/
theorem inOrder_eq_self {l : List (Double × α)} (h : InOrder l) : inOrder l = l :=
  eq_of_atTime_eq (inOrder_inOrder l) h fun k => atTime_inOrder k l

/-- **Items put in order beforehand come out the same.** -/
theorem inOrder_append_inOrder (l m : List (Double × α)) :
    inOrder (inOrder l ++ m) = inOrder (l ++ m) :=
  inOrder_congr fun k => by rw [atTime_append, atTime_append, atTime_inOrder]

/-- Choosing items and putting them in order can be done either way round. -/
theorem filter_inOrder (p : Double × α → Bool) (l : List (Double × α)) :
    (inOrder l).filter p = inOrder (l.filter p) := by
  refine eq_of_atTime_eq ((inOrder_inOrder l).filter _) (inOrder_inOrder _) fun k => ?_
  have hcomm : ∀ n : List (Double × α), atTime k (n.filter p) = (atTime k n).filter p := by
    intro n
    rw [atTime, atTime, List.filter_filter, List.filter_filter]
    exact List.filter_congr fun a _ => Bool.and_comm ..
  rw [atTime_inOrder, hcomm, hcomm, atTime_inOrder]

/-! ## The latest time -/

/-- No later time precedes an earlier one. -/
theorem order_le_of_precedes {x y : Double} (h : precedes x y = true) : x.order ≤ y.order := by
  unfold precedes at h
  simp only [Bool.or_eq_true, Bool.and_eq_true, decide_eq_true_eq, beq_iff_eq] at h
  omega

/-- Of two times one does not lie behind the other. -/
theorem order_le_of_not_precedes {x y : Double} (h : ¬precedes x y = true) :
    y.order ≤ x.order := by
  unfold precedes at h
  simp only [Bool.or_eq_true, Bool.and_eq_true, decide_eq_true_eq, beq_iff_eq, not_or] at h
  omega

/-- Only of no times there is no latest one. -/
@[simp] theorem latest?_eq_none {times : List Double} : latest? times = none ↔ times = [] := by
  cases times with
  | nil => simp [latest?]
  | cons x rest =>
    rw [latest?]
    cases latest? rest <;> simp

/-- The latest time is one of the times, and none is later. -/
theorem latest?_eq_some {times : List Double} {last : Double} (h : latest? times = some last) :
    last ∈ times ∧ ∀ x ∈ times, x.order ≤ last.order := by
  induction times generalizing last with
  | nil => simp [latest?] at h
  | cons x rest ih =>
    rw [latest?] at h
    cases hrest : latest? rest with
    | none =>
      rw [hrest] at h
      obtain rfl : x = last := Option.some.inj h
      rw [latest?_eq_none.1 hrest]
      simp
    | some y =>
      rw [hrest] at h
      obtain ⟨hy, hle⟩ := ih hrest
      dsimp only at h
      -- the first item gives way only to a later one
      split_ifs at h with hxy
      · obtain rfl : y = last := Option.some.inj h
        refine ⟨List.mem_cons_of_mem _ hy, fun z hz => ?_⟩
        rcases List.mem_cons.1 hz with rfl | hz
        · exact order_le_of_precedes hxy
        · exact hle z hz
      · obtain rfl : x = last := Option.some.inj h
        refine ⟨List.mem_cons_self, fun z hz => ?_⟩
        rcases List.mem_cons.1 hz with rfl | hz
        · exact le_rfl
        · exact le_trans (hle z hz) (order_le_of_not_precedes hxy)

end LiveChart
