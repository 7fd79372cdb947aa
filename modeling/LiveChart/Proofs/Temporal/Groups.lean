import LiveChart.Temporal.View
import LiveChart.Proofs.Value.KeyEquality
import Mathlib.Data.List.Forall2
/-!
# One item per key

Items are settled one after another into groups of equal keys, each with the key that made it and
the item that holds it.  Where equality of keys is transitive, the key of a group stands for the key
of its item, so settling the items of the groups once more gives the same groups.

* `mem_onePerKey` : every item that is kept is one of the items;
* `Owned` : a group whose key stands for the key of its item;
* `Distinct` : groups of pairwise different keys;
* `Aligned` : groups of the same item under keys that stand for each other;
* `onePerKey_append` : items chosen beforehand need not be settled again.
-/

namespace LiveChart

variable {β : Type} (wins : β → β → Bool) (key : β → List Key)

/-! ## Settling -/

/-- The groups that some items make when they are settled after others. -/
def settleAll (groups : List (List Key × β)) (items : List β) : List (List Key × β) :=
  items.foldl (fun settled a => settle wins (key a) a settled) groups

/-- One item per key is what the groups hold. -/
theorem onePerKey_eq (items : List β) :
    onePerKey wins (items.map fun a => (key a, a))
      = (settleAll wins key [] items).map Prod.snd := by
  rw [onePerKey, List.foldl_map]
  rfl

/-- What holds of a new group, and of a group that gives up its item, holds of all groups after an
item is settled. -/
theorem forall_settle {P : List Key × β → Prop} {k : List Key} {a : β} (hnew : P (k, a))
    (hgive : ∀ g, P g → Key.sameItems g.1 k = true → P (g.1, a)) {groups : List (List Key × β)}
    (h : ∀ g ∈ groups, P g) : ∀ g ∈ settle wins k a groups, P g := by
  induction groups with
  | nil =>
    rw [settle]
    exact List.forall_mem_singleton.2 hnew
  | cons g groups ih =>
    obtain ⟨hg, hgroups⟩ := List.forall_mem_cons.1 h
    rw [settle]
    split_ifs with hsame hwins
    · exact List.forall_mem_cons.2 ⟨hgive g hg hsame, hgroups⟩
    · exact List.forall_mem_cons.2 ⟨hg, hgroups⟩
    · exact List.forall_mem_cons.2 ⟨hg, ih hgroups⟩

/-- What holds of new groups, and of groups that give up their items, holds of all groups. -/
theorem forall_settleAll {P : List Key × β → Prop} {items : List β}
    (hnew : ∀ a ∈ items, P (key a, a))
    (hgive : ∀ a ∈ items, ∀ g, P g → Key.sameItems g.1 (key a) = true → P (g.1, a))
    {groups : List (List Key × β)} (h : ∀ g ∈ groups, P g) :
    ∀ g ∈ settleAll wins key groups items, P g := by
  induction items generalizing groups with
  | nil => exact h
  | cons a items ih =>
    obtain ⟨hnew, hnews⟩ := List.forall_mem_cons.1 hnew
    obtain ⟨hgive, hgives⟩ := List.forall_mem_cons.1 hgive
    exact ih hnews hgives (forall_settle wins hnew hgive h)

/-- Every item that is kept is one of the items. -/
theorem mem_onePerKey {items : List β} {a : β}
    (h : a ∈ onePerKey wins (items.map fun a => (key a, a))) : a ∈ items := by
  rw [onePerKey_eq] at h
  obtain ⟨g, hg, rfl⟩ := List.mem_map.1 h
  exact forall_settleAll wins key (P := fun g => g.2 ∈ items) (fun _ ha => ha)
    (fun _ ha _ _ _ => ha) (fun _ h => absurd h List.not_mem_nil) g hg

/-! ## Keys that stand for each other -/

/-- Keys that are equal to the same keys of items. -/
def Alike (D : List β) (k l : List Key) : Prop :=
  ∀ c ∈ D, Key.sameItems k (key c) = Key.sameItems l (key c)

/-- Equality of keys is transitive on the keys of items. -/
def KeysTransitive (D : List β) : Prop :=
  ∀ a ∈ D, ∀ b ∈ D, ∀ c ∈ D, Key.sameItems (key a) (key b) = true →
    Key.sameItems (key b) (key c) = true → Key.sameItems (key a) (key c) = true

variable {wins key} {D : List β}

/-- Equality of keys without ticks is transitive. -/
theorem KeysTransitive.of_tickFree (h : ∀ a ∈ D, Key.allTickFree (key a) = true) :
    KeysTransitive key D := fun _ _ b hb _ _ => Key.sameItems_trans (h b hb)

/-- Equal keys of items stand for each other. -/
theorem KeysTransitive.alike (hD : KeysTransitive key D) {a b : β} (ha : a ∈ D) (hb : b ∈ D)
    (h : Key.sameItems (key a) (key b) = true) : Alike key D (key a) (key b) := by
  intro c hc
  rw [Bool.eq_iff_iff]
  exact ⟨hD b hb a ha c hc (Key.sameItems_symm h), hD a ha b hb c hc h⟩

/-- A group whose key is the key of an item and stands for the key of the group's own item. -/
structure Owned (key : β → List Key) (D : List β) (g : List Key × β) : Prop where
  /-- The group's item is one of the items. -/
  mem : g.2 ∈ D
  /-- The group's key is the key of one of the items. -/
  made : ∃ a ∈ D, g.1 = key a
  /-- The group's key stands for the key of its item. -/
  alike : Alike key D g.1 (key g.2)

/-- The groups that items make are owned. -/
theorem owned_settleAll (hD : KeysTransitive key D) {items : List β} (hitems : ∀ a ∈ items, a ∈ D) :
    ∀ g ∈ settleAll wins key [] items, Owned key D g := by
  refine forall_settleAll wins key (fun a ha => ?_) (fun a ha g hg hsame => ?_)
    fun _ h => absurd h List.not_mem_nil
  · exact ⟨hitems a ha, ⟨a, hitems a ha, rfl⟩, fun _ _ => rfl⟩
  · -- the new item takes over from one with an equal key
    have haD := hitems a ha
    have hequal : Key.sameItems (key g.2) (key a) = true := by
      rw [← hg.alike a haD]
      exact hsame
    exact ⟨haD, hg.made, fun c hc => (hg.alike c hc).trans (hD.alike hg.mem haD hequal c hc)⟩

/-! ## Groups of distinct keys -/

/-- No group's key equals the key of a later group. -/
def Distinct (groups : List (List Key × β)) : Prop :=
  groups.Pairwise fun g h => Key.sameItems g.1 h.1 = false

/-- An item under a new key makes a group of its own, after the others. -/
theorem settle_of_new {k : List Key} {a : β} {groups : List (List Key × β)}
    (h : ∀ g ∈ groups, Key.sameItems g.1 k = false) :
    settle wins k a groups = groups ++ [(k, a)] := by
  induction groups with
  | nil => rfl
  | cons g groups ih =>
    obtain ⟨hg, hgroups⟩ := List.forall_mem_cons.1 h
    rw [settle, if_neg (by rw [hg]; decide), ih hgroups, List.cons_append]

/-- Settling an item keeps the keys of the groups distinct. -/
theorem distinct_settle {k : List Key} {a : β} {groups : List (List Key × β)}
    (h : Distinct groups) : Distinct (settle wins k a groups) := by
  induction groups with
  | nil => exact List.pairwise_singleton ..
  | cons g groups ih =>
    obtain ⟨hg, hgroups⟩ := List.pairwise_cons.1 h
    rw [settle]
    split_ifs with hsame hwins
    · exact List.pairwise_cons.2 ⟨hg, hgroups⟩
    · exact h
    · refine List.pairwise_cons.2 ⟨?_, ih hgroups⟩
      exact forall_settle wins (Bool.eq_false_iff.2 hsame) (fun _ hh _ => hh) hg

/-- The groups that items make have distinct keys. -/
theorem distinct_settleAll {items : List β} {groups : List (List Key × β)} (h : Distinct groups) :
    Distinct (settleAll wins key groups items) := by
  induction items generalizing groups with
  | nil => exact h
  | cons a items ih => exact ih (distinct_settle h)

/-- Items of distinct keys make one group each. -/
theorem settleAll_of_distinct {items : List β} {groups : List (List Key × β)}
    (h : Distinct (groups ++ items.map fun a => (key a, a))) :
    settleAll wins key groups items = groups ++ items.map fun a => (key a, a) := by
  induction items generalizing groups with
  | nil => exact (List.append_nil _).symm
  | cons a items ih =>
    have hnew : ∀ g ∈ groups, Key.sameItems g.1 (key a) = false := fun g hg =>
      (List.pairwise_append.1 h).2.2 g hg (key a, a) List.mem_cons_self
    show settleAll wins key (settle wins (key a) a groups) items = _
    rw [List.map_cons, List.append_cons] at h ⊢
    rw [settle_of_new hnew]
    exact ih h

/-! ## Settling once more -/

/-- Groups of the same item under keys that stand for each other. -/
def Aligned (key : β → List Key) (D : List β) (g h : List Key × β) : Prop :=
  g.2 = h.2 ∧ Alike key D g.1 h.1

/-- Settling an item keeps groups aligned. -/
theorem aligned_settle {a : β} (ha : a ∈ D) {groups others : List (List Key × β)}
    (h : List.Forall₂ (Aligned key D) groups others) :
    List.Forall₂ (Aligned key D) (settle wins (key a) a groups)
      (settle wins (key a) a others) := by
  induction h with
  | nil => exact .cons ⟨rfl, fun _ _ => rfl⟩ .nil
  | @cons g h groups others hgh hrest ih =>
    obtain ⟨hitem, halike⟩ := hgh
    rw [settle, settle, ← halike a ha, ← hitem]
    split_ifs with hsame hwins
    · exact .cons ⟨rfl, halike⟩ hrest
    · exact .cons ⟨rfl, halike⟩ hrest
    · exact .cons ⟨rfl, halike⟩ ih

/-- Settling items keeps groups aligned. -/
theorem aligned_settleAll {items : List β} (hitems : ∀ a ∈ items, a ∈ D)
    {groups others : List (List Key × β)} (h : List.Forall₂ (Aligned key D) groups others) :
    List.Forall₂ (Aligned key D) (settleAll wins key groups items)
      (settleAll wins key others items) := by
  induction items generalizing groups others with
  | nil => exact h
  | cons a items ih =>
    obtain ⟨ha, hrest⟩ := List.forall_mem_cons.1 hitems
    exact ih hrest (aligned_settle ha h)

/-- Aligned groups hold the same items. -/
theorem map_snd_of_aligned {groups others : List (List Key × β)}
    (h : List.Forall₂ (Aligned key D) groups others) :
    groups.map Prod.snd = others.map Prod.snd := by
  induction h with
  | nil => rfl
  | cons hgh _ ih => rw [List.map_cons, List.map_cons, hgh.1, ih]

/-- Owned groups of distinct keys hold items of distinct keys. -/
theorem distinct_items {groups : List (List Key × β)} (howned : ∀ g ∈ groups, Owned key D g)
    (h : Distinct groups) : Distinct (groups.map fun g => (key g.2, g.2)) := by
  refine List.pairwise_map.2 (List.Pairwise.imp_of_mem (fun {g f} hg hf hgf => ?_) h)
  obtain ⟨a, ha, hmade⟩ := (howned g hg).made
  -- the keys of the items against each other, by way of the keys of the groups
  calc Key.sameItems (key g.2) (key f.2) = Key.sameItems g.1 (key f.2) :=
        ((howned g hg).alike _ (howned f hf).mem).symm
    _ = Key.sameItems (key f.2) g.1 := Key.sameItems_comm ..
    _ = Key.sameItems f.1 g.1 := by rw [hmade, (howned f hf).alike a ha]
    _ = Key.sameItems g.1 f.1 := Key.sameItems_comm ..
    _ = false := hgf

/-- **Items chosen beforehand need not be settled again.** -/
theorem onePerKey_append (hD : KeysTransitive key D) {s t : List β} (hs : ∀ a ∈ s, a ∈ D)
    (ht : ∀ a ∈ t, a ∈ D) :
    onePerKey wins
        ((onePerKey wins (s.map fun a => (key a, a)) ++ t).map fun a => (key a, a))
      = onePerKey wins ((s ++ t).map fun a => (key a, a)) := by
  set groups := settleAll wins key [] s with hgroups
  have howned : ∀ g ∈ groups, Owned key D g := owned_settleAll hD hs
  have hdistinct : Distinct groups := distinct_settleAll .nil
  have hagain : settleAll wins key [] (groups.map Prod.snd)
      = groups.map fun g => (key g.2, g.2) := by
    have hitems := distinct_items howned hdistinct
    have hmap : (groups.map Prod.snd).map (fun a => (key a, a))
        = groups.map fun g => (key g.2, g.2) := List.map_map ..
    rw [← hmap] at hitems ⊢
    exact settleAll_of_distinct hitems
  have haligned : List.Forall₂ (Aligned key D) (groups.map fun g => (key g.2, g.2)) groups := by
    rw [List.forall₂_map_left_iff, List.forall₂_same]
    exact fun g hg => ⟨rfl, fun c hc => ((howned g hg).alike c hc).symm⟩
  have happend : ∀ l m, settleAll wins key [] (l ++ m)
      = settleAll wins key (settleAll wins key [] l) m := fun l m => List.foldl_append ..
  rw [onePerKey_eq, onePerKey_eq, onePerKey_eq, ← hgroups, happend, happend, hagain, ← hgroups]
  exact map_snd_of_aligned (aligned_settleAll ht haligned)

end LiveChart
