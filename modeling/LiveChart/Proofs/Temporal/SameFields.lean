import LiveChart.Proofs.Temporal.Totality
import LiveChart.Proofs.Temporal.Winners
import LiveChart.Proofs.Value.FieldOrder
/-!
# Views of rows that are equal as mappings

A view reads of its rows only what they hold under fields.  So snapshots whose rows are one by one
equal as mappings have views of which the same is true, and the same window.

* `Result.Rel` : computations that give related results, or fail alike;
* `viewOf_map` : the view of what some items carry is carried by the view of the items;
* `view_sameFields` and `timeWindow_sameFields` : views and windows of equal rows.
-/

namespace LiveChart

variable {α β γ δ : Type}

/-! ## Computations with related results -/

/-- Two computations give related results, or fail with one error. -/
inductive Result.Rel (R : α → β → Prop) : Result α → Result β → Prop where
  | ok {a : α} {b : β} (h : R a b) : Rel R (.ok a) (.ok b)
  | error (e : Error) : Rel R (.error e) (.error e)

/-- Related computations followed by related ones are related. -/
theorem Result.Rel.bind {R : α → β → Prop} {S : γ → δ → Prop} {r : Result α} {r' : Result β}
    {f : α → Result γ} {g : β → Result δ} (h : Rel R r r')
    (hnext : ∀ a b, R a b → Rel S (f a) (g b)) : Rel S (r >>= f) (r' >>= g) := by
  cases h with
  | ok h => exact hnext _ _ h
  | error e => exact .error e

/-- Results of related computations that are changed alike are related. -/
theorem Result.Rel.map {R : α → β → Prop} {S : γ → δ → Prop} {r : Result α} {r' : Result β}
    {f : α → γ} {g : β → δ} (h : Rel R r r') (hchange : ∀ a b, R a b → S (f a) (g b)) :
    Rel S (r.map f) (r'.map g) := by
  cases h with
  | ok h => exact .ok (hchange _ _ h)
  | error e => exact .error e

/-- Related computations give related results, or fail with one error. -/
theorem Result.Rel.eq_ok_or {R : α → β → Prop} {r : Result α} {r' : Result β} (h : Rel R r r') :
    (∃ a b, r = .ok a ∧ r' = .ok b ∧ R a b) ∨ ∃ e, r = .error e ∧ r' = .error e := by
  cases h with
  | ok h => exact .inl ⟨_, _, rfl, rfl, h⟩
  | error e => exact .inr ⟨e, rfl, rfl⟩

/-- Related computations succeed alike, with related results. -/
theorem Result.Rel.toOption {R : α → β → Prop} {r : Result α} {r' : Result β} (h : Rel R r r') :
    Option.Rel R r.toOption r'.toOption := by
  cases h with
  | ok h => exact .some h
  | error e => exact .none

/-- Related computations succeed alike. -/
theorem Result.Rel.isOk_eq {R : α → β → Prop} {r : Result α} {r' : Result β} (h : Rel R r r') :
    r.isOk = r'.isOk := by
  cases h with
  | ok h => rfl
  | error e => rfl

/-- A computation is related to itself by equality. -/
theorem Result.Rel.of_eq {r r' : Result α} (h : r = r') : Rel Eq r r' := by
  subst h
  cases r with
  | ok a => exact .ok rfl
  | error e => exact .error e

/-! ## Items that carry others -/

/-- A list is computed of what some items carry as of the items, if each of its results is. -/
theorem mapM_map {f : α → Result γ} {g : β → Result δ} {carry : α → β} {h : γ → δ}
    (hstep : ∀ a, g (carry a) = (f a).map h) (items : List α) :
    (items.map carry).mapM g = (items.mapM f).map (List.map h) := by
  induction items with
  | nil => rfl
  | cons a items ih =>
    rw [List.map_cons, List.mapM_cons, List.mapM_cons, hstep, ih]
    cases f a with
    | error e => rfl
    | ok c => cases items.mapM f <;> rfl

/-- The times of what some items carry. -/
theorem withStamps_map (carry : α → β) (rowOf : β → Value) (field : Value) (items : List α) :
    withStamps rowOf field (items.map carry)
      = (withStamps (fun a => rowOf (carry a)) field items).map
          (List.map fun p => (p.1, carry p.2)) := by
  apply mapM_map
  intro a
  dsimp only
  cases stampOf field (rowOf (carry a)) <;> rfl

/-- The keys of what some items carry. -/
theorem withKeys_map (carry : α → β) (rowOf : β → Value) (fields : List String) (items : List α) :
    withKeys rowOf fields (items.map carry)
      = (withKeys (fun a => rowOf (carry a)) fields items).map
          (List.map fun p => (p.1, carry p.2)) := by
  apply mapM_map
  intro a
  dsimp only
  cases keyOf fields (rowOf (carry a)) <;> rfl

/-- The latest of what some items carry is carried by the latest items. -/
theorem frameView_map (carry : α → β) (items : List (Stamped α)) :
    frameView (items.map fun p => (p.1, carry p.2)) = (frameView items).map carry := by
  unfold frameView
  simp only [stampedOnly_map, List.map_map, Function.comp_def]
  cases latest? ((stampedOnly items).map fun p => p.1) with
  | none => rfl
  | some last =>
    simp only [List.filter_map, List.map_map]
    rfl

/-- The view of what some items carry, under a bound binding. -/
theorem boundView_map (carry : α → β) (rowOf : β → Value) (b : Binding) (field : FieldSpec)
    (items : List α) :
    boundView rowOf b field (items.map carry)
      = (boundView (fun a => rowOf (carry a)) b field items).map (List.map carry) := by
  unfold boundView
  cases b.mode with
  | axis =>
    dsimp only
    rw [withStamps_map]
    cases withStamps (fun a => rowOf (carry a)) (.text field.first) items with
    | error e => rfl
    | ok stamped => exact congrArg Except.ok (axisView_map b.range carry stamped)
  | frame =>
    dsimp only
    rw [withStamps_map]
    cases withStamps (fun a => rowOf (carry a)) (.text field.first) items with
    | error e => rfl
    | ok stamped => exact congrArg Except.ok (frameView_map carry stamped)
  | key =>
    cases b.orderField with
    | none =>
      dsimp only
      rw [withKeys_map]
      cases withKeys (fun a => rowOf (carry a)) field.toList items with
      | error e => rfl
      | ok keyed => exact congrArg Except.ok (onePerKey_map (fun _ _ => rfl) keyed)
    | some order =>
      dsimp only
      rw [withStamps_map]
      cases withStamps (fun a => rowOf (carry a)) order items with
      | error e => rfl
      | ok stamped =>
        -- the keys are read from items that already have their times
        have hkeys := withKeys_map (fun p : Stamped α => (p.1, carry p.2))
          (fun p => rowOf p.2) field.toList stamped
        dsimp only [Except.map, bind, Except.bind] at hkeys ⊢
        rw [hkeys]
        cases withKeys (fun a => rowOf (carry a.2)) field.toList stamped with
        | error e => rfl
        | ok keyed =>
          have hnewest : newestPerKey (keyed.map fun p => (p.1, (p.2.1, carry p.2.2)))
              = (newestPerKey keyed).map carry := by
            unfold newestPerKey
            rw [onePerKey_map (f := fun p : Stamped α => (p.1, carry p.2)) (fun _ _ => rfl) keyed,
              List.map_map, List.map_map]
            rfl
          exact congrArg Except.ok hnewest

/-- **The view of what some items carry is carried by the view of the items.** -/
theorem viewOf_map (carry : α → β) (rowOf : β → Value) (binding : Option Binding)
    (items : List α) :
    viewOf rowOf binding (items.map carry)
      = (viewOf (fun a => rowOf (carry a)) binding items).map (List.map carry) := by
  cases binding with
  | none => rfl
  | some b =>
    unfold viewOf
    dsimp only
    cases b.field with
    | none => rfl
    | some field =>
      dsimp only
      rw [List.isEmpty_map, boundView_map]
      split_ifs <;> rfl

/-- The window of what some items carry is the window of the items. -/
theorem timeWindowOf_map (carry : α → β) (rowOf : β → Value) (binding : Option Binding)
    (items : List α) :
    timeWindowOf rowOf binding (items.map carry)
      = timeWindowOf (fun a => rowOf (carry a)) binding items := by
  cases binding with
  | none => rfl
  | some b =>
    unfold timeWindowOf
    dsimp only
    cases b.field with
    | none => rfl
    | some field =>
      dsimp only
      rw [withStamps_map]
      split_ifs
      · rfl
      · cases withStamps (fun a => rowOf (carry a)) (.text field.first) items with
        | error e => rfl
        | ok stamped =>
          have hstamps : (stampedOnly (stamped.map fun p => (p.1, carry p.2))).map Prod.fst
              = (stampedOnly stamped).map Prod.fst := by
            rw [stampedOnly_map, List.map_map]
            rfl
          exact congrArg (fun stamps => Except.ok (windowOf b.range stamps)) hstamps

/-! ## Rows that are equal as mappings -/

namespace Row.SameFields

variable {r s : Row}

/-- Equal rows hold one time under a field. -/
theorem stampOf_eq (h : r.SameFields s) (field : Value) :
    stampOf field (.dict r) = stampOf field (.dict s) := by
  by_cases hkey : field.isHashable = true
  · rw [stampOf_dict hkey, stampOf_dict hkey, h.lookup]
  · rw [Bool.not_eq_true] at hkey
    rw [stampOf_dict_of_not_isHashable hkey, stampOf_dict_of_not_isHashable hkey]

/-- Equal rows have one key. -/
theorem keyOf_eq (h : r.SameFields s) (fields : List String) :
    keyOf fields (.dict r) = keyOf fields (.dict s) := by
  have hcomponent : keyComponent (.dict r) = keyComponent (.dict s) := by
    funext field
    rw [keyComponent, keyComponent, h.field]
  rw [keyOf, keyOf, hcomponent]

end Row.SameFields

/-- Two rows that are equal as mappings. -/
abbrev RowPair : Type := { p : Row × Row // p.1.SameFields p.2 }

namespace RowPair

/-- The first of two equal rows. -/
def one (p : RowPair) : Row := p.1.1

/-- The second of two equal rows. -/
def other (p : RowPair) : Row := p.1.2

/-- Rows that are equal one by one come in pairs. -/
theorem exists_pairs {rows others : List Row} (h : List.Forall₂ Row.SameFields rows others) :
    ∃ pairs : List RowPair, rows = pairs.map one ∧ others = pairs.map other := by
  induction h with
  | nil => exact ⟨[], rfl, rfl⟩
  | @cons r s rows others hrow _ ih =>
    obtain ⟨pairs, rfl, rfl⟩ := ih
    exact ⟨⟨(r, s), hrow⟩ :: pairs, rfl, rfl⟩

/-- The rows of some pairs are equal one by one. -/
theorem forall₂_map (pairs : List RowPair) :
    List.Forall₂ Row.SameFields (pairs.map one) (pairs.map other) := by
  induction pairs with
  | nil => exact .nil
  | cons p pairs ih => exact .cons p.2 ih

/-- Either row of each pair gives one time. -/
theorem withStamps_eq (field : Value) (pairs : List RowPair) :
    withStamps (fun p : RowPair => .dict p.one) field pairs
      = withStamps (fun p : RowPair => .dict p.other) field pairs := by
  have hstamp : (fun p : RowPair => stampOf field (.dict p.one))
      = fun p => stampOf field (.dict p.other) := funext fun p => p.2.stampOf_eq field
  unfold withStamps
  simp only [funext_iff.1 hstamp]

/-- Either row of each pair gives one key. -/
theorem withKeys_eq {β : Type} (carried : β → RowPair) (fields : List String) (items : List β) :
    withKeys (fun a => .dict (carried a).one) fields items
      = withKeys (fun a => .dict (carried a).other) fields items := by
  have hkey : ∀ a, keyOf fields (.dict (carried a).one) = keyOf fields (.dict (carried a).other) :=
    fun a => (carried a).2.keyOf_eq fields
  unfold withKeys
  simp only [hkey]

/-- Either row of each pair gives one view of the pairs. -/
theorem viewOf_eq (binding : Option Binding) (pairs : List RowPair) :
    viewOf (fun p : RowPair => .dict p.one) binding pairs
      = viewOf (fun p : RowPair => .dict p.other) binding pairs := by
  unfold viewOf boundView
  simp only [withStamps_eq, withKeys_eq fun p : RowPair => p,
    withKeys_eq fun p : Stamped RowPair => p.2]

/-- Either row of each pair gives one window. -/
theorem timeWindowOf_eq (binding : Option Binding) (pairs : List RowPair) :
    timeWindowOf (fun p : RowPair => .dict p.one) binding pairs
      = timeWindowOf (fun p : RowPair => .dict p.other) binding pairs := by
  unfold timeWindowOf
  simp only [withStamps_eq]

end RowPair

variable {rows others : List Row}

/-- **Snapshots of equal rows have views of equal rows**, or none. -/
theorem view_sameFields (binding : Option Binding)
    (h : List.Forall₂ Row.SameFields rows others) :
    Result.Rel (List.Forall₂ Row.SameFields) (view binding rows) (view binding others) := by
  obtain ⟨pairs, rfl, rfl⟩ := RowPair.exists_pairs h
  rw [view, view, viewOf_map, viewOf_map, RowPair.viewOf_eq]
  cases viewOf (fun p : RowPair => .dict p.other) binding pairs with
  | error e => exact .error e
  | ok chosen => exact .ok (RowPair.forall₂_map chosen)

/-- **Snapshots of equal rows have one window.** -/
theorem timeWindow_sameFields (binding : Option Binding)
    (h : List.Forall₂ Row.SameFields rows others) :
    timeWindow binding rows = timeWindow binding others := by
  obtain ⟨pairs, rfl, rfl⟩ := RowPair.exists_pairs h
  rw [timeWindow, timeWindow, timeWindowOf_map, timeWindowOf_map, RowPair.timeWindowOf_eq]

end LiveChart
