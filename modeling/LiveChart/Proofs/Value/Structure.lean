import LiveChart.Proofs.Temporal.Reading
import LiveChart.Proofs.Value.KeyEquality
/-!
# Keys of structured values

Values built of the absent value, truth values, numbers, texts, lists and dictionaries have equal
keys just if they have the same structure.  The key of a dictionary is a set of pairs, so its
entries are told apart by their names alone, in whatever order they stand.

* `Value.IsJson` : the values that are so built;
* `Value.Alike` : values of the same structure;
* `Value.same_freeze_iff` : their keys are equal just if they are alike;
* `keyOf_alike` : rows have equal keys just if they are alike in every field.
-/

namespace LiveChart

/-! ## Entries under names -/

/-- Entries under texts, with no text twice. -/
structure Entries.Named {α : Type} (entries : Entries α) : Prop where
  texts : ∀ e ∈ entries, ∃ name, e.1 = .text name
  distinct : (entries.map Prod.fst).Nodup

namespace Entries

variable {α : Type} {entries : Entries α}

/-- Without the first entry, the entries are under names as well. -/
theorem Named.tail {e : Value × α} (h : Named (e :: entries)) : Named entries where
  texts f hf := h.texts f (List.mem_cons_of_mem e hf)
  distinct := (List.nodup_cons.1 h.distinct).2

/-- **What is held under a name** is what the entry of the name holds. -/
theorem Named.field?_eq_some (h : Named entries) {name : String} {a : α} :
    field? name entries = some a ↔ (.text name, a) ∈ entries := by
  induction entries with
  | nil =>
    rw [field?]
    exact iff_of_false (Option.some_ne_none a).symm List.not_mem_nil
  | cons e entries ih =>
    obtain ⟨key, b⟩ := e
    obtain ⟨first, rfl⟩ : ∃ first, key = .text first := h.texts _ List.mem_cons_self
    have hfirst := (List.nodup_cons.1 h.distinct).1
    rw [field?, List.mem_cons, Prod.mk.injEq]
    split_ifs with hname
    · subst hname
      refine ⟨fun hb => .inl ⟨rfl, (Option.some.inj hb).symm⟩, ?_⟩
      rintro (⟨-, rfl⟩ | hmem)
      · rfl
      · -- no later entry is under the name
        exact absurd (List.mem_map_of_mem hmem) hfirst
    · rw [ih h.tail]
      refine ⟨.inr, fun hmem => hmem.resolve_left fun hentry => hname ?_⟩
      cases hentry.1
      rfl

end Entries

/-! ## Structure -/

/-- A scalar without parts of a machine or a calendar: the absent value, a truth value, a whole
number, a double that is a number, or a text. -/
def Scalar.isJson : Scalar → Bool
  | .null | .bool _ | .int _ | .text _ => true
  | .double x => !x.isNaN
  | _ => false

namespace Value

/-- A value built, to any depth, of JSON scalars, lists, and dictionaries of distinct texts. -/
inductive IsJson : Value → Prop where
  | scalar {s : Scalar} (h : s.isJson = true) : IsJson (.scalar s)
  | list {items : List Value} (h : ∀ v ∈ items, IsJson v) : IsJson (.list items)
  | dict {entries : Entries Value} (hnamed : entries.Named) (h : ∀ e ∈ entries, IsJson e.2) :
      IsJson (.dict entries)

/-- Values of the same structure: numbers of one amount, the same text, lists that are alike item by
item, and dictionaries that hold values under the same names, alike under each. -/
inductive Alike : Value → Value → Prop where
  | null : Alike .null .null
  | number {a b : Scalar} {x : Amount} (ha : a.amount? = some x) (hb : b.amount? = some x) :
      Alike (.scalar a) (.scalar b)
  | text (s : String) : Alike (.text s) (.text s)
  | list {items others : List Value} (hlength : items.length = others.length)
      (h : ∀ (i : ℕ) v w, items[i]? = some v → others[i]? = some w → Alike v w) :
      Alike (.list items) (.list others)
  | dict {entries others : Entries Value}
      (hnames : ∀ name, (entries.field? name).isSome = (others.field? name).isSome)
      (h : ∀ name v w, entries.field? name = some v → others.field? name = some w → Alike v w) :
      Alike (.dict entries) (.dict others)

/-! ## Keys of lists and of dictionaries -/

theorem freezeItems_eq_map (items : List Value) : freezeItems items = items.map freeze := by
  induction items with
  | nil => rfl
  | cons v items ih => rw [freezeItems, ih, List.map_cons]

theorem freezeEntries_eq_map (entries : Entries Value) :
    freezeEntries entries = entries.map fun e => .tuple [e.1.toKey, e.2.freeze] := by
  induction entries with
  | nil => rfl
  | cons e entries ih => rw [freezeEntries, ih, List.map_cons]

end Value

/-- Items are equal if there are as many and those at each place are. -/
theorem Key.sameItems_iff {keys others : List Key} :
    Key.sameItems keys others = true ↔ keys.length = others.length ∧
      ∀ (i : ℕ) k l, keys[i]? = some k → others[i]? = some l → Key.same k l = true := by
  induction keys generalizing others with
  | nil => cases others <;> simp [Key.sameItems]
  | cons k keys ih =>
    cases others with
    | nil => simp [Key.sameItems]
    | cons l others =>
      rw [Key.sameItems, Bool.and_eq_true, ih, List.length_cons, List.length_cons,
        Nat.add_right_cancel_iff]
      constructor
      · rintro ⟨hkl, hlength, hrest⟩
        refine ⟨hlength, fun i => ?_⟩
        cases i with
        | zero => rintro _ _ ⟨⟩ ⟨⟩; exact hkl
        | succ i => exact hrest i
      · rintro ⟨hlength, h⟩
        exact ⟨h 0 k l rfl rfl, hlength, fun i => h (i + 1)⟩

/-- Pairs under texts are equal if the texts are the same and the keys equal. -/
theorem Key.same_pair {name other : String} {k l : Key} :
    Key.same (.tuple [(Value.text name).toKey, k]) (.tuple [(Value.text other).toKey, l]) = true ↔
      name = other ∧ Key.same k l = true := by
  simp [Key.same, Key.sameItems, Value.toKey, Scalar.same, Scalar.isNumeric]

namespace Value

/-- The keys of lists are equal if the lists are as long and the keys at each place are equal. -/
theorem same_freeze_list {items others : List Value} :
    Key.same (freeze (.list items)) (freeze (.list others)) = true ↔
      items.length = others.length ∧
        ∀ (i : ℕ) v w, items[i]? = some v → others[i]? = some w →
          Key.same v.freeze w.freeze = true := by
  rw [freeze, freeze, Key.same, freezeItems_eq_map, freezeItems_eq_map, Key.sameItems_iff,
    List.length_map, List.length_map]
  refine and_congr_right fun _ => forall_congr' fun i => ?_
  rw [List.getElem?_map, List.getElem?_map]
  constructor
  · intro h v w hv hw
    exact h _ _ (congrArg (Option.map freeze) hv) (congrArg (Option.map freeze) hw)
  · intro h k l hk hl
    obtain ⟨v, hv, rfl⟩ := Option.map_eq_some_iff.1 hk
    obtain ⟨w, hw, rfl⟩ := Option.map_eq_some_iff.1 hl
    exact h v w hv hw

/-- A pair of a dictionary's key has an equal in another's just if both hold values under the name,
with equal keys. -/
theorem exists_same_pair {entries : Entries Value} (h : entries.Named) {name : String} {k : Key} :
    (∃ l ∈ freezeEntries entries, Key.same (.tuple [(Value.text name).toKey, k]) l = true) ↔
      ∃ w, entries.field? name = some w ∧ Key.same k w.freeze = true := by
  rw [freezeEntries_eq_map]
  constructor
  · rintro ⟨l, hl, hsame⟩
    obtain ⟨⟨key, w⟩, he, rfl⟩ := List.mem_map.1 hl
    obtain ⟨other, rfl⟩ : ∃ other, key = .text other := h.texts _ he
    obtain ⟨rfl, hkey⟩ := Key.same_pair.1 hsame
    exact ⟨w, h.field?_eq_some.2 he, hkey⟩
  · rintro ⟨w, hw, hkey⟩
    exact ⟨_, List.mem_map_of_mem (h.field?_eq_some.1 hw), Key.same_pair.2 ⟨rfl, hkey⟩⟩

/-- Every pair of a dictionary's key has an equal in another's, if what the dictionary holds the
other holds too, with an equal key. -/
theorem forall_same_pair {entries others : Entries Value} (h : entries.Named)
    (h' : others.Named) :
    (∀ k ∈ freezeEntries entries, ∃ l ∈ freezeEntries others, Key.same k l = true) ↔
      ∀ name v, entries.field? name = some v →
        ∃ w, others.field? name = some w ∧ Key.same v.freeze w.freeze = true := by
  constructor
  · intro hall name v hv
    refine (exists_same_pair h').1 (hall _ ?_)
    rw [freezeEntries_eq_map]
    exact List.mem_map_of_mem (h.field?_eq_some.1 hv)
  · intro hall k hk
    rw [freezeEntries_eq_map] at hk
    obtain ⟨⟨key, v⟩, he, rfl⟩ := List.mem_map.1 hk
    obtain ⟨name, rfl⟩ : ∃ name, key = .text name := h.texts _ he
    exact (exists_same_pair h').2 (hall name v (h.field?_eq_some.2 he))

/-- The keys of dictionaries are equal if these hold values under the same names, with equal keys
under each. -/
theorem same_freeze_dict {entries others : Entries Value} (h : entries.Named)
    (h' : others.Named) :
    Key.same (freeze (.dict entries)) (freeze (.dict others)) = true ↔
      (∀ name, (entries.field? name).isSome = (others.field? name).isSome) ∧
        ∀ name v w, entries.field? name = some v → others.field? name = some w →
          Key.same v.freeze w.freeze = true := by
  have hback : (∀ l ∈ freezeEntries others, ∃ k ∈ freezeEntries entries, Key.same k l = true) ↔
      ∀ name w, others.field? name = some w →
        ∃ v, entries.field? name = some v ∧ Key.same w.freeze v.freeze = true := by
    rw [← forall_same_pair h' h]
    exact forall₂_congr fun l _ => exists_congr fun k =>
      and_congr_right fun _ => ⟨Key.same_symm, Key.same_symm⟩
  rw [freeze, freeze, Key.same_set, forall_same_pair h h', hback]
  constructor
  · rintro ⟨hthere, hback⟩
    refine ⟨fun name => ?_, fun name v w hv hw => ?_⟩
    · rw [Bool.eq_iff_iff, Option.isSome_iff_exists, Option.isSome_iff_exists]
      exact ⟨fun ⟨v, hv⟩ => (hthere name v hv).imp fun _ => And.left,
        fun ⟨w, hw⟩ => (hback name w hw).imp fun _ => And.left⟩
    · obtain ⟨u, hu, hsame⟩ := hthere name v hv
      obtain rfl : u = w := Option.some.inj (hu.symm.trans hw)
      exact hsame
  · rintro ⟨hnames, hvalues⟩
    refine ⟨fun name v hv => ?_, fun name w hw => ?_⟩
    · obtain ⟨w, hw⟩ := Option.isSome_iff_exists.1 ((hnames name).symm.trans (by rw [hv]; rfl))
      exact ⟨w, hw, hvalues name v w hv hw⟩
    · obtain ⟨v, hv⟩ := Option.isSome_iff_exists.1 ((hnames name).trans (by rw [hw]; rfl))
      exact ⟨v, hv, Key.same_symm (hvalues name v w hv hw)⟩

/-! ## Equal keys and the same structure -/

/-- Numbers are equal just if they have one amount. -/
theorem same_number_iff {s t : Scalar} (hs : s.isNumeric = true) (ht : t.isNumeric = true) :
    Key.same (.scalar s) (.scalar t) = true ↔ Alike (.scalar s) (.scalar t) := by
  rw [Key.same, Scalar.same_of_isNumeric hs ht, Scalar.sameAmount]
  constructor
  · intro h
    cases ha : s.amount? with
    | none =>
      rw [ha] at h
      cases h
    | some x =>
      cases hb : t.amount? with
      | none =>
        rw [ha, hb] at h
        cases h
      | some y =>
        rw [ha, hb] at h
        obtain rfl : x = y := beq_iff_eq.1 h
        exact .number ha hb
  · rintro (_ | ⟨ha, hb⟩)
    · cases hs
    · rw [ha, hb]
      exact beq_self_eq_true _
    · cases hs

/-- The keys of JSON scalars are equal just if the scalars are alike. -/
theorem same_freeze_scalar {s t : Scalar} (hs : s.isJson = true) (ht : t.isJson = true) :
    Key.same (freeze (.scalar s)) (freeze (.scalar t)) = true ↔
      Alike (.scalar s) (.scalar t) := by
  cases s with
  | null =>
    cases t with
    | null => exact ⟨fun _ => .null, fun _ => rfl⟩
    | bool | int | double | text => exact ⟨fun h => (nomatch h), fun | .number ha _ => nomatch ha⟩
    | _ => cases ht
  | text a =>
    cases t with
    | text b =>
      refine ⟨fun h => ?_, fun h => ?_⟩
      · obtain rfl : a = b := beq_iff_eq.1 h
        exact .text a
      · cases h with
        | number ha _ => cases ha
        | text => exact beq_self_eq_true a
    | null | bool | int | double => exact ⟨fun h => (nomatch h), fun | .number ha _ => nomatch ha⟩
    | _ => cases ht
  | bool | int | double =>
    cases t with
    | null | text => exact ⟨fun h => (nomatch h), fun | .number _ hb => nomatch hb⟩
    | bool | int | double => exact same_number_iff rfl rfl
    | _ => cases ht
  | _ => cases hs

/-- The key of a JSON scalar is not that of a list or of a dictionary. -/
theorem not_same_freeze_scalar {s : Scalar} (hs : s.isJson = true) :
    (∀ items, ¬Key.same (freeze (.scalar s)) (freeze (.list items)) = true) ∧
      ∀ entries, ¬Key.same (freeze (.scalar s)) (freeze (.dict entries)) = true := by
  cases s with
  | null | bool | int | double | text => exact ⟨fun _ h => (nomatch h), fun _ h => (nomatch h)⟩
  | _ => cases hs

/-- **The keys of structured values are equal just if the values are alike.** -/
theorem same_freeze_iff {v w : Value} (hv : v.IsJson) (hw : w.IsJson) :
    Key.same v.freeze w.freeze = true ↔ v.Alike w := by
  -- by how the first value is built; a second one of another shape has another shape of key
  induction hv generalizing w with
  | @scalar s hs =>
    cases hw with
    | scalar ht => exact same_freeze_scalar hs ht
    | list => exact ⟨fun h => absurd h ((not_same_freeze_scalar hs).1 _), fun h => (nomatch h)⟩
    | dict => exact ⟨fun h => absurd h ((not_same_freeze_scalar hs).2 _), fun h => (nomatch h)⟩
  | @list items _ ih =>
    cases hw with
    | scalar ht =>
      exact ⟨fun h => absurd (Key.same_symm h) ((not_same_freeze_scalar ht).1 _),
        fun h => (nomatch h)⟩
    | @list others hothers =>
      have hitem : ∀ {i : ℕ} {v w : Value}, items[i]? = some v → others[i]? = some w →
          (Key.same v.freeze w.freeze = true ↔ v.Alike w) := fun hv hw =>
        ih _ (List.mem_of_getElem? hv) (hothers _ (List.mem_of_getElem? hw))
      rw [same_freeze_list]
      constructor
      · rintro ⟨hlength, h⟩
        exact .list hlength fun i v w hv hw => (hitem hv hw).1 (h i v w hv hw)
      · rintro (_ | _ | _ | ⟨hlength, h⟩)
        exact ⟨hlength, fun i v w hv hw => (hitem hv hw).2 (h i v w hv hw)⟩
    | dict => exact ⟨fun h => (nomatch h), fun h => (nomatch h)⟩
  | @dict entries hnamed _ ih =>
    cases hw with
    | scalar ht =>
      exact ⟨fun h => absurd (Key.same_symm h) ((not_same_freeze_scalar ht).2 _),
        fun h => (nomatch h)⟩
    | list => exact ⟨fun h => (nomatch h), fun h => (nomatch h)⟩
    | @dict others hnamed' hothers =>
      have hentry : ∀ {name : String} {v w : Value}, entries.field? name = some v →
          others.field? name = some w → (Key.same v.freeze w.freeze = true ↔ v.Alike w) :=
        fun hv hw => ih _ (hnamed.field?_eq_some.1 hv) (hothers _ (hnamed'.field?_eq_some.1 hw))
      rw [same_freeze_dict hnamed hnamed']
      constructor
      · rintro ⟨hnames, h⟩
        exact .dict hnames fun name v w hv hw => (hentry hv hw).1 (h name v w hv hw)
      · rintro (_ | _ | _ | _ | ⟨hnames, h⟩)
        exact ⟨hnames, fun name v w hv hw => (hentry hv hw).2 (h name v w hv hw)⟩

end Value

/-! ## Keys of rows -/

/-- What a row holds under a name, and the absent value if it holds nothing. -/
def Row.held (row : Row) (name : String) : Value := (Entries.field? name row).getD .null

/-- The key of a row is made of the keys of what it holds under each field. -/
theorem keyOf_eq_map (fields : List String) (row : Row) :
    keyOf fields (.dict row) = .ok (fields.map fun name => (row.held name).freeze) := by
  refine mapM_eq_ok fun name _ => ?_
  show Except.ok ((Entries.field? name row).elim .undefined Value.freeze) = _
  unfold Row.held
  cases Entries.field? name row <;> rfl

/-- **Rows have equal keys just if they are alike in every field**, where they hold structured
values; what is absent counts as the absent value.  A dictionary that holds the absent value under a
name is not the empty one. -/
theorem keyOf_alike {r s : Row} {fields : List String}
    (hr : ∀ name ∈ fields, (r.held name).IsJson) (hs : ∀ name ∈ fields, (s.held name).IsJson) :
    (∃ k l, keyOf fields (.dict r) = .ok k ∧ keyOf fields (.dict s) = .ok l ∧
      (Key.sameItems k l = true ↔ ∀ name ∈ fields, (r.held name).Alike (s.held name))) ∧
    ∀ name, Key.same (Value.dict [(.text name, .null)]).freeze (Value.dict []).freeze = false ∧
      ¬(Value.dict [(.text name, .null)]).Alike (.dict []) := by
  refine ⟨⟨_, _, keyOf_eq_map fields r, keyOf_eq_map fields s, ?_⟩,
    fun name => ⟨rfl, fun h => ?_⟩⟩
  · induction fields with
    | nil => simp [Key.sameItems]
    | cons name fields ih =>
      obtain ⟨hrname, hr⟩ := List.forall_mem_cons.1 hr
      obtain ⟨hsname, hs⟩ := List.forall_mem_cons.1 hs
      rw [List.map_cons, List.map_cons, Key.sameItems, Bool.and_eq_true, ih hr hs,
        Value.same_freeze_iff hrname hsname, List.forall_mem_cons]
  · cases h with
    | dict hnames =>
      have hthere := hnames name
      simp only [Entries.field?, if_true] at hthere
      cases hthere

/-- A setting, as it is first sent. -/
def setting : Row :=
  [(.text "k", .dict [(.text "on", .bool true), (.text "level", .list [.double .zero, .null])])]

/-- The setting with its entries in the other order, and numbers of other kinds. -/
def settingAgain : Row :=
  [(.text "k", .dict [(.text "level", .list [.int 0, .null]), (.text "on", .int 1)])]

/-- The setting has one key in either order of its entries. -/
theorem keyOf_alike_setting :
    ∃ k l, keyOf ["k", "absent"] (.dict setting) = .ok k ∧
      keyOf ["k", "absent"] (.dict settingAgain) = .ok l ∧ Key.sameItems k l = true ∧
      ∀ name ∈ ["k", "absent"], (setting.held name).Alike (settingAgain.held name) := by
  have hsetting : ∀ name ∈ ["k", "absent"], (setting.held name).IsJson := by
    refine List.forall_mem_cons.2 ⟨?_, List.forall_mem_singleton.2 (.scalar rfl)⟩
    refine .dict ⟨by simp, by simp⟩ (List.forall_mem_cons.2 ⟨.scalar rfl, ?_⟩)
    refine List.forall_mem_singleton.2 (.list ?_)
    exact List.forall_mem_cons.2 ⟨.scalar rfl, List.forall_mem_singleton.2 (.scalar rfl)⟩
  have hagain : ∀ name ∈ ["k", "absent"], (settingAgain.held name).IsJson := by
    refine List.forall_mem_cons.2 ⟨?_, List.forall_mem_singleton.2 (.scalar rfl)⟩
    refine .dict ⟨by simp, by simp⟩ (List.forall_mem_cons.2 ⟨.list ?_, ?_⟩)
    · exact List.forall_mem_cons.2 ⟨.scalar rfl, List.forall_mem_singleton.2 (.scalar rfl)⟩
    · exact List.forall_mem_singleton.2 (.scalar rfl)
  obtain ⟨⟨k, l, hk, hl, hsame⟩, -⟩ := keyOf_alike hsetting hagain
  have hequal : Key.sameItems k l = true := by
    obtain rfl := Except.ok.inj hk
    obtain rfl := Except.ok.inj hl
    decide +kernel
  exact ⟨k, l, hk, hl, hequal, hsame.1 hequal⟩

end LiveChart
