import LiveChart.Proofs.Value.FieldOrder
import LiveChart.Stream.Normalize
/-!
# Reading rows back

A positional row is stored as a mapping under the names of its columns.  Reading the mapping by
these names gives the values back, unless two columns have one name: a mapping holds one value under
a name, and that is the last one.

* `Entries.field?_ofFields` : of the fields of one name the last holds;
* `readBack` : what a row holds under some names, in order;
* `readBack_ofFields_iff` : fields are read back as they are just if no name stands for two values;
* `readBack_positional` : positional rows are read back as they are, all of them just if the columns
  have distinct names.
-/

namespace LiveChart

variable {α β : Type}

/-! ## Looking up names -/

/-- What equals a text is that text. -/
theorem Value.same_text_right_iff {name : String} {key : Value} :
    key.same (.text name) = true ↔ key = .text name := by
  cases key with
  | scalar s => cases s <;> simp [Value.same, Scalar.same, Scalar.isNumeric]
  | _ => simp [Value.same]

namespace Entries

/-- Binding a name changes what is held under that name, and nothing else. -/
theorem field?_bindField (name other : String) (a : α) (entries : Entries α) :
    field? name (bindField other a entries)
      = if other = name then some a else field? name entries := by
  fun_induction bindField other a entries with
  | case1 => rfl
  | case2 b rest =>
    simp only [field?]
    split_ifs <;> rfl
  | case3 key b rest hkey ih =>
    simp only [field?, ih]
    split_ifs with hname hother
    · exact absurd (hname.trans hother.symm) hkey
    · rfl
    · rfl
    · rfl
  | case4 entry rest hentry ih =>
    have hkey : entry.1 ≠ .text name := fun h => hentry name entry.2 (Prod.ext h rfl)
    rw [field?_cons_of_ne hkey, field?_cons_of_ne hkey, ih]

/-- **Of the fields of one name the last holds.** -/
theorem field?_ofFields (name : String) (fields : List (String × α)) :
    field? name (ofFields fields) = fields.reverse.lookup name := by
  induction fields using List.reverseRecOn with
  | nil => rfl
  | append_singleton fields f ih =>
    have hlast : ofFields (fields ++ [f]) = bindField f.1 f.2 (ofFields fields) := by
      rw [ofFields, List.foldl_append]
      rfl
    rw [hlast, field?_bindField, ih, List.reverse_concat, List.lookup_cons]
    by_cases hname : f.1 = name
    · rw [if_pos hname, hname, beq_self_eq_true]
    · rw [if_neg hname, beq_false_of_ne (Ne.symm hname)]

/-- A name is looked up among the names. -/
theorem lookup?_text (name : String) (entries : Entries α) :
    Value.lookup? (.text name) entries = field? name entries := by
  induction entries with
  | nil => rfl
  | cons e entries ih =>
    unfold Value.lookup? at ih ⊢
    by_cases hkey : e.1 = .text name
    · rw [List.find?_cons_of_pos (by exact Value.same_text_right_iff.2 hkey)]
      obtain ⟨key, a⟩ := e
      obtain rfl : key = .text name := hkey
      simp [field?]
    · rw [List.find?_cons_of_neg (by exact fun h => hkey (Value.same_text_right_iff.1 h)), ih,
        field?_cons_of_ne hkey]

end Entries

/-! ## Reading back -/

/-- A computation over a list succeeds just if it does for each item. -/
theorem mapM_eq_ok_iff {f : α → Result β} {l : List α} {r : List β} :
    l.mapM f = .ok r ↔ List.Forall₂ (fun a b => f a = .ok b) l r := by
  induction l generalizing r with
  | nil =>
    rw [List.mapM_nil, List.forall₂_nil_left_iff]
    exact ⟨fun h => (Except.ok.inj h).symm, fun h => by rw [h]; rfl⟩
  | cons a l ih =>
    rw [List.mapM_cons, Result.bind_eq_ok, List.forall₂_cons_left_iff]
    constructor
    · rintro ⟨b, hb, h⟩
      obtain ⟨rest, hrest, h⟩ := Result.bind_eq_ok.1 h
      exact ⟨b, rest, hb, ih.1 hrest, (Except.ok.inj h).symm⟩
    · rintro ⟨b, rest, hb, hrest, rfl⟩
      exact ⟨b, hb, Result.bind_eq_ok.2 ⟨rest, ih.2 hrest, rfl⟩⟩

/-- What a row holds under some names, in order. -/
def readBack (names : List String) (row : Row) : Result (List Value) :=
  names.mapM fun name => (Value.dict row).itemAt (.text name)

/-- The item of a row under a name is the field of that name. -/
theorem itemAt_text (name : String) (row : Row) :
    (Value.dict row).itemAt (.text name) =
      match Entries.field? name row with
      | some v => .ok v
      | none => fail .key := by
  rw [← Entries.lookup?_text]
  rfl

/-- A row holds a value under a name just if the field of that name is this value. -/
theorem itemAt_text_eq_ok {name : String} {row : Row} {v : Value} :
    (Value.dict row).itemAt (.text name) = .ok v ↔ Entries.field? name row = some v := by
  rw [itemAt_text]
  cases Entries.field? name row with
  | none => exact ⟨fun h => (nomatch h), fun h => (nomatch h)⟩
  | some w =>
    exact ⟨fun h => congrArg some (Except.ok.inj h), fun h => congrArg _ (Option.some.inj h)⟩

/-- Fields in which no name stands for two values. -/
def SingleValued (fields : List (String × Value)) : Prop :=
  ∀ f ∈ fields, ∀ g ∈ fields, f.1 = g.1 → f.2 = g.2

/-- Under distinct names no name stands for two values. -/
theorem SingleValued.of_nodup {fields : List (String × Value)}
    (h : (fields.map Prod.fst).Nodup) : SingleValued fields := by
  intro f hf g hg hname
  rw [List.inj_on_of_nodup_map h hf hg hname]

/-- Different values under names of which none stands for two values have distinct names. -/
theorem SingleValued.nodup {fields : List (String × Value)} (h : SingleValued fields)
    (hvalues : (fields.map Prod.snd).Nodup) : (fields.map Prod.fst).Nodup := by
  refine List.Nodup.map_on ?_ (List.Nodup.of_map Prod.snd hvalues)
  intro f hf g hg hname
  exact Prod.ext hname (h f hf g hg hname)

/-- **Fields are read back as they are just if no name stands for two values.** -/
theorem readBack_ofFields_iff (fields : List (String × Value)) :
    readBack (fields.map Prod.fst) (Entries.ofFields fields) = .ok (fields.map Prod.snd) ↔
      SingleValued fields := by
  have hread : readBack (fields.map Prod.fst) (Entries.ofFields fields)
        = .ok (fields.map Prod.snd) ↔
      ∀ f ∈ fields, fields.reverse.lookup f.1 = some f.2 := by
    rw [readBack, mapM_eq_ok_iff, List.forall₂_map_left_iff, List.forall₂_map_right_iff,
      List.forall₂_same]
    simp only [itemAt_text_eq_ok, Entries.field?_ofFields]
  rw [hread]
  constructor
  · intro h f hf g hg hname
    have hvalue := h f hf
    rw [hname, h g hg] at hvalue
    exact (Option.some.inj hvalue).symm
  · intro h f hf
    have hsome : (fields.reverse.lookup f.1).isSome = true :=
      List.lookup_isSome_iff.2 ⟨f, List.mem_reverse.2 hf, beq_self_eq_true _⟩
    obtain ⟨v, hv⟩ := Option.isSome_iff_exists.1 hsome
    obtain ⟨before, after, hsplit, -⟩ := List.lookup_eq_some_iff.1 hv
    have hlast : (f.1, v) ∈ fields := by
      rw [← List.mem_reverse, hsplit]
      exact List.mem_append_right _ List.mem_cons_self
    rw [hv, h f hf (f.1, v) hlast rfl]

/-! ## Positional rows -/

section Positional

variable {columns : List Column} {row : Value} {items : List Value} {r : Row}

/-- A positional row has a canonical form just if it has as many values as there are columns: the
values under the names of the columns. -/
theorem normalize_positional (hitems : row.positions? = some items) :
    normalize columns row = .ok r ↔
      items.length = columns.length ∧ r = rowOfPositions columns items := by
  have hrow : normalize columns row =
      if items.length = columns.length then .ok (rowOfPositions columns items)
      else .error (.rowLength columns.length items.length) := by
    cases row with
    | list => cases hitems; rfl
    | tuple => cases hitems; rfl
    | _ => cases hitems
  rw [hrow]
  split_ifs with hlength
  · exact ⟨fun h => ⟨hlength, (Except.ok.inj h).symm⟩, fun h => by rw [h.2]⟩
  · exact ⟨fun h => (nomatch h), fun h => absurd h.1 hlength⟩

/-- **A positional row is read back as it is just if columns of one name hold one value.** -/
theorem readBack_normalize_iff (hitems : row.positions? = some items)
    (hrow : normalize columns row = .ok r) :
    readBack (columns.map Column.name) r = .ok items ↔
      SingleValued ((columns.map Column.name).zip items) := by
  obtain ⟨hlength, rfl⟩ := (normalize_positional hitems).1 hrow
  have hnames : (columns.map Column.name).length = items.length := by
    rw [List.length_map, hlength]
  have h := readBack_ofFields_iff ((columns.map Column.name).zip items)
  rwa [List.map_fst_zip hnames.le, List.map_snd_zip hnames.ge] at h

/-- **Positional rows are stored without loss under distinct names, and only there.**  Take any
columns.  If their names are distinct, then every positional row that has a canonical form is read
back, by the names in order, as the values that it was given with.  If two columns have one name,
there is a row of which this does not hold; it holds just of the rows in which columns of one name
have one value. -/
theorem readBack_positional (columns : List Column) :
    ((columns.map Column.name).Nodup ↔
      ∀ row items r, row.positions? = some items → normalize columns row = .ok r →
        readBack (columns.map Column.name) r = .ok items) ∧
    ∀ row items r, row.positions? = some items → normalize columns row = .ok r →
      (readBack (columns.map Column.name) r = .ok items ↔
        SingleValued ((columns.map Column.name).zip items)) := by
  refine ⟨⟨?_, ?_⟩, fun row items r => readBack_normalize_iff⟩
  · intro hnames row items r hitems hrow
    obtain ⟨hlength, -⟩ := (normalize_positional hitems).1 hrow
    refine (readBack_normalize_iff hitems hrow).2 (.of_nodup ?_)
    rwa [List.map_fst_zip (by rw [List.length_map, hlength])]
  · intro h
    -- a row of numbers that all differ tells the columns apart
    set items := (List.range columns.length).map fun i : ℕ => Value.int i with hitems
    have hlength : items.length = columns.length := by
      rw [hitems, List.length_map, List.length_range]
    have hdistinct : items.Nodup := by
      refine List.Nodup.map ?_ List.nodup_range
      intro i j hij
      cases hij
      rfl
    have hrow : normalize columns (.list items) = .ok (rowOfPositions columns items) :=
      if_pos hlength
    have hsingle := (readBack_normalize_iff rfl hrow).1 (h (.list items) items _ rfl hrow)
    have hlengths : (columns.map Column.name).length = items.length := by
      rw [List.length_map, hlength]
    have hnames := hsingle.nodup (by rwa [List.map_snd_zip hlengths.ge])
    rwa [List.map_fst_zip hlengths.le] at hnames

end Positional

/-- The description of two columns of one name. -/
def repeatedName : Value :=
  let column := Value.dict [(.text "name", .text "v"), (.text "type", .text "int8")]
  .list [column, column]

/-- Columns of one name are accepted, and the value of the first is lost. -/
theorem readBack_repeatedName :
    ¬∀ (given : Value) (columns : List Column) (row : Value) (items : List Value) (r : Row),
      columnsOf given = .ok columns → row.positions? = some items →
        normalize columns row = .ok r →
        readBack (columns.map Column.name) r = .ok items := by
  intro h
  have hback := h repeatedName [⟨"v", .int8, false⟩, ⟨"v", .int8, false⟩] (.list [.int 1, .int 2])
    [.int 1, .int 2] [(.text "v", .int 2)] rfl rfl rfl
  have hlast : readBack ["v", "v"] [(.text "v", .int 2)] = .ok [.int 2, .int 2] := rfl
  have hvalues := Except.ok.inj (hlast.symm.trans hback)
  simp at hvalues

end LiveChart
