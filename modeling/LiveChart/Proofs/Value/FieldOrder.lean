import LiveChart.Proofs.Value.Structure
/-!
# The order of fields

A row is known by what it holds under every key, so rows with the same fields in another order are
the same rows.  Entries under names that differ pairwise can stand in any order.

* `Row.SameFields` : rows that are equal as mappings;
* `Entries.ofFields_eq_map` : fields of pairwise distinct names are kept as they are given;
* `Row.SameFields.of_perm` : entries under distinct names in another order make the same row.
-/

namespace LiveChart

/-- Rows that are equal as mappings: they have the same entries in whatever order, and hold the same
under every name and under every key. -/
structure Row.SameFields (r s : Row) : Prop where
  entries : r.Perm s
  field : ∀ name, Entries.field? name r = Entries.field? name s
  lookup : ∀ key, Value.lookup? key r = Value.lookup? key s

/-- A row is equal to itself as a mapping. -/
theorem Row.SameFields.refl (r : Row) : r.SameFields r := ⟨.refl r, fun _ => rfl, fun _ => rfl⟩

/-- Only a text equals a text. -/
theorem Value.same_text_iff {name : String} {key : Value} :
    (Value.text name).same key = true ↔ key = .text name := by
  constructor
  · intro h
    cases key with
    | scalar s =>
      cases s with
      | text t =>
        obtain rfl : name = t := beq_iff_eq.1 h
        rfl
      | _ => cases h
    | _ => cases h
  · rintro rfl
    exact beq_self_eq_true name

namespace Entries

variable {α : Type}

/-! ## Fields of distinct names -/

/-- A name that is not there yet is bound at the end. -/
theorem bindField_of_new {name : String} {entries : Entries α} (a : α)
    (h : ∀ e ∈ entries, e.1 ≠ .text name) :
    bindField name a entries = entries ++ [(.text name, a)] := by
  fun_induction bindField name a entries with
  | case1 => rfl
  | case2 => exact absurd rfl (h _ List.mem_cons_self)
  | case3 key b rest hkey ih =>
    rw [ih fun e he => h e (List.mem_cons_of_mem _ he)]
    rfl
  | case4 entry rest hentry ih =>
    rw [ih fun e he => h e (List.mem_cons_of_mem _ he)]
    rfl

/-- **Fields of pairwise distinct names are kept as they are given.** -/
theorem ofFields_eq_map {fields : List (String × α)} (h : (fields.map Prod.fst).Nodup) :
    ofFields fields = fields.map fun f => (.text f.1, f.2) := by
  induction fields using List.reverseRecOn with
  | nil => rfl
  | append_singleton fields f ih =>
    rw [List.map_append, List.map_singleton] at h
    obtain ⟨hfields, -, hnew⟩ := List.nodup_append.1 h
    have hlast : ofFields (fields ++ [f]) = bindField f.1 f.2 (ofFields fields) := by
      rw [ofFields, List.foldl_append]
      rfl
    rw [hlast, ih hfields, List.map_append]
    apply bindField_of_new
    intro e he htext
    obtain ⟨g, hg, rfl⟩ := List.mem_map.1 he
    have hname : g.1 = f.1 := Scalar.text.inj (Value.scalar.inj htext)
    exact hnew g.1 (List.mem_map_of_mem hg) f.1 (List.mem_singleton_self _) hname

/-- Fields of pairwise distinct names are entries under names. -/
theorem named_map {fields : List (String × α)} (h : (fields.map Prod.fst).Nodup) :
    Named (fields.map fun f => (Value.text f.1, f.2)) := by
  constructor
  · intro e he
    obtain ⟨f, -, rfl⟩ := List.mem_map.1 he
    exact ⟨f.1, rfl⟩
  · have hnames : (fields.map fun f => (Value.text f.1, f.2)).map Prod.fst
        = (fields.map Prod.fst).map Value.text := by
      rw [List.map_map, List.map_map]
      rfl
    rw [hnames]
    refine h.map ?_
    intro a b hab
    cases hab
    rfl

/-! ## Entries in another order -/

/-- Entries under names hold something under a name only. -/
theorem Named.lookup?_eq {entries : Entries α} (h : Named entries) (key : Value) :
    Value.lookup? key entries =
      match key with
      | .text name => field? name entries
      | _ => none := by
  induction entries with
  | nil => cases key with
    | scalar s => cases s <;> rfl
    | _ => rfl
  | cons e entries ih =>
    obtain ⟨k, a⟩ := e
    obtain ⟨first, rfl⟩ : ∃ first, k = .text first := h.texts _ List.mem_cons_self
    have hrest := ih h.tail
    unfold Value.lookup? at hrest ⊢
    by_cases hkey : (Value.text first).same key = true
    · rw [List.find?_cons_of_pos (by exact hkey)]
      obtain rfl := Value.same_text_iff.1 hkey
      simp only [field?, if_true]
      rfl
    · rw [List.find?_cons_of_neg (by exact hkey), hrest]
      split
      · next name =>
        have hname : first ≠ name := by
          rintro rfl
          exact hkey (Value.same_text_iff.2 rfl)
        rw [field?, if_neg hname]
      · rfl

/-- **Entries under names hold the same in any order.** -/
theorem Named.field?_perm {entries others : Entries α} (h : Named entries)
    (hperm : entries.Perm others) (name : String) : field? name entries = field? name others := by
  have hothers : Named others :=
    ⟨fun e he => h.texts e (hperm.mem_iff.2 he), (hperm.map Prod.fst).nodup_iff.1 h.distinct⟩
  apply Option.ext
  intro a
  rw [h.field?_eq_some, hothers.field?_eq_some, hperm.mem_iff]

end Entries

/-- **Entries under distinct names in another order make the same row.** -/
theorem Row.SameFields.of_perm {r s : Row} (h : Entries.Named r) (hperm : r.Perm s) :
    r.SameFields s := by
  have hs : Entries.Named s :=
    ⟨fun e he => h.texts e (hperm.mem_iff.2 he), (hperm.map Prod.fst).nodup_iff.1 h.distinct⟩
  refine ⟨hperm, h.field?_perm hperm, ?_⟩
  intro key
  rw [h.lookup?_eq, hs.lookup?_eq]
  split
  · exact h.field?_perm hperm _
  · rfl

end LiveChart
