import LiveChart.Proofs.Text.QuotedBytes
import LiveChart.Proofs.Value.Structure
/-!
# Keys tell kinds apart, but for two confusions

Every container becomes a tuple or a set of keys, so values of different kinds could have one key.
Two kinds of parts do.  A dictionary has the key of a set of pairs, which are its entries, so the
empty dictionary has the key of the empty set; and a byte array has the key of a sequence of three
texts, which are the mark, the kind and the quoted text.  Values that hold no such parts have equal
keys only if they are of one kind and of the same structure.

* `Value.SameStructure` : values of one kind and of the same structure;
* `Value.Within` : the parts of a value;
* `Value.Confused` : parts of two kinds that can have one key;
* `Value.sameStructure_of_toKey` : the keys of dictionaries tell everything;
* `Value.sameStructure_or_confused` : the keys of values tell everything but confused parts.
-/

namespace LiveChart

/-- Whether a scalar is a byte array. -/
def Scalar.isByteArray : Scalar → Bool
  | .byteArray _ => true
  | _ => false

namespace Value

/-! ## Kinds and structure -/

/-- The items of a sequence of any kind. -/
def sequence? : Value → Option (List Value)
  | .list items | .tuple items | .array _ items => some items
  | _ => none

/-- Values of one kind and of the same structure: equal scalars, byte arrays of the same bytes,
sequences that are so item by item, sets whose items can be paired so, and dictionaries whose entries
can be paired so in their keys and in their values. -/
inductive SameStructure : Value → Value → Prop where
  | scalar {s t : Scalar} (hs : s.isByteArray = false) (ht : t.isByteArray = false)
      (h : s.same t = true) : SameStructure (.scalar s) (.scalar t)
  | byteArray (bs : List UInt8) :
      SameStructure (.scalar (.byteArray bs)) (.scalar (.byteArray bs))
  | sequence {v w : Value} {items others : List Value} (hv : v.sequence? = some items)
      (hw : w.sequence? = some others) (hlength : items.length = others.length)
      (h : ∀ (i : ℕ) a b, items[i]? = some a → others[i]? = some b → SameStructure a b) :
      SameStructure v w
  | set {items others : List Value} (pairs : Value → Value → Prop)
      (hitems : ∀ a ∈ items, ∃ b ∈ others, pairs a b)
      (hothers : ∀ b ∈ others, ∃ a ∈ items, pairs a b)
      (h : ∀ a b, pairs a b → SameStructure a b) : SameStructure (.set items) (.set others)
  | dict {entries others : Entries Value} (pairs : Value × Value → Value × Value → Prop)
      (hentries : ∀ e ∈ entries, ∃ f ∈ others, pairs e f)
      (hothers : ∀ f ∈ others, ∃ e ∈ entries, pairs e f)
      (hkey : ∀ e f, pairs e f → SameStructure e.1 f.1)
      (hvalue : ∀ e f, pairs e f → SameStructure e.2 f.2) :
      SameStructure (.dict entries) (.dict others)

/-! ## Parts -/

/-- The items of a container, or the values of a dictionary. -/
def children : Value → List Value
  | .list items | .tuple items | .array _ items | .set items => items
  | .dict entries => entries.map Prod.snd
  | .scalar _ => []

/-- The parts of a value, among them the value itself; the keys of dictionaries are none. -/
inductive Within : Value → Value → Prop where
  | self (v : Value) : Within v v
  | child {a b v : Value} (hb : b ∈ v.children) (h : Within a b) : Within a v

/-- Values that a dictionary can have for keys hold no dictionary and no byte array. -/
structure Fixed (v : Value) : Prop where
  dict : ∀ entries, ¬Within (.dict entries) v
  byteArray : ∀ bs, ¬Within (.scalar (.byteArray bs)) v

/-- The dictionaries in a value have keys that cannot change. -/
def Lawful (v : Value) : Prop :=
  ∀ entries, Within (.dict entries) v → ∀ e ∈ entries, e.1.Fixed

theorem Fixed.child {a v : Value} (h : v.Fixed) (ha : a ∈ v.children) : a.Fixed where
  dict entries hentries := h.dict entries (.child ha hentries)
  byteArray bs hbs := h.byteArray bs (.child ha hbs)

theorem Lawful.child {a v : Value} (h : v.Lawful) (ha : a ∈ v.children) : a.Lawful :=
  fun entries hentries => h entries (.child ha hentries)

/-- Induction over values: what holds of the items of a container holds of it, and what holds of the
keys and the values of a dictionary holds of the dictionary. -/
@[elab_as_elim]
theorem induct {P : Value → Prop} (scalar : ∀ s, P (.scalar s))
    (sequence : ∀ v items, v.sequence? = some items → (∀ a ∈ items, P a) → P v)
    (set : ∀ items, (∀ a ∈ items, P a) → P (.set items))
    (dict : ∀ entries, (∀ e ∈ entries, P e.1 ∧ P e.2) → P (.dict entries)) (v : Value) : P v := by
  refine @Value.rec P (fun items => ∀ a ∈ items, P a) (fun entries => ∀ e ∈ entries, P e.1 ∧ P e.2)
    (fun e => P e.1 ∧ P e.2) scalar (fun items => sequence _ items rfl)
    (fun items => sequence _ items rfl) set dict (fun _ items => sequence _ items rfl)
    (fun _ h => absurd h List.not_mem_nil) ?_ (fun _ h => absurd h List.not_mem_nil) ?_
    (fun _ _ hk hv => ⟨hk, hv⟩) v
  · exact fun a items ha hitems => List.forall_mem_cons.2 ⟨ha, hitems⟩
  · exact fun e entries he hentries => List.forall_mem_cons.2 ⟨he, hentries⟩

/-- A value is a scalar, a sequence, a set or a dictionary. -/
theorem shape (v : Value) : (∃ s, v = .scalar s) ∨ (∃ items, v.sequence? = some items) ∨
    (∃ items, v = .set items) ∨ ∃ entries, v = .dict entries := by
  cases v with
  | scalar s => exact .inl ⟨s, rfl⟩
  | list items => exact .inr (.inl ⟨items, rfl⟩)
  | tuple items => exact .inr (.inl ⟨items, rfl⟩)
  | array element items => exact .inr (.inl ⟨items, rfl⟩)
  | set items => exact .inr (.inr (.inl ⟨items, rfl⟩))
  | dict entries => exact .inr (.inr (.inr ⟨entries, rfl⟩))

/-! ## Keys of containers -/

variable {v w : Value} {items others : List Value}

theorem children_of_sequence (h : v.sequence? = some items) : v.children = items := by
  cases v <;> cases h <;> rfl

theorem freeze_of_sequence (h : v.sequence? = some items) :
    v.freeze = .tuple (items.map freeze) := by
  cases v <;> cases h <;> rw [freeze, freezeItems_eq_map]

theorem freeze_set (items : List Value) : freeze (.set items) = .set (items.map freeze) := by
  rw [freeze, freezeItems_eq_map]

theorem freeze_dict (entries : Entries Value) :
    freeze (.dict entries) = .set (entries.map fun e => .tuple [e.1.toKey, e.2.freeze]) := by
  rw [freeze, freezeEntries_eq_map]

theorem toKeys_eq_map (items : List Value) : toKeys items = items.map toKey := by
  induction items with
  | nil => rfl
  | cons v items ih => rw [toKeys, ih, List.map_cons]

theorem toKey_of_sequence (h : v.sequence? = some items) : v.toKey = .tuple (items.map toKey) := by
  cases v <;> cases h <;> rw [toKey, toKeys_eq_map]

theorem toKey_set (items : List Value) : toKey (.set items) = .set (items.map toKey) := by
  rw [toKey, toKeys_eq_map]

/-! ## Containers with equal keys -/

section Containers

variable {f : Value → Key}

/-- Sequences of which the keys of the items are equal one by one. -/
theorem sameStructure_sequence (hv : v.sequence? = some items) (hw : w.sequence? = some others)
    (hkeys : Key.sameItems (items.map f) (others.map f) = true)
    (h : ∀ a ∈ items, ∀ b ∈ others, Key.same (f a) (f b) = true → a.SameStructure b) :
    v.SameStructure w := by
  obtain ⟨hlength, hall⟩ := Key.sameItems_iff.1 hkeys
  rw [List.length_map, List.length_map] at hlength
  refine .sequence hv hw hlength ?_
  intro i a b ha hb
  have hsame := hall i (f a) (f b) (by rw [List.getElem?_map, ha]; rfl)
    (by rw [List.getElem?_map, hb]; rfl)
  exact h a (List.mem_of_getElem? ha) b (List.mem_of_getElem? hb) hsame

/-- Sets of which every item has one of equal key in the other. -/
theorem sameStructure_set (hkeys : Key.same (.set (items.map f)) (.set (others.map f)) = true)
    (h : ∀ a ∈ items, ∀ b ∈ others, Key.same (f a) (f b) = true → a.SameStructure b) :
    SameStructure (.set items) (.set others) := by
  obtain ⟨hitems, hothers⟩ := Key.same_set.1 hkeys
  refine .set (fun a b => a ∈ items ∧ b ∈ others ∧ Key.same (f a) (f b) = true) ?_ ?_ ?_
  · intro a ha
    obtain ⟨_, hk, hsame⟩ := hitems (f a) (List.mem_map_of_mem ha)
    obtain ⟨b, hb, rfl⟩ := List.mem_map.1 hk
    exact ⟨b, hb, ha, hb, hsame⟩
  · intro b hb
    obtain ⟨_, hk, hsame⟩ := hothers (f b) (List.mem_map_of_mem hb)
    obtain ⟨a, ha, rfl⟩ := List.mem_map.1 hk
    exact ⟨a, ha, ha, hb, hsame⟩
  · rintro a b ⟨ha, hb, hsame⟩
    exact h a ha b hb hsame

end Containers

/-- **The keys of dictionaries tell everything**: they are of one kind and of the same structure if
they are equal as they stand. -/
theorem sameStructure_of_toKey (hv : v.Fixed) (hw : w.Fixed)
    (h : Key.same v.toKey w.toKey = true) : v.SameStructure w := by
  induction v using induct generalizing w with
  | scalar s =>
    cases w with
    | scalar t =>
      -- no fixed value is a byte array
      have hfree : ∀ {u : Scalar}, (Value.scalar u).Fixed → u.isByteArray = false := by
        intro u hu
        cases u with
        | byteArray bs => exact absurd (.self _) (hu.byteArray bs)
        | _ => rfl
      exact .scalar (hfree hv) (hfree hw) h
    | _ => cases h
  | sequence v items hitems ih =>
    rw [toKey_of_sequence hitems] at h
    rcases w.shape with ⟨t, rfl⟩ | ⟨others, hothers⟩ | ⟨others, rfl⟩ | ⟨entries, rfl⟩
    · cases h
    · rw [toKey_of_sequence hothers] at h
      refine sameStructure_sequence hitems hothers h ?_
      intro a ha b hb
      exact ih a ha (hv.child (by rwa [children_of_sequence hitems]))
        (hw.child (by rwa [children_of_sequence hothers]))
    · cases h
    · exact absurd (.self _) (hw.dict entries)
  | set items ih =>
    rcases w.shape with ⟨t, rfl⟩ | ⟨others, hothers⟩ | ⟨others, rfl⟩ | ⟨entries, rfl⟩
    · cases h
    · rw [toKey_of_sequence hothers] at h
      cases h
    · rw [toKey_set, toKey_set] at h
      refine sameStructure_set h ?_
      intro a ha b hb
      exact ih a ha (hv.child ha) (hw.child hb)
    · exact absurd (.self _) (hw.dict entries)
  | dict entries => exact absurd (.self _) (hv.dict entries)

/-! ## Keys of scalars -/

/-- The absent value, byte arrays and the other scalars have keys of different forms. -/
theorem freezeScalar_cases (s : Scalar) : s = .null ∨ (∃ bs, s = .byteArray bs) ∨
    (freezeScalar s = .scalar s ∧ s.isByteArray = false) := by
  cases s with
  | null => exact .inl rfl
  | byteArray bs => exact .inr (.inl ⟨bs, rfl⟩)
  | _ => exact .inr (.inr ⟨rfl, rfl⟩)

/-- The texts that mark a byte array. -/
def markOf (bs : List UInt8) : List Value :=
  [.text "__unhashable__", .text "bytearray", .text (Scalar.byteArray bs).quoted]

/-- A byte array has the key of the sequence of its marks. -/
theorem freeze_byteArray (bs : List UInt8) :
    freeze (.scalar (.byteArray bs)) = .tuple ((markOf bs).map freeze) := rfl

/-- Only a text has the key of a text. -/
theorem eq_text_of_same {t : String} (h : Key.same (.scalar (.text t)) v.freeze = true) :
    v = .text t := by
  rcases v.shape with ⟨s, rfl⟩ | ⟨items, hitems⟩ | ⟨items, rfl⟩ | ⟨entries, rfl⟩
  · rcases freezeScalar_cases s with rfl | ⟨bs, rfl⟩ | ⟨hs, -⟩
    · cases h
    · cases h
    · rw [freeze, hs, Key.same] at h
      cases s with
      | text u =>
        obtain rfl : t = u := beq_iff_eq.1 h
        rfl
      | _ => cases h
  · rw [freeze_of_sequence hitems] at h
    cases h
  · cases h
  · cases h

/-- Only the marks of a byte array have their keys. -/
theorem eq_markOf_of_same {bs : List UInt8}
    (h : Key.sameItems ((markOf bs).map freeze) (items.map freeze) = true) :
    items = markOf bs := by
  rcases items with - | ⟨a, - | ⟨b, - | ⟨c, - | ⟨d, items⟩⟩⟩⟩ <;>
    simp only [markOf, List.map_cons, List.map_nil, Key.sameItems, Bool.and_eq_true,
      Bool.and_false, Bool.false_eq_true, and_true] at h
  obtain ⟨ha, hb, hc⟩ := h
  rw [eq_text_of_same ha, eq_text_of_same hb, eq_text_of_same hc]
  rfl

/-- **The keys of scalars tell everything.** -/
theorem sameStructure_scalar {s t : Scalar}
    (h : Key.same (freezeScalar s) (freezeScalar t) = true) :
    SameStructure (.scalar s) (.scalar t) := by
  rcases freezeScalar_cases s with rfl | ⟨bs, rfl⟩ | ⟨hs, hs'⟩ <;>
    rcases freezeScalar_cases t with rfl | ⟨cs, rfl⟩ | ⟨ht, ht'⟩
  · exact .scalar rfl rfl rfl
  · cases h
  · rw [ht] at h
    cases h
  · cases h
  · have hmarks : markOf cs = markOf bs := eq_markOf_of_same h
    have hquoted : (Scalar.byteArray cs).quoted = (Scalar.byteArray bs).quoted := by
      simpa [markOf] using hmarks
    have hbytes : Text.quoteByteArray cs = Text.quoteByteArray bs := by
      simpa [Scalar.quoted] using hquoted
    obtain rfl := Text.quoteByteArray_injective hbytes
    exact .byteArray cs
  · rw [ht] at h
    cases h
  · rw [hs] at h
    cases h
  · rw [hs] at h
    cases h
  · rw [hs, ht] at h
    exact .scalar hs' ht' h

/-- No scalar has the key of a set. -/
theorem not_same_freezeScalar_set {s : Scalar} {keys : List Key} :
    Key.same (freezeScalar s) (.set keys) ≠ true := by
  intro h
  rcases freezeScalar_cases s with rfl | ⟨bs, rfl⟩ | ⟨hs, -⟩
  · cases h
  · cases h
  · rw [hs] at h
    cases h

/-! ## Parts that are confused -/

/-- A pair: a sequence of two. -/
def IsPair (v : Value) : Prop := ∃ a b, v.sequence? = some [a, b]

/-- Parts of two kinds that can have one key: a dictionary and a set of pairs, or a byte array and
the sequence of its marks. -/
inductive Confused : Value → Value → Prop where
  | dictSet {entries : Entries Value} {items : List Value} (h : ∀ a ∈ items, a.IsPair) :
      Confused (.dict entries) (.set items)
  | setDict {entries : Entries Value} {items : List Value} (h : ∀ a ∈ items, a.IsPair) :
      Confused (.set items) (.dict entries)
  | arrayMarks {bs : List UInt8} {v : Value} (h : v.sequence? = some (markOf bs)) :
      Confused (.scalar (.byteArray bs)) v
  | marksArray {bs : List UInt8} {v : Value} (h : v.sequence? = some (markOf bs)) :
      Confused v (.scalar (.byteArray bs))

/-- Only a pair has the key of a pair. -/
theorem isPair_of_same {k l : Key} (h : Key.same (.tuple [k, l]) v.freeze = true) : v.IsPair := by
  rcases v.shape with ⟨s, rfl⟩ | ⟨items, hitems⟩ | ⟨items, rfl⟩ | ⟨entries, rfl⟩
  · rcases freezeScalar_cases s with rfl | ⟨bs, rfl⟩ | ⟨hs, -⟩
    · cases h
    · simp [freeze_byteArray, markOf, Key.same, Key.sameItems] at h
    · rw [freeze, hs] at h
      cases h
  · rw [freeze_of_sequence hitems, Key.same] at h
    have hlength := (Key.sameItems_iff.1 h).1
    rw [List.length_map] at hlength
    obtain ⟨a, b, rfl⟩ := List.length_eq_two.1 hlength.symm
    exact ⟨a, b, hitems⟩
  · cases h
  · cases h

/-- A set with the key of a dictionary consists of pairs. -/
theorem forall_isPair_of_same {entries : Entries Value}
    (h : Key.same (freeze (.dict entries)) (freeze (.set items)) = true) :
    ∀ a ∈ items, a.IsPair := by
  intro a ha
  rw [freeze_dict, freeze_set] at h
  obtain ⟨_, hk, hsame⟩ := (Key.same_set.1 h).2 a.freeze (List.mem_map_of_mem ha)
  obtain ⟨e, -, rfl⟩ := List.mem_map.1 hk
  exact isPair_of_same hsame

/-- Dictionaries of which every entry has one of equal key in the other. -/
theorem sameStructure_dict {entries others : Entries Value}
    (hkeys : Key.same (freeze (.dict entries)) (freeze (.dict others)) = true)
    (hkey : ∀ e ∈ entries, ∀ f ∈ others, Key.same e.1.toKey f.1.toKey = true →
      e.1.SameStructure f.1)
    (hvalue : ∀ e ∈ entries, ∀ f ∈ others, Key.same e.2.freeze f.2.freeze = true →
      e.2.SameStructure f.2) :
    SameStructure (.dict entries) (.dict others) := by
  rw [freeze_dict, freeze_dict] at hkeys
  obtain ⟨hentries, hothers⟩ := Key.same_set.1 hkeys
  have hpair : ∀ e f : Value × Value,
      Key.same (.tuple [e.1.toKey, e.2.freeze]) (.tuple [f.1.toKey, f.2.freeze]) = true →
        Key.same e.1.toKey f.1.toKey = true ∧ Key.same e.2.freeze f.2.freeze = true := by
    intro e f h
    simpa [Key.same, Key.sameItems] using h
  refine .dict (fun e f => e ∈ entries ∧ f ∈ others ∧
    Key.same e.1.toKey f.1.toKey = true ∧ Key.same e.2.freeze f.2.freeze = true) ?_ ?_ ?_ ?_
  · intro e he
    obtain ⟨_, hk, hsame⟩ := hentries _ (List.mem_map_of_mem he)
    obtain ⟨f, hf, rfl⟩ := List.mem_map.1 hk
    exact ⟨f, hf, he, hf, hpair e f hsame⟩
  · intro f hf
    obtain ⟨_, hk, hsame⟩ := hothers _ (List.mem_map_of_mem hf)
    obtain ⟨e, he, rfl⟩ := List.mem_map.1 hk
    exact ⟨e, he, he, hf, hpair e f hsame⟩
  · rintro e f ⟨he, hf, hsame, -⟩
    exact hkey e he f hf hsame
  · rintro e f ⟨he, hf, -, hsame⟩
    exact hvalue e he f hf hsame

/-! ## Keys and kinds -/

/-- No parts of two values with one key are confused. -/
def Clear (v w : Value) : Prop :=
  ∀ a b, Within a v → Within b w → Key.same a.freeze b.freeze = true → ¬Confused a b

theorem Clear.child {a b : Value} (h : v.Clear w) (ha : a ∈ v.children) (hb : b ∈ w.children) :
    a.Clear b :=
  fun c d hc hd => h c d (.child ha hc) (.child hb hd)

/-- A scalar and a sequence of one key are a byte array and its marks. -/
theorem confused_of_same {s : Scalar} (hitems : v.sequence? = some items)
    (h : Key.same (freezeScalar s) v.freeze = true) : Confused (.scalar s) v := by
  rw [freeze_of_sequence hitems] at h
  rcases freezeScalar_cases s with rfl | ⟨bs, rfl⟩ | ⟨hs, -⟩
  · cases h
  · rw [eq_markOf_of_same h] at hitems
    exact .arrayMarks hitems
  · rw [hs] at h
    cases h

/-- Values without parts that are confused are of one kind and of the same structure if their keys
are equal. -/
theorem Clear.sameStructure (hclear : v.Clear w) (hv : v.Lawful) (hw : w.Lawful)
    (h : Key.same v.freeze w.freeze = true) : v.SameStructure w := by
  -- two shapes never share a key, but where the pair is one of the confusions
  induction v using induct generalizing w with
  | scalar s =>
    rcases w.shape with ⟨t, rfl⟩ | ⟨others, hothers⟩ | ⟨others, rfl⟩ | ⟨others, rfl⟩
    · exact sameStructure_scalar h
    · exact absurd (confused_of_same hothers h) (hclear _ _ (.self _) (.self _) h)
    · exact absurd h not_same_freezeScalar_set
    · exact absurd h not_same_freezeScalar_set
  | sequence v items hitems ih =>
    rcases w.shape with ⟨t, rfl⟩ | ⟨others, hothers⟩ | ⟨others, rfl⟩ | ⟨others, rfl⟩
    · have hconfused : Confused v (.scalar t) := by
        cases confused_of_same hitems (Key.same_symm h) with
        | arrayMarks hmarks => exact .marksArray hmarks
        | marksArray hmarks => cases hmarks
      exact absurd hconfused (hclear _ _ (.self _) (.self _) h)
    · rw [freeze_of_sequence hitems, freeze_of_sequence hothers] at h
      refine sameStructure_sequence hitems hothers h ?_
      intro a ha b hb
      have ha' : a ∈ v.children := by rwa [children_of_sequence hitems]
      have hb' : b ∈ w.children := by rwa [children_of_sequence hothers]
      exact ih a ha (hclear.child ha' hb') (hv.child ha') (hw.child hb')
    · rw [freeze_of_sequence hitems] at h
      cases h
    · rw [freeze_of_sequence hitems] at h
      cases h
  | set items ih =>
    rcases w.shape with ⟨t, rfl⟩ | ⟨others, hothers⟩ | ⟨others, rfl⟩ | ⟨others, rfl⟩
    · exact absurd (Key.same_symm h) not_same_freezeScalar_set
    · rw [freeze_of_sequence hothers] at h
      cases h
    · rw [freeze_set, freeze_set] at h
      refine sameStructure_set h ?_
      intro a ha b hb
      exact ih a ha (hclear.child ha hb) (hv.child ha) (hw.child hb)
    · have hpairs := forall_isPair_of_same (Key.same_symm h)
      exact absurd (.setDict hpairs) (hclear _ _ (.self _) (.self _) h)
  | dict entries ih =>
    rcases w.shape with ⟨t, rfl⟩ | ⟨others, hothers⟩ | ⟨others, rfl⟩ | ⟨others, rfl⟩
    · exact absurd (Key.same_symm h) not_same_freezeScalar_set
    · rw [freeze_of_sequence hothers] at h
      cases h
    · exact absurd (.dictSet (forall_isPair_of_same h)) (hclear _ _ (.self _) (.self _) h)
    · -- the keys of the entries are fixed values, and their values are parts
      refine sameStructure_dict h ?_ ?_
      · intro e he f hf
        exact sameStructure_of_toKey (hv entries (.self _) e he) (hw others (.self _) f hf)
      · intro e he f hf
        have he' : e.2 ∈ children (.dict entries) := List.mem_map_of_mem he
        have hf' : f.2 ∈ children (.dict others) := List.mem_map_of_mem hf
        exact (ih e he).2 (hclear.child he' hf') (hv.child he') (hw.child hf')

/-- **Keys tell kinds and structure apart, but for two confusions.**  Values with equal keys are of
one kind and of the same structure, or else they have parts with equal keys of which one is a
dictionary and the other a set of pairs, or one a byte array and the other the sequence of its
marks. -/
theorem sameStructure_or_confused (hv : v.Lawful) (hw : w.Lawful)
    (h : Key.same v.freeze w.freeze = true) :
    v.SameStructure w ∨ ∃ a b, Within a v ∧ Within b w ∧
      Key.same a.freeze b.freeze = true ∧ Confused a b := by
  rw [or_iff_not_imp_right]
  intro hnone
  apply Clear.sameStructure _ hv hw h
  intro a b ha hb hkeys hconfused
  exact hnone ⟨a, b, ha, hb, hkeys, hconfused⟩

/-- A dictionary of one entry whose key is a text and whose value has no parts is lawful. -/
theorem lawful_entry (name : String) (s : Scalar) : Lawful (.dict [(.text name, .scalar s)]) := by
  have hscalar : ∀ {a : Value} {t : Scalar}, Within a (.scalar t) → a = .scalar t := by
    intro a t h
    cases h with
    | self => rfl
    | child hb => cases hb
  intro entries h e he
  cases h with
  | self =>
    rw [List.mem_singleton] at he
    subst he
    constructor
    · intro entries h
      cases hscalar h
    · intro bs h
      cases hscalar h
  | child hb h =>
    rw [List.mem_singleton.1 hb] at h
    cases hscalar h

/-- Two readings of one amount. -/
theorem sameStructure_or_confused_readings :
    Lawful (.dict [(.text "v", .int 1)]) ∧ Lawful (.dict [(.text "v", .double (.ofNat 1))]) ∧
      Key.same (freeze (.dict [(.text "v", .int 1)]))
        (freeze (.dict [(.text "v", .double (.ofNat 1))])) = true ∧
      (SameStructure (.dict [(.text "v", .int 1)]) (.dict [(.text "v", .double (.ofNat 1))]) ∨
        ∃ a b, Within a (.dict [(.text "v", .int 1)]) ∧
          Within b (.dict [(.text "v", .double (.ofNat 1))]) ∧
          Key.same a.freeze b.freeze = true ∧ Confused a b) := by
  have hone := lawful_entry "v" (.int 1)
  have hother := lawful_entry "v" (.double (.ofNat 1))
  have hkeys : Key.same (freeze (.dict [(.text "v", .int 1)]))
      (freeze (.dict [(.text "v", .double (.ofNat 1))])) = true := by decide +kernel
  exact ⟨hone, hother, hkeys, sameStructure_or_confused hone hother hkeys⟩

/-- The empty dictionary has the key of the empty set, a dictionary that of the set of its entries,
and a byte array that of the list of its marks. -/
theorem freeze_confuses :
    (Key.same (freeze (.dict [])) (freeze (.set [])) = true ∧
        ¬SameStructure (.dict []) (.set [])) ∧
      (Key.same (freeze (.dict [(.text "v", .int 1)]))
          (freeze (.set [.tuple [.text "v", .int 1]])) = true ∧
        ¬SameStructure (.dict [(.text "v", .int 1)]) (.set [.tuple [.text "v", .int 1]])) ∧
      Key.same (freeze (.scalar (.byteArray []))) (freeze (.list (markOf []))) = true ∧
        ¬SameStructure (.scalar (.byteArray [])) (.list (markOf [])) := by
  refine ⟨⟨by decide +kernel, ?_⟩, ⟨by decide +kernel, ?_⟩, by decide +kernel, ?_⟩
  · intro h
    cases h with
    | sequence hv => cases hv
  · intro h
    cases h with
    | sequence hv => cases hv
  · intro h
    cases h with
    | sequence hv => cases hv

end Value

end LiveChart
