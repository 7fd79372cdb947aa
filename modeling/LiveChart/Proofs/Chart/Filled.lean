import LiveChart.Chart.Spec
import LiveChart.Proofs.Chart.Wire
/-!
# Absent values in wire forms

The wire form of a specification leaves out what is not set.  Whether that is all that is absent in
it is said here part by part: of labels, marks, axes, the legend, the policy and the binding.  The
dictionaries that a compilation itself puts among the values of a part are looked at too, but not
those that it is given.

* `Wire.isFilled` : whether no record in a wire form has an absent field;
* `Wire.isFilled_present` : a record of optional parts is filled if those that are there are;
* `Spec.isFilled` : whether a specification and the dictionaries that a compilation puts into it hold
  no absent value;
* `Spec.isFilled_iff` : a specification is filled if no part of it is absent.
-/

namespace LiveChart

/-! ## Wire forms -/

namespace Wire

/-- Whether a wire form is the absent value. -/
def isAbsent : Wire → Bool
  | .value v => v.isNull
  | _ => false

mutual

/-- Whether no record in a wire form, at whatever depth, has a field whose value is absent. -/
def isFilled : Wire → Bool
  | .value _ => true
  | .computed _ => true
  | .list items => areFilled items
  | .record fields => haveFilled fields
termination_by structural w => w

/-- Whether no record in any of some wire forms has an absent field. -/
def areFilled : List Wire → Bool
  | [] => true
  | w :: rest => w.isFilled && areFilled rest
termination_by structural ws => ws

/-- Whether no field is absent, nor any field of the records in them. -/
def haveFilled : List (Value × Wire) → Bool
  | [] => true
  | (_, w) :: rest => !w.isAbsent && w.isFilled && haveFilled rest
termination_by structural fields => fields

end

/-- A list is filled if its items are. -/
theorem isFilled_list {items : List Wire} :
    (list items).isFilled = true ↔ ∀ w ∈ items, w.isFilled = true := by
  show areFilled items = true ↔ _
  induction items with
  | nil => simp [areFilled]
  | cons w rest ih => rw [areFilled, Bool.and_eq_true, ih, List.forall_mem_cons]

/-- A record is filled if no field is absent, and all are filled. -/
theorem isFilled_record {fields : List (Value × Wire)} :
    (record fields).isFilled = true ↔
      ∀ field ∈ fields, field.2.isAbsent = false ∧ field.2.isFilled = true := by
  show haveFilled fields = true ↔ _
  induction fields with
  | nil => simp [haveFilled]
  | cons field rest ih =>
    obtain ⟨key, w⟩ := field
    rw [haveFilled, Bool.and_eq_true, ih, List.forall_mem_cons]
    simp

/-- A part of a record that is there is not absent, and is filled. -/
def FilledPart (part : Option Wire) : Prop :=
  ∀ w, part = some w → w.isAbsent = false ∧ w.isFilled = true

/-- A record of optional parts is filled if those that are there are. -/
theorem isFilled_present {parts : List (String × Option Wire)} :
    (named (present parts)).isFilled = true ↔ ∀ part ∈ parts, FilledPart part.2 := by
  rw [named, isFilled_record, List.forall_mem_map]
  constructor
  · rintro h ⟨name, part⟩ hpart w rfl
    exact h (name, w) (List.mem_filterMap.2 ⟨_, hpart, rfl⟩)
  · intro h field hfield
    obtain ⟨⟨name, part⟩, hpart, hsome⟩ := List.mem_filterMap.1 hfield
    obtain ⟨w, rfl, rfl⟩ := Option.map_eq_some_iff.1 hsome
    exact h _ hpart w rfl

/-- A part that is always there. -/
theorem filledPart_some {w : Wire} :
    FilledPart (some w) ↔ w.isAbsent = false ∧ w.isFilled = true := by
  simp [FilledPart]

/-- A value is there unless it is absent. -/
theorem filledPart_value {v : Value} : FilledPart (some (.value v)) ↔ v.isNull = false := by
  simp [filledPart_some, isAbsent, isFilled]

/-- A record of optional parts is no absent value. -/
theorem filledPart_present {parts : List (String × Option Wire)} :
    FilledPart (some (named (present parts))) ↔ ∀ part ∈ parts, FilledPart part.2 := by
  rw [filledPart_some, isFilled_present]
  exact and_iff_right rfl

/-- A list is no absent value. -/
theorem filledPart_list {items : List Wire} :
    FilledPart (some (.list items)) ↔ ∀ w ∈ items, w.isFilled = true := by
  simp [filledPart_some, isAbsent, isFilled_list]

/-- A record is no absent value, and is filled if its fields are. -/
theorem filledPart_record {fields : List (Value × Wire)} :
    FilledPart (some (.record fields)) ↔ ∀ field ∈ fields, FilledPart (some field.2) := by
  simp only [filledPart_some, isAbsent, isFilled_record, true_and]

/-- A part that is made of something, if it is there. -/
theorem filledPart_map {α : Type} {F : α → Wire} {part : Option α} :
    FilledPart (part.map F) ↔ ∀ a, part = some a → FilledPart (some (F a)) := by
  cases part <;> simp [FilledPart]

/-- A part that is left out under a condition. -/
theorem filledPart_omittedIf {omitted : Bool} {w : Wire} :
    FilledPart (omittedIf omitted w) ↔ (omitted = false → FilledPart (some w)) := by
  cases omitted <;> simp [FilledPart, omittedIf]

/-- A value that is left out when it is absent is no absent part. -/
theorem filledPart_omittedIf_isNull (v : Value) :
    FilledPart (omittedIf v.isNull (.value v)) :=
  filledPart_omittedIf.2 filledPart_value.2

/-- Items that are left out when there are none. -/
theorem filledPart_omittedIf_isEmpty {α : Type} {items : List α} {w : Wire}
    (hempty : items = [] → FilledPart (some w)) :
    FilledPart (omittedIf items.isEmpty w) ↔ FilledPart (some w) := by
  cases items with
  | nil => exact iff_of_true (filledPart_omittedIf.2 fun h => nomatch h) (hempty rfl)
  | cons a rest => rfl

end Wire

/-! ## Dictionaries -/

/-- Whether no entry holds the absent value. -/
def Entries.isFilled (entries : Entries Value) : Bool := entries.all fun (_, v) => !v.isNull

/-- No entry of filled entries is absent. -/
theorem Entries.isFilled_iff {entries : Entries Value} :
    Entries.isFilled entries = true ↔ ∀ entry ∈ entries, entry.2.isNull = false := by
  simp [Entries.isFilled]

/-- There is nothing absent among no entries. -/
@[simp] theorem Entries.isFilled_nil : Entries.isFilled [] = true := rfl

/-- An entry and others are filled if its value is not absent and the others are filled. -/
@[simp] theorem Entries.isFilled_cons {k v : Value} {rest : Entries Value} :
    Entries.isFilled ((k, v) :: rest) = true ↔ v.isNull = false ∧ Entries.isFilled rest = true := by
  rw [isFilled_iff, List.forall_mem_cons, ← isFilled_iff]

/-- Entries one after another are filled if all of them are. -/
@[simp] theorem Entries.isFilled_append {entries more : Entries Value} :
    Entries.isFilled (entries ++ more) = true ↔
      Entries.isFilled entries = true ∧ Entries.isFilled more = true := by
  simp only [isFilled_iff, List.forall_mem_append]

/-- Filled entries may be there or not. -/
theorem Entries.isFilled_ite {p : Prop} [Decidable p] {entries : Entries Value}
    (h : p → Entries.isFilled entries = true) :
    Entries.isFilled (if p then entries else []) = true := by
  split
  · exact h ‹_›
  · rfl

/-- Values by key are filled as a record if none of them is absent. -/
theorem Wire.filledPart_ofEntries {entries : Entries Value} :
    FilledPart (some (.ofEntries entries)) ↔ Entries.isFilled entries = true := by
  simp only [ofEntries, filledPart_record, List.forall_mem_map, filledPart_value,
    Entries.isFilled_iff]

/-- A record of values by key is filled if none of the values is absent. -/
theorem Wire.isFilled_ofEntries {entries : Entries Value} :
    (Wire.ofEntries entries).isFilled = true ↔ Entries.isFilled entries = true := by
  rw [← filledPart_ofEntries, filledPart_some]
  exact (and_iff_right rfl).symm

/-- The entries of the dictionaries that a value is, or lists. -/
def Value.dictionaries : Value → List (Entries Value)
  | .dict entries => [entries]
  | .list items => items.filterMap Value.entries?
  | _ => []

/-- The dictionaries under a name. -/
def Entries.dictionariesAt (name : String) (entries : Entries Value) : List (Entries Value) :=
  ((Entries.field? name entries).map Value.dictionaries).getD []

/-- The dictionaries that a compilation puts into the style of a mark: the colors of a change, and
the columns of a table with their own colors. -/
def Mark.dictionaries (m : Mark) : List (Entries Value) :=
  let columns := Entries.dictionariesAt "columns" m.style
  Entries.dictionariesAt "delta" m.style ++ columns ++
    columns.flatMap (Entries.dictionariesAt "color")

/-- The dictionaries that a compilation puts into the parts of a specification. -/
def Spec.dictionaries (s : Spec) : List (Entries Value) :=
  s.marks.flatMap Mark.dictionaries ++
    (s.coordinate.map (Entries.dictionariesAt "transforms")).getD []

/-- There are no dictionaries under a name that is not there. -/
theorem Entries.dictionariesAt_eq_nil {name : String} {entries : Entries Value}
    (h : Entries.field? name entries = none) : Entries.dictionariesAt name entries = [] := by
  rw [dictionariesAt, h]
  rfl

/-- A mark has no dictionaries if its style has neither of the names under which they stand. -/
theorem Mark.dictionaries_eq_nil {m : Mark} (hdelta : Entries.field? "delta" m.style = none)
    (hcolumns : Entries.field? "columns" m.style = none) : m.dictionaries = [] := by
  rw [dictionaries, Entries.dictionariesAt_eq_nil hdelta, Entries.dictionariesAt_eq_nil hcolumns]
  rfl

/-- Whether no dictionary that a compilation or the wire form makes holds an absent value. -/
def Spec.isFilled (s : Spec) : Bool :=
  s.toWire.isFilled && s.dictionaries.all Entries.isFilled

/-! ## Parts of specifications -/

open Wire

/-- What a channel shows is not the absent value. -/
def Encoding.IsSet (e : Encoding) : Prop := e.toWire.isAbsent = false

/-- What a channel shows is one value, or a function. -/
theorem Encoding.isFilled_toWire (e : Encoding) : e.toWire.isFilled = true := by
  cases e <;> rfl

/-- What a channel shows is a part of a record. -/
theorem Encoding.filledPart_toWire {e : Encoding} : FilledPart (some e.toWire) ↔ e.IsSet := by
  rw [filledPart_some, isFilled_toWire, IsSet, and_iff_left rfl]

/-- No part of a label is absent. -/
structure LabelSpec.IsSet (l : LabelSpec) : Prop where
  text : l.text.isNull = false
  hideOverlap : l.hideOverlap.isNull = false
  format : ∀ e, l.format = some e → e.IsSet

/-- A label without absent parts is filled. -/
theorem LabelSpec.isFilled_toWire {l : LabelSpec} : l.toWire.isFilled = true ↔ l.IsSet := by
  rw [toWire_eq_present, isFilled_present, parts]
  simp only [List.forall_mem_cons, filledPart_value, filledPart_omittedIf_isNull, filledPart_map,
    Encoding.filledPart_toWire]
  constructor
  · rintro ⟨text, hideOverlap, -, format, -⟩
    exact ⟨text, hideOverlap, format⟩
  · intro h
    exact ⟨h.text, h.hideOverlap, trivial, h.format, by simp⟩

/-- No part of a mark is absent, at whatever depth.  By default there are no labels, and the style
holds no dictionary. -/
structure Mark.IsSet (m : Mark) : Prop where
  type : m.type.isNull = false
  encode : ∀ channel ∈ m.encode, channel.2.IsSet
  labels : ∀ l ∈ m.labels, l.IsSet := by simp
  style : Entries.isFilled m.style = true := by rfl
  dictionaries : ∀ d ∈ m.dictionaries, Entries.isFilled d = true := by
    simp [Mark.dictionaries, Entries.dictionariesAt, Entries.field?]

/-- A mark without absent parts is filled, and so are the dictionaries of its style. -/
theorem Mark.isSet_iff {m : Mark} : m.IsSet ↔
    m.toWire.isFilled = true ∧ ∀ d ∈ m.dictionaries, Entries.isFilled d = true := by
  rw [toWire_eq_present, isFilled_present, parts]
  have hstyle : m.style = [] → FilledPart (some (ofEntries m.style)) := by
    intro hnone
    rw [hnone]
    exact filledPart_ofEntries.2 rfl
  have hlabels : m.labels = [] →
      FilledPart (some (.list (m.labels.map LabelSpec.toWire))) := by
    intro hnone
    rw [hnone]
    exact filledPart_list.2 (by simp)
  simp only [List.forall_mem_cons, filledPart_value, filledPart_record,
    filledPart_omittedIf_isEmpty hstyle, filledPart_omittedIf_isEmpty hlabels,
    filledPart_ofEntries, filledPart_list, filledPart_omittedIf_isNull, List.forall_mem_map,
    LabelSpec.isFilled_toWire, Encoding.filledPart_toWire]
  constructor
  · intro h
    exact ⟨⟨h.type, h.encode, h.style, h.labels, trivial, by simp⟩, h.dictionaries⟩
  · rintro ⟨⟨type, encode, style, labels, -, -⟩, dictionaries⟩
    exact ⟨type, encode, labels, style, dictionaries⟩

/-- Where the rest of a mark is set, it is set if its style is. -/
theorem Mark.isSet_iff_style {m : Mark} (type : m.type.isNull = false)
    (encode : ∀ channel ∈ m.encode, channel.2.IsSet) (labels : ∀ l ∈ m.labels, l.IsSet) :
    m.IsSet ↔ Entries.isFilled m.style = true ∧ ∀ d ∈ m.dictionaries, Entries.isFilled d = true :=
  ⟨fun h => ⟨h.style, h.dictionaries⟩, fun ⟨style, dictionaries⟩ =>
    ⟨type, encode, labels, style, dictionaries⟩⟩

/-- A channel that shows a field shows what is there. -/
theorem Encoding.isSet_of_mem_singleton {name v : Value} (h : v.isNull = false) :
    ∀ channel ∈ [(name, Encoding.field v)], channel.2.IsSet := by
  intro channel hchannel
  obtain rfl := List.mem_singleton.1 hchannel
  exact h

/-- Neither the title nor the grid of an axis is absent. -/
structure AxisSpec.IsSet (a : AxisSpec) : Prop where
  title : a.title.isNull = false
  grid : a.grid.isNull = false

/-- An axis without absent parts is filled. -/
theorem AxisSpec.filledPart_toWire {a : AxisSpec} : FilledPart (some a.toWire) ↔ a.IsSet := by
  have hlabels : FilledPart (omittedIf a.labelLimit.isNull
      (named [("maxLength", .value a.labelLimit)])) := by
    rw [filledPart_omittedIf, named, filledPart_record]
    simp [filledPart_value]
  rw [toWire_eq_present, filledPart_present, parts]
  simp only [List.forall_mem_cons, filledPart_value, hlabels]
  constructor
  · rintro ⟨title, grid, -⟩
    exact ⟨title, grid⟩
  · intro h
    exact ⟨h.title, h.grid, trivial, by simp⟩

/-- Neither the place of a legend nor its manner is absent. -/
def Legend.IsSet (l : Legend) : Prop :=
  ∀ spec, l = .shown spec → spec.position.isNull = false ∧ spec.interactive.isNull = false

/-- A hidden legend has no parts. -/
@[simp] theorem Legend.isSet_hidden : Legend.hidden.IsSet := fun _ h => nomatch h

/-- A legend without absent parts is filled. -/
theorem Legend.filledPart {l : Legend} : FilledPart l.part ↔ l.IsSet := by
  cases l with
  | unset => simp [part, IsSet, FilledPart]
  | hidden => simp [part, IsSet, filledPart_value, Value.isNull]
  | shown spec =>
    simp [part, IsSet, LegendSpec.toWire, named, filledPart_record, filledPart_value]

/-- A binding is bound to a field, and its order field is not absent. -/
structure Binding.IsSet (b : Binding) : Prop where
  field : b.isBound = true
  orderField : ∀ v, b.orderField = some v → v.isNull = false

/-- The wire form of a field is absent just if there is no field. -/
theorem Binding.isNull_fieldMapping (field : Option FieldSpec) :
    (fieldMapping field).isNull = !field.isSome := by
  match field with
  | none | some (.name _) | some (.names ..) => rfl

/-- A binding without absent parts is filled. -/
theorem Binding.filledPart_toFields {b : Binding} :
    FilledPart (some (named (b.toFields.map fun (name, v) => (name, .value v)))) ↔ b.IsSet := by
  have hrange : b.range.toValue.isNull = false := by
    cases b.range <;> rfl
  rw [toFields_eq_present, filledPart_present, parts]
  simp only [List.forall_mem_cons, filledPart_value, filledPart_omittedIf, filledPart_map,
    isNull_fieldMapping, hrange]
  constructor
  · rintro ⟨-, field, -, orderField, -⟩
    exact ⟨by simpa [isBound] using field, orderField⟩
  · intro h
    have hbound : b.field.isSome = true := h.field
    exact ⟨rfl, by simp [hbound], fun _ => trivial, h.orderField, by simp⟩

/-- No part of a policy is absent. -/
theorem Policy.filledPart_toFields (p : Policy) :
    FilledPart (some (named (p.toFields.map fun (name, v) => (name, .value v)))) := by
  rw [toFields_eq_present, filledPart_present, parts]
  simp only [List.forall_mem_cons, filledPart_value]
  exact ⟨rfl, rfl, rfl, by simp⟩

namespace Spec

/-- No part of a specification but its marks and its binding is absent, at whatever depth.  By default
there are no such parts, besides the theme. -/
structure FrameIsSet (s : Spec) : Prop where
  scales : ∀ scale ∈ s.scales, Entries.isFilled scale.2 = true := by simp
  transforms : ∀ t ∈ s.transforms, Entries.isFilled t = true := by simp
  coordinate : ∀ entries, s.coordinate = some entries → Entries.isFilled entries = true ∧
    ∀ d ∈ Entries.dictionariesAt "transforms" entries, Entries.isFilled d = true := by simp
  axes : ∀ axis ∈ s.axes, axis.2.IsSet := by simp
  legend : s.legend.IsSet := by simp
  theme : s.theme.isNull = false := by rfl
  animate : s.animate.isNull = false := by rfl

/-- The dictionaries of a specification are in its marks and in its coordinate system. -/
theorem mem_dictionaries {s : Spec} {d : Entries Value} : d ∈ s.dictionaries ↔
    (∃ m ∈ s.marks, d ∈ m.dictionaries) ∨
      ∃ entries, s.coordinate = some entries ∧ d ∈ Entries.dictionariesAt "transforms" entries := by
  rw [dictionaries, List.mem_append, List.mem_flatMap]
  cases s.coordinate <;> simp

/-- A specification is filled if no part of it is absent. -/
theorem isFilled_iff {s : Spec} : s.isFilled = true ↔
    s.FrameIsSet ∧ (∀ m ∈ s.marks, m.IsSet) ∧ ∀ b, s.temporal = some b → b.IsSet := by
  have htransforms : s.transforms = [] →
      FilledPart (some (.list (s.transforms.map ofEntries))) := by
    intro hnone
    rw [hnone]
    exact filledPart_list.2 (by simp)
  have haxes : ∀ F : Value × AxisSpec → Value × Wire, s.axes = [] →
      FilledPart (some (.record (s.axes.map F))) := by
    intro F hnone
    rw [hnone]
    exact filledPart_record.2 (by simp)
  -- the wire form holds the parts that are present, and is filled if each of these is
  rw [isFilled, toWire_eq_present, Bool.and_eq_true, isFilled_present, parts]
  simp only [List.forall_mem_cons, filledPart_list, filledPart_record, filledPart_value,
    filledPart_map, filledPart_omittedIf_isNull, List.forall_mem_map, filledPart_ofEntries,
    isFilled_ofEntries, filledPart_omittedIf_isEmpty htransforms,
    filledPart_omittedIf_isEmpty (haxes _), AxisSpec.filledPart_toWire, Legend.filledPart,
    Policy.filledPart_toFields, Binding.filledPart_toFields, List.all_eq_true]
  constructor
  · rintro ⟨⟨marks, scales, transforms, coordinate, axes, legend, -, -, temporal, theme, animate,
      -⟩, dictionaries⟩
    refine ⟨⟨scales, transforms, fun entries hentries => ⟨coordinate entries hentries, ?_⟩, axes,
      legend, theme, animate⟩, fun m hm => Mark.isSet_iff.2 ⟨marks m hm, ?_⟩, temporal⟩
    · exact fun d hd => dictionaries d (mem_dictionaries.2 (.inr ⟨entries, hentries, hd⟩))
    · exact fun d hd => dictionaries d (mem_dictionaries.2 (.inl ⟨m, hm, hd⟩))
  · rintro ⟨frame, marks, temporal⟩
    refine ⟨⟨fun m hm => (Mark.isSet_iff.1 (marks m hm)).1, frame.scales, frame.transforms,
      fun entries hentries => (frame.coordinate entries hentries).1, frame.axes, frame.legend,
      trivial, trivial, temporal, frame.theme, frame.animate, by simp⟩, fun d hd => ?_⟩
    rcases mem_dictionaries.1 hd with ⟨m, hm, hd⟩ | ⟨entries, hentries, hd⟩
    · exact (marks m hm).dictionaries d hd
    · exact (frame.coordinate entries hentries).2 d hd

end Spec

end LiveChart
