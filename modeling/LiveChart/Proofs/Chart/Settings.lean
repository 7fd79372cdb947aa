import LiveChart.Temporal.Window
import LiveChart.Proofs.Value.PlainText
import LiveChart.Proofs.Chart.Compiled
import LiveChart.Proofs.Chart.Wire
/-!
# Settings are read back from their wire form

A binding and a policy are made of values in many spellings, of which one is kept.  What is kept is
read as it stands: a binding can be made anew of its own parts, and both settings are read back from
their wire form.  Of a binding only the window is lost, where its mode has none, and nothing that is
shown depends on it.

* `FieldSpec.ofValue_toValue`, `Range.ofValue_toValue` : the kept spelling of a part is read as it
  stands;
* `Binding.WellFormed` : what holds of the parts of a binding that has been made;
* `Binding.ofValues_parts` : a binding is made anew of its own parts;
* `Binding.ofMapping_toMapping` and `Policy.ofMapping_toMapping` : the wire forms are read back;
* `settings_restored` : both settings survive the wire.
-/

namespace LiveChart

/-! ## Fields -/

namespace FieldSpec

/-- The names that items give are not blank. -/
theorem ne_empty_of_itemNames {items : List Value} {names : List String}
    (h : itemNames items = .ok names) : ∀ s ∈ names, s ≠ "" := by
  induction items generalizing names with
  | nil =>
    obtain rfl := Except.ok.inj h
    exact fun s hs => nomatch hs
  | cons v rest ih =>
    obtain ⟨kept, hkept, h⟩ := Result.bind_eq_ok.1 h
    obtain ⟨others, hothers, h⟩ := Result.bind_eq_ok.1 h
    obtain rfl := Except.ok.inj h
    cases kept with
    | false => exact ih hothers
    | true =>
      have hv : v ≠ .text "" := by
        rintro rfl
        cases hkept
      exact List.forall_mem_cons.2 ⟨Value.plain_ne_empty hv, ih hothers⟩

/-- Names that are not blank are read as they stand. -/
theorem itemNames_map_text {names : List String} (h : ∀ s ∈ names, s ≠ "") :
    itemNames (names.map .text) = .ok names := by
  induction names with
  | nil => rfl
  | cons s rest ih =>
    obtain ⟨hs, hrest⟩ := List.forall_mem_cons.1 h
    have htruth : (Value.text s).truth = .ok true := by
      simpa [Value.truth, Value.scalarTruth] using hs
    rw [List.map_cons, itemNames, htruth, ih hrest]
    rfl

/-- No name of a field is blank. -/
theorem ne_empty_of_ofValue {v : Value} {field : FieldSpec} (h : ofValue v = .ok (some field)) :
    ∀ s ∈ field.toList, s ≠ "" := by
  have hnames : ∀ items, (do return ofNames? (← itemNames items) : Result _) = .ok (some field) →
      ∀ s ∈ field.toList, s ≠ "" := by
    intro items hitems
    obtain ⟨names, hnames, hfield⟩ := Result.bind_eq_ok.1 hitems
    cases names with
    | nil => cases hfield
    | cons first rest =>
      obtain rfl := Option.some.inj (Except.ok.inj hfield)
      exact ne_empty_of_itemNames hnames
  unfold ofValue at h
  split at h
  · cases h
  · split at h
    · cases h
    · rename_i s hs
      obtain rfl := Option.some.inj (Except.ok.inj h)
      simpa [toList] using hs
  · exact hnames _ h
  · exact hnames _ h
  · exact hnames _ h
  · exact hnames _ h
  · cases h

variable {field : FieldSpec}

/-- A field without blank names is read back from its value. -/
theorem ofValue_toValue (h : ∀ s ∈ field.toList, s ≠ "") :
    ofValue field.toValue = .ok (some field) := by
  cases field with
  | name s =>
    have hs : s ≠ "" := h s List.mem_cons_self
    simp [toValue, ofValue, hs]
  | names first rest =>
    have hnames : itemNames ((first :: rest).map .text) = .ok (first :: rest) :=
      itemNames_map_text h
    rw [toValue, ofValue, hnames]
    rfl

/-- A field without blank names is read back from its wire form. -/
theorem ofValue_fieldMapping (h : ∀ s ∈ field.toList, s ≠ "") :
    ofValue (Binding.fieldMapping (some field)) = .ok (some field) := by
  cases field with
  | name s => exact ofValue_toValue h
  | names first rest =>
    have hnames : itemNames ((first :: rest).map .text) = .ok (first :: rest) :=
      itemNames_map_text h
    rw [Binding.fieldMapping, ofValue, hnames]
    rfl

end FieldSpec

/-! ## Ranges -/

namespace Range

/-- A window without end is read back from its word. -/
theorem ofValue_toValue_infinite : ofValue (toValue .infinite) = .ok .infinite := by
  have hword : infiniteWords.contains (Text.lowercase (Text.trim infiniteWord)) = true := by
    decide +kernel
  rw [toValue, ofValue, if_pos hword]

/-- Minutes that are taken are read back, and those that are infinite as a window without end. -/
theorem ofValue_toValue_of_ofMinutes {given : Value} {length : Double} {range : Range}
    (h : ofMinutes given length = .ok range) : ofValue range.toValue = .ok range := by
  unfold ofMinutes at h
  split at h
  · obtain rfl := Except.ok.inj h
    exact ofValue_toValue_infinite
  · rename_i hfinite
    split at h
    · rename_i hnonneg
      obtain rfl := Except.ok.inj h
      show ofMinutes (.double length) length = _
      unfold ofMinutes
      split
      · exact absurd rfl hfinite
      · exact dif_pos hnonneg
    · cases h

/-- The range that a value gives is read back from its own value. -/
theorem ofValue_toValue {given : Value} {range : Range} (h : ofValue given = .ok range) :
    ofValue range.toValue = .ok range := by
  have hnumber : ∀ v : Value, (do ofMinutes v (← v.toDouble) : Result Range) = .ok range →
      ofValue range.toValue = .ok range := by
    intro v hv
    obtain ⟨length, -, hlength⟩ := Result.bind_eq_ok.1 hv
    exact ofValue_toValue_of_ofMinutes hlength
  unfold ofValue at h
  split at h
  · obtain rfl := Except.ok.inj h
    exact ofValue_toValue_infinite
  · split at h
    · split at h
      · obtain rfl := Except.ok.inj h
        exact ofValue_toValue_infinite
      · cases h
    · exact ofValue_toValue_of_ofMinutes h
    · exact hnumber _ h
    · exact hnumber _ h
    · exact hnumber _ h
    · exact hnumber _ h
    · cases h
  · cases h

end Range

/-! ## Bindings -/

/-- A value other than the absent one is not absent. -/
theorem Value.isNull_of_ne_null {v : Value} (h : v ≠ .null) : v.isNull = false :=
  Bool.eq_false_iff.2 fun hnull => h (Value.eq_null_of_isNull hnull)

namespace Binding

/-- A binding that values of some spelling make. -/
def Constructible (b : Binding) : Prop :=
  ∃ mode field range orderField, ofValues mode field range orderField = .ok b

/-- The bound field as a value. -/
def fieldValue (b : Binding) : Value := (b.field.map FieldSpec.toValue).getD .null

/-- What holds of the parts of a binding that has been made. -/
structure WellFormed (b : Binding) : Prop where
  /-- No bound name is blank. -/
  named : ∀ field, b.field = some field → ∀ s ∈ field.toList, s ≠ ""
  range : Range.ofValue b.range.toValue = .ok b.range
  /-- An order field is there only in key mode, and then is no absent value. -/
  ordered : ∀ v, b.orderField = some v → b.mode = .key ∧ v.isNull = false

/-- The word for a mode names it. -/
theorem modeOf_word (mode : TemporalMode) : modeOf (.text mode.word) = .ok mode := by
  cases mode <;> rfl

/-- What is there is no absent value. -/
theorem isNull_of_toOption {v w : Value} (h : v.toOption = some w) : w.isNull = false := by
  unfold Value.toOption at h
  split at h
  · cases h
  · rename_i hne
    obtain rfl := Option.some.inj h
    exact Value.isNull_of_ne_null hne

/-- A value that is not absent is there. -/
theorem toOption_of_isNull {v : Value} (h : v.isNull = false) : v.toOption = some v := by
  unfold Value.toOption
  split
  · cases h
  · rfl

/-- A binding is made of a mode, a field and a range, each of which can be read, and of an order
field in key mode only. -/
theorem ofValues_eq_ok {mode field range orderField : Value} {b : Binding} :
    ofValues mode field range orderField = .ok b ↔
      modeOf mode = .ok b.mode ∧ FieldSpec.ofValue field = .ok b.field ∧
        Range.ofValue range = .ok b.range ∧ b.orderField = orderField.toOption ∧
          (orderField.isNull = false → b.mode = .key) := by
  constructor
  · intro h
    obtain ⟨m, hm, h⟩ := Result.bind_eq_ok.1 h
    obtain ⟨f, hf, h⟩ := Result.bind_eq_ok.1 h
    obtain ⟨r, hr, h⟩ := Result.bind_eq_ok.1 h
    split at h
    · cases h
    · rename_i horder
      obtain rfl := Except.ok.inj h
      refine ⟨hm, hf, hr, rfl, fun hnull => ?_⟩
      simpa [hnull] using horder
  · rintro ⟨hm, hf, hr, ho, hkey⟩
    have hpermitted : ¬(!orderField.isNull && b.mode != .key) = true := by
      cases hnull : orderField.isNull with
      | true => simp
      | false => simp [hkey hnull]
    rw [ofValues, hm, hf, hr]
    obtain ⟨m, f, r, o⟩ := b
    obtain rfl : o = orderField.toOption := ho
    exact if_neg hpermitted

/-- A binding that has been made is well formed. -/
theorem Constructible.wellFormed {b : Binding} (h : b.Constructible) : b.WellFormed := by
  obtain ⟨mode, field, range, orderField, h⟩ := h
  obtain ⟨-, hfield, hrange, horder, hkey⟩ := ofValues_eq_ok.1 h
  constructor
  case named =>
    intro f hf
    rw [hf] at hfield
    exact FieldSpec.ne_empty_of_ofValue hfield
  case range => exact Range.ofValue_toValue hrange
  case ordered =>
    intro v hv
    rw [horder] at hv
    refine ⟨hkey (Value.isNull_of_ne_null ?_), isNull_of_toOption hv⟩
    rintro rfl
    cases hv

variable {b : Binding}

/-- An optional value that is not absent is read back from what stands for it. -/
theorem WellFormed.toOption_ofOption (h : b.WellFormed) :
    (Value.ofOption b.orderField).toOption = b.orderField := by
  cases ho : b.orderField with
  | none => rfl
  | some v => exact toOption_of_isNull (h.ordered v ho).2

/-- What stands for the order field is there in key mode only. -/
theorem WellFormed.key_of_ofOption (h : b.WellFormed)
    (hnull : (Value.ofOption b.orderField).isNull = false) : b.mode = .key := by
  cases ho : b.orderField with
  | none =>
    rw [ho] at hnull
    cases hnull
  | some v => exact (h.ordered v ho).1

/-- A field is read back from its value, and so is none. -/
theorem WellFormed.ofValue_fieldValue (h : b.WellFormed) :
    FieldSpec.ofValue b.fieldValue = .ok b.field := by
  unfold fieldValue
  cases hf : b.field with
  | none => rfl
  | some field => exact FieldSpec.ofValue_toValue (h.named field hf)

/-- The field of a well-formed binding is read back from its wire form. -/
theorem WellFormed.ofValue_fieldMapping (h : b.WellFormed) :
    FieldSpec.ofValue (fieldMapping b.field) = .ok b.field := by
  cases hf : b.field with
  | none => rfl
  | some field => exact FieldSpec.ofValue_fieldMapping (h.named field hf)

/-- **A binding is made anew of its own parts.** -/
theorem ofValues_parts (h : b.WellFormed) :
    ofValues (.text b.mode.word) b.fieldValue b.range.toValue (.ofOption b.orderField) = .ok b :=
  ofValues_eq_ok.2 ⟨modeOf_word b.mode, h.ofValue_fieldValue, h.range, h.toOption_ofOption.symm,
    h.key_of_ofOption⟩

/-- A blank field is filled by making the binding anew, with the default in place of the field. -/
theorem withDefaultField_eq_ofValues (h : b.WellFormed) {default : Value}
    (htakes : b.takesDefault default = true) :
    b.withDefaultField default =
      ofValues (.text b.mode.word) default b.range.toValue (.ofOption b.orderField) := by
  rw [withDefaultField, if_pos htakes]
  cases hfield : FieldSpec.ofValue default with
  | error e =>
    rw [ofValues, modeOf_word, hfield]
    rfl
  | ok field =>
    symm
    exact ofValues_eq_ok.2 ⟨modeOf_word b.mode, hfield, h.range, h.toOption_ofOption.symm,
      h.key_of_ofOption⟩

/-- A binding is read from its wire form part by part. -/
theorem ofMapping_toMapping_eq (b : Binding) :
    ofMapping b.toMapping = ofValues (.text b.mode.word) (fieldMapping b.field)
      (if b.mode = .axis then b.range.toValue else .null) (.ofOption b.orderField) := by
  obtain ⟨mode, field, range, orderField⟩ := b
  cases mode <;> cases orderField <;> rfl

/-- **A binding is read back from its wire form**, but for a window that its mode does not have. -/
theorem ofMapping_toMapping (h : b.WellFormed) :
    ofMapping b.toMapping = .ok b.withoutIdleRange := by
  rw [ofMapping_toMapping_eq]
  refine ofValues_eq_ok.2 ⟨modeOf_word b.mode, h.ofValue_fieldMapping, ?_,
    h.toOption_ofOption.symm, h.key_of_ofOption⟩
  rw [withoutIdleRange]
  split
  · exact h.range
  · rfl

/-! ## What is shown -/

variable {α : Type} (rowOf : α → Value) (items : List α)

/-- A window that the mode does not have shows in no view. -/
theorem viewOf_withoutIdleRange (b : Binding) :
    viewOf rowOf (some b.withoutIdleRange) items = viewOf rowOf (some b) items := by
  obtain ⟨mode, field, range, orderField⟩ := b
  cases mode <;> rfl

/-- A window that the mode does not have shows in no window of time. -/
theorem timeWindowOf_withoutIdleRange (b : Binding) :
    timeWindowOf rowOf (some b.withoutIdleRange) items = timeWindowOf rowOf (some b) items := by
  obtain ⟨mode, field, range, orderField⟩ := b
  cases mode <;> rfl

/-- What a binding that is read back has in common with the one that was written. -/
structure Restores (restored b : Binding) : Prop where
  mode : restored.mode = b.mode
  field : restored.field = b.field
  orderField : restored.orderField = b.orderField
  range : b.mode = .axis → restored.range = b.range
  view : ∀ {α : Type} (rowOf : α → Value) (items : List α),
    viewOf rowOf (some restored) items = viewOf rowOf (some b) items
  window : ∀ {α : Type} (rowOf : α → Value) (items : List α),
    timeWindowOf rowOf (some restored) items = timeWindowOf rowOf (some b) items

/-- A window that the mode does not have is all that may be lost. -/
theorem restores_withoutIdleRange (b : Binding) : b.withoutIdleRange.Restores b where
  mode := rfl
  field := rfl
  orderField := rfl
  range h := if_pos h
  view rowOf items := viewOf_withoutIdleRange rowOf items b
  window rowOf items := timeWindowOf_withoutIdleRange rowOf items b

/-- A default changes a blank field only. -/
theorem eq_of_withDefaultField_of_isBound {default : Value} {filled : Binding}
    (h : b.withDefaultField default = .ok filled) (hbound : b.isBound = true) : filled = b := by
  rw [withDefaultField, if_neg (by simp [takesDefault, hbound])] at h
  exact (Except.ok.inj h).symm

end Binding

/-! ## Policies -/

namespace Policy

/-- A policy that values of some spelling make. -/
def Constructible (p : Policy) : Prop :=
  ∃ maxItems mode throttle, ofValues maxItems mode throttle = .ok p

/-- The milliseconds that a value gives are not below zero. -/
theorem ensures_throttleOf (v : Value) :
    (throttleOf v).Ensures fun millis => millis.lt .zero = false := by
  unfold throttleOf
  dsimp only
  split
  all_goals
    refine .bind fun millis _ => .ite (fun _ => .bind fun _ hthrown => nomatch hthrown) ?_
    exact fun hlt => .pure (Bool.eq_false_iff.2 hlt)

/-- The throttle of a policy that has been made is not below zero. -/
theorem Constructible.throttle {p : Policy} (h : p.Constructible) :
    p.throttle.lt .zero = false := by
  obtain ⟨maxItems, mode, throttle, h⟩ := h
  obtain ⟨⟨capacity, hpos⟩, -, h⟩ := Result.bind_eq_ok.1 h
  obtain ⟨m, -, h⟩ := Result.bind_eq_ok.1 h
  obtain ⟨millis, hmillis, h⟩ := Result.bind_eq_ok.1 h
  obtain rfl := Except.ok.inj h
  exact ensures_throttleOf throttle millis hmillis

/-- The word for a mode names it. -/
theorem modeOf_word (mode : StreamingMode) : modeOf (.text mode.word) = .ok mode := by
  cases mode <;> rfl

/-- A capacity is read back from its number. -/
theorem capacityOf_natCast {capacity : Nat} (h : 0 < capacity) :
    capacityOf (.int capacity) = .ok ⟨capacity, h⟩ :=
  dif_pos (show 0 < (capacity : Int).toNat from h)

/-- A throttle that is not below zero is read as it stands. -/
theorem throttleOf_double {millis : Double} (h : millis.lt .zero = false) :
    throttleOf (.double millis) = .ok millis := by
  show (if millis.lt .zero then _ else _) = _
  rw [h]
  rfl

/-- **A policy is read back from its wire form.** -/
theorem ofMapping_toMapping {p : Policy} (h : p.throttle.lt .zero = false) :
    ofMapping p.toMapping = .ok p := by
  have hparts : ofMapping p.toMapping
      = ofValues (.int p.capacity) (.text p.mode.word) (.double p.throttle) := rfl
  rw [hparts, ofValues, capacityOf_natCast p.capacity_pos, modeOf_word, throttleOf_double h]
  rfl

/-- A policy equals itself, if its throttle is a number. -/
theorem same_self {p : Policy} (h : p.throttle.isNaN = false) : p.same p = true := by
  have hthrottle : p.throttle.same p.throttle = true := (Double.same_iff_order h h).2 rfl
  simp [same, hthrottle]

end Policy

/-! ## Both settings -/

/-- **Settings survive the wire.**  A binding that has been made is read back with what its mode
uses, so that it shows the same rows and the same window, it is made anew of its own parts, and a
default changes at most its blank field.  A policy is read back as it was. -/
theorem settings_restored {b : Binding} {p : Policy} (hb : b.Constructible)
    (hp : p.Constructible) :
    (∃ restored, Binding.ofMapping b.toMapping = .ok restored ∧ restored.Restores b) ∧
    Binding.ofValues (.text b.mode.word) b.fieldValue b.range.toValue (.ofOption b.orderField)
      = .ok b ∧
    (∀ default, b.takesDefault default = true → b.withDefaultField default =
      Binding.ofValues (.text b.mode.word) default b.range.toValue (.ofOption b.orderField)) ∧
    (∀ default filled, b.withDefaultField default = .ok filled →
      filled = { b with field := filled.field } ∧ (b.isBound = true → filled = b)) ∧
    Policy.ofMapping p.toMapping = .ok p ∧ (p.throttle.isNaN = false → p.same p = true) := by
  have hwell := hb.wellFormed
  refine ⟨?restored, Binding.ofValues_parts hwell, ?made, ?filled,
    Policy.ofMapping_toMapping hp.throttle, Policy.same_self⟩
  case restored =>
    exact ⟨_, Binding.ofMapping_toMapping hwell, Binding.restores_withoutIdleRange b⟩
  case made => exact fun default htakes => Binding.withDefaultField_eq_ofValues hwell htakes
  case filled =>
    intro default filled h
    exact ⟨Binding.eq_of_withDefaultField h, Binding.eq_of_withDefaultField_of_isBound h⟩

/-- A binding to the hosts by a composite field of one name, with a blank order field. -/
def hostBinding : Binding :=
  { mode := .key, field := some (.names "host" []), orderField := some (.text "") }

/-- A policy of batches that take each other's place, a while apart. -/
def batchPolicy : Policy := { capacity := 7, mode := .replace, throttle := .ofNat 1500 }

/-- The binding to the hosts and the policy of batches survive the wire, where blank names were
passed over. -/
theorem settings_restored_hosts :
    hostBinding.Constructible ∧ batchPolicy.Constructible ∧
      (∃ restored, Binding.ofMapping hostBinding.toMapping = .ok restored ∧
        restored.Restores hostBinding) ∧
      Policy.ofMapping batchPolicy.toMapping = .ok batchPolicy := by
  have hb : hostBinding.Constructible :=
    ⟨.text "key", .list [.text "", .text "host"], .text " Infinity", .text "", rfl⟩
  have hthrottle : (Double.ofNat 1500).lt .zero = false := by decide +kernel
  have hp : batchPolicy.Constructible := by
    refine ⟨.int 7, .text "replace", .double (.ofNat 1500), ?_⟩
    rw [Policy.ofValues, Policy.throttleOf_double hthrottle]
    rfl
  obtain ⟨hrestored, -, -, -, hpolicy, -⟩ := settings_restored hb hp
  exact ⟨hb, hp, hrestored, hpolicy⟩

end LiveChart
