import Mathlib.Data.List.Nodup
import Mathlib.Data.List.Perm.Subperm
import Mathlib.Tactic.SplitIfs
import LiveChart.Chart.Spec
import LiveChart.Proofs.Number.Monotone
/-!
# Wire forms tell specifications apart

The wire form of a specification leaves out what is not set, at every level, and writes a composite
field as a list.  Nothing is lost by that: a part that is left out differs from every part that is
not, and a list from a name.  So two specifications have equal wire forms just if they are equal,
but for the window of a binding whose mode has none.

* `Wire.same` : equality of wire forms;
* `Wire.same_present` : records of optional parts are equal part by part;
* `Mark.same_toWire`, `AxisSpec.same_toWire`, `Binding.same_toFields` : the wire forms of the parts;
* `Spec.toWire_same_toWire` : the wire form of a specification.
-/

namespace LiveChart

/-! ## Equality of wire forms -/

namespace Wire

mutual

/-- Whether a wire form equals a value: a list or a record does if its items do. -/
def isValue : Wire → Value → Bool
  | .value w, v => w.same v
  | .list ws, .list vs => areValues ws vs
  | .record fields, .dict entries => fields.length == entries.length && haveValues fields entries
  | _, _ => false
termination_by structural w => w

/-- Whether wire forms equal values, one by one. -/
def areValues : List Wire → List Value → Bool
  | [], [] => true
  | w :: ws, v :: vs => isValue w v && areValues ws vs
  | _, _ => false
termination_by structural ws => ws

/-- Whether every field has an equal among some entries. -/
def haveValues : List (Value × Wire) → Entries Value → Bool
  | [], _ => true
  | (k, w) :: fields, entries =>
    entries.any (fun (l, v) => k.same l && isValue w v) && haveValues fields entries
termination_by structural fields => fields

end

mutual

/-- Equality of wire forms; records are equal without regard to the order of their fields. -/
def same : Wire → Wire → Bool
  | .value v, .value w => v.same w
  | .computed f, .computed g => f.same g
  | .list xs, .list ys => sameItems xs ys
  | .record xs, .record ys => xs.length == ys.length && allFieldsAmong xs ys
  | .value v, w | w, .value v => w.isValue v
  | _, _ => false
termination_by structural w => w

/-- Equality of wire forms, one by one. -/
def sameItems : List Wire → List Wire → Bool
  | [], [] => true
  | x :: xs, y :: ys => same x y && sameItems xs ys
  | _, _ => false
termination_by structural ws => ws

/-- Whether every field has an equal among others. -/
def allFieldsAmong : List (Value × Wire) → List (Value × Wire) → Bool
  | [], _ => true
  | (k, w) :: xs, ys => ys.any (fun (l, u) => k.same l && same w u) && allFieldsAmong xs ys
termination_by structural fields => fields

end

end Wire

/-! ## Equality of values of one kind -/

namespace Double

/-- The amount of a finite double is its place. -/
theorem amount?_of_isFinite {x : Double} (hx : x.isFinite = true) :
    x.amount? = some (.finite x.order) := by
  cases x with
  | finite negative u h => cases negative <;> rfl
  | infinite => cases hx
  | nan => cases hx

/-- A number has an amount. -/
theorem exists_amount {x : Double} (hx : x.isNaN = false) : ∃ a, x.amount? = some a := by
  cases x with
  | finite negative u h => exact ⟨_, amount?_of_isFinite rfl⟩
  | infinite negative => exact ⟨_, rfl⟩
  | nan => cases hx

/-- Numbers have one amount just if they have one place. -/
theorem amount?_eq_iff {x y : Double} (hx : x.isNaN = false) (hy : y.isNaN = false) :
    x.amount? = y.amount? ↔ x.order = y.order := by
  have hceiling : 0 < 2 ^ binary64.ceiling := Nat.two_pow_pos _
  cases x with
  | nan => cases hx
  | finite nx u hu =>
    cases y with
    | nan => cases hy
    | finite ny v hv => rw [amount?_of_isFinite rfl, amount?_of_isFinite rfl]; simp
    | infinite ny =>
      have hlt := hu.1
      rw [order_finite, order_infinite]
      refine ⟨fun h => ?_, fun h => ?_⟩
      · cases nx <;> cases h
      · split_ifs at h <;> omega
  | infinite nx =>
    cases y with
    | nan => cases hy
    | finite ny v hv =>
      have hlt := hv.1
      rw [order_finite, order_infinite]
      refine ⟨fun h => ?_, fun h => ?_⟩
      · cases ny <;> cases h
      · split_ifs at h <;> omega
    | infinite ny =>
      rw [order_infinite, order_infinite]
      refine ⟨fun h => ?_, fun h => ?_⟩
      · obtain rfl := Amount.infinite.inj (Option.some.inj h)
        rfl
      · cases nx <;> cases ny <;> simp only [if_true, Bool.false_eq_true, if_false] at h <;>
          first | rfl | omega

end Double

namespace Value

/-- What equals the absent value is absent. -/
theorem isNull_eq_of_same {v w : Value} (h : v.same w = true) : v.isNull = w.isNull := by
  cases v <;> cases w <;> first
    | rfl
    | cases h
    | rename_i a b; cases a <;> cases b <;> first | rfl | cases h

/-- Texts are equal if they are the same. -/
@[simp] theorem same_text (s t : String) : (text s).same (text t) = (s == t) := rfl

/-- Whole numbers are equal if they are the same. -/
@[simp] theorem same_int (m n : Int) : (int m).same (int n) = (m == n) := by
  show (Amount.finite (m * one) == Amount.finite (n * one)) = _
  rw [Bool.eq_iff_iff, beq_iff_eq, beq_iff_eq, Amount.finite.injEq]
  have hone : ((one : Nat) : Int) ≠ 0 := Int.ofNat_ne_zero.2 (Nat.two_pow_pos _).ne'
  exact ⟨fun h => Int.eq_of_mul_eq_mul_right hone h, fun h => h ▸ rfl⟩

/-- Doubles are equal as doubles. -/
@[simp] theorem same_double (x y : Double) : (double x).same (double y) = x.same y := by
  show Scalar.sameAmount (.double x) (.double y) = _
  cases hx : x.isNaN with
  | true =>
    obtain rfl : x = .nan := by cases x <;> first | rfl | cases hx
    rfl
  | false =>
    cases hy : y.isNaN with
    | true =>
      obtain rfl : y = .nan := by cases y <;> first | rfl | cases hy
      cases x <;> first | rfl | (cases ‹Bool› <;> rfl)
    | false =>
      obtain ⟨a, ha⟩ := Double.exists_amount hx
      obtain ⟨b, hb⟩ := Double.exists_amount hy
      have hamounts : Scalar.sameAmount (.double x) (.double y) = (a == b) := by
        simp only [Scalar.sameAmount, Scalar.amount?, ha, hb]
      rw [hamounts, Bool.eq_iff_iff, Double.same_iff_order hx hy, ← Double.amount?_eq_iff hx hy,
        ha, hb]
      exact beq_iff_eq.trans (Option.some.injEq _ _).symm.to_iff

/-- Lists of texts are equal if they are the same. -/
theorem same_list_text (names names' : List String) :
    (list (names.map text)).same (list (names'.map text)) = (names == names') := by
  show sameItems _ _ = _
  induction names generalizing names' with
  | nil => cases names' <;> rfl
  | cons s rest ih =>
    cases names' with
    | nil => rfl
    | cons t rest' =>
      show ((text s).same (text t) && sameItems (rest.map text) (rest'.map text)) = _
      rw [same_text, ih]
      rfl

end Value

/-! ## Records -/

namespace Wire

variable {α : Type}

/-- Records are equal as entries are. -/
theorem same_record (xs ys : List (Value × Wire)) :
    (record xs).same (record ys) = sameEntries Wire.same xs ys := by
  have hall : allFieldsAmong xs ys
      = xs.all fun (k, w) => ys.any fun (l, u) => k.same l && w.same u := by
    induction xs with
    | nil => rfl
    | cons x xs ih => rw [allFieldsAmong, ih, List.all_cons]
  rw [same, hall]
  rfl

/-- A record of things by key compares as its entries do. -/
theorem same_record_map {F : α → Wire} {eq : α → α → Bool}
    (h : ∀ a b, (F a).same (F b) = eq a b) (xs ys : Entries α) :
    (record (xs.map fun (k, a) => (k, F a))).same (record (ys.map fun (k, a) => (k, F a)))
      = sameEntries eq xs ys := by
  rw [same_record]
  simp only [sameEntries, List.length_map, List.all_map, List.any_map, Function.comp_def, h]

/-- A list of things compares item by item. -/
theorem same_list_map {F : α → Wire} {eq : α → α → Bool}
    (h : ∀ a b, (F a).same (F b) = eq a b) (xs ys : List α) :
    (list (xs.map F)).same (list (ys.map F)) = sameList eq xs ys := by
  show sameItems _ _ = _
  induction xs generalizing ys with
  | nil => cases ys <;> rfl
  | cons x xs ih =>
    cases ys with
    | nil => rfl
    | cons y ys =>
      show ((F x).same (F y) && sameItems (xs.map F) (ys.map F)) = _
      rw [h, ih]
      rfl

/-- Named fields are equal if there are as many, and each has an equal of its name. -/
theorem same_named_iff {xs ys : List (String × Wire)} :
    (named xs).same (named ys) = true ↔ xs.length = ys.length ∧
      ∀ x ∈ xs, ∃ y ∈ ys, x.1 = y.1 ∧ x.2.same y.2 = true := by
  rw [named, named, same_record]
  simp only [sameEntries, List.length_map, List.all_map, List.any_map, Function.comp_def,
    Bool.and_eq_true, beq_iff_eq, List.all_eq_true, List.any_eq_true, Value.same_text]

/-- Fields of the same name, which no others have, are compared with each other. -/
theorem same_named_cons {name : String} {w w' : Wire} {xs ys : List (String × Wire)}
    (hxs : ∀ x ∈ xs, x.1 ≠ name) (hys : ∀ y ∈ ys, y.1 ≠ name) :
    (named ((name, w) :: xs)).same (named ((name, w') :: ys))
      = (w.same w' && (named xs).same (named ys)) := by
  have hfirst : (∃ y ∈ (name, w') :: ys, name = y.1 ∧ w.same y.2 = true) ↔ w.same w' = true := by
    rw [List.exists_mem_cons_iff]
    refine ⟨fun h => h.elim And.right fun hmore => ?_, fun h => .inl ⟨rfl, h⟩⟩
    obtain ⟨y, hy, hname, -⟩ := hmore
    exact absurd hname.symm (hys y hy)
  have hothers : ∀ x ∈ xs, (∃ y ∈ (name, w') :: ys, x.1 = y.1 ∧ x.2.same y.2 = true) ↔
      ∃ y ∈ ys, x.1 = y.1 ∧ x.2.same y.2 = true := by
    intro x hx
    rw [List.exists_mem_cons_iff]
    exact or_iff_right fun h => hxs x hx h.1
  rw [Bool.eq_iff_iff, Bool.and_eq_true, same_named_iff, same_named_iff, List.forall_mem_cons,
    hfirst, List.length_cons, List.length_cons, Nat.add_right_cancel_iff, and_left_comm]
  exact and_congr_right fun _ => and_congr_right fun _ => forall₂_congr hothers

/-- A field of a name that is not among others makes records differ. -/
theorem same_named_of_new {name : String} {w : Wire} {xs ys : List (String × Wire)}
    (hys : ∀ y ∈ ys, y.1 ≠ name) : (named ((name, w) :: xs)).same (named ys) = false := by
  rw [Bool.eq_false_iff, Ne, same_named_iff]
  intro hsame
  obtain ⟨y, hy, hname, -⟩ := hsame.2 (name, w) List.mem_cons_self
  exact hys y hy hname.symm

/-- A field of a name that is missing among others makes records differ, if no name is repeated. -/
theorem same_named_of_missing {name : String} {w : Wire} {xs ys : List (String × Wire)}
    (hnodup : (xs.map Prod.fst).Nodup) (hxs : ∀ x ∈ xs, x.1 ≠ name) :
    (named xs).same (named ((name, w) :: ys)) = false := by
  rw [Bool.eq_false_iff, Ne, same_named_iff]
  rintro ⟨hlength, hall⟩
  have hsubset : xs.map Prod.fst ⊆ ys.map Prod.fst := by
    intro n hn
    obtain ⟨x, hx, rfl⟩ := List.mem_map.1 hn
    obtain ⟨y, hy, hname, -⟩ := hall x hx
    have hother : y ≠ (name, w) := fun h => hxs x hx (hname.trans (congrArg Prod.fst h))
    exact List.mem_map.2 ⟨y, List.mem_of_ne_of_mem hother hy, hname.symm⟩
  have hle := (List.subperm_of_subset hnodup hsubset).length_le
  rw [List.length_map, List.length_map, hlength] at hle
  exact Nat.not_succ_le_self _ hle

/-! ## Optional parts -/

/-- The fields of the parts that are set. -/
def present (parts : List (String × Option Wire)) : List (String × Wire) :=
  parts.filterMap fun (name, part) => part.map fun w => (name, w)

/-- The field of a part has the part's name. -/
theorem mem_names_of_mem_present {parts : List (String × Option Wire)} {field : String × Wire}
    (h : field ∈ present parts) : field.1 ∈ parts.map Prod.fst := by
  obtain ⟨⟨name, part⟩, hpart, hfield⟩ := List.mem_filterMap.1 h
  obtain ⟨w, -, rfl⟩ := Option.map_eq_some_iff.1 hfield
  exact List.mem_map.2 ⟨_, hpart, rfl⟩

/-- Parts of different names give fields of different names. -/
theorem nodup_names_present {parts : List (String × Option Wire)}
    (h : (parts.map Prod.fst).Nodup) : ((present parts).map Prod.fst).Nodup := by
  induction parts with
  | nil => exact List.nodup_nil
  | cons part rest ih =>
    obtain ⟨hname, hrest⟩ := List.nodup_cons.1 h
    obtain ⟨name, _ | w⟩ := part
    · exact ih hrest
    · refine List.nodup_cons.2 ⟨fun hmem => ?_, ih hrest⟩
      obtain ⟨field, hfield, rfl⟩ := List.mem_map.1 hmem
      exact hname (mem_names_of_mem_present hfield)

/-- **Records of optional parts are equal part by part.** -/
theorem same_present {xs ys : List (String × Option Wire)} (names : List String)
    (hx : xs.map Prod.fst = names) (hy : ys.map Prod.fst = names) (hnames : names.Nodup) :
    (named (present xs)).same (named (present ys))
      = sameList (fun x y => sameOption Wire.same x.2 y.2) xs ys := by
  induction xs generalizing ys names with
  | nil =>
    obtain rfl : ys = [] := List.map_eq_nil_iff.1 (hy.trans hx.symm)
    rfl
  | cons x xs ih =>
    obtain ⟨y, ys, rfl⟩ : ∃ y rest, ys = y :: rest := by
      cases ys with
      | nil => cases hy.trans hx.symm
      | cons y ys => exact ⟨y, ys, rfl⟩
    obtain ⟨name, part⟩ := x
    obtain ⟨name', part'⟩ := y
    obtain rfl : name' = name := (List.cons.inj (hy.trans hx.symm)).1
    have htail : ys.map Prod.fst = xs.map Prod.fst := (List.cons.inj (hy.trans hx.symm)).2
    rw [← hx] at hnames
    obtain ⟨hname, hnodup⟩ := List.nodup_cons.1 hnames
    have hrest := ih _ rfl htail hnodup
    -- the first name is that of no later field, on either side
    have hxs : ∀ x ∈ present xs, x.1 ≠ name' := fun x hx heq =>
      hname (heq ▸ mem_names_of_mem_present hx)
    have hys : ∀ y ∈ present ys, y.1 ≠ name' := fun y hy heq =>
      hname (heq ▸ htail ▸ mem_names_of_mem_present hy)
    cases part with
    | none =>
      cases part' with
      | none => exact hrest
      | some w' =>
        have hmissing : (named (present xs)).same (named ((name', w') :: present ys)) = false :=
          same_named_of_missing (nodup_names_present hnodup) hxs
        exact hmissing
    | some w =>
      cases part' with
      | none => exact same_named_of_new hys
      | some w' =>
        refine (same_named_cons hxs hys).trans ?_
        rw [hrest]
        rfl

/-- The fields of a part and of those after it. -/
theorem present_cons (name : String) (part : Option Wire) (parts : List (String × Option Wire)) :
    present ((name, part) :: parts) = (part.map fun w => (name, w)).toList ++ present parts := by
  cases part <;> rfl

/-- A part that is left out under a condition. -/
def omittedIf (omitted : Bool) (w : Wire) : Option Wire := if omitted then none else some w

/-- A part that is left out or not gives no field or one. -/
theorem toList_map_omittedIf (name : String) (omitted : Bool) (w : Wire) :
    ((omittedIf omitted w).map fun w => (name, w)).toList
      = if omitted then [] else [(name, w)] := by
  cases omitted <;> rfl

/-- Where equals are left out alike, and only equals are, parts compare as what they stand for. -/
theorem sameOption_omittedIf {omitted omitted' eq : Bool} {w w' : Wire} (h : w.same w' = eq)
    (halike : eq = true → omitted = omitted')
    (hequal : omitted = true → omitted' = true → eq = true) :
    sameOption Wire.same (omittedIf omitted w) (omittedIf omitted' w') = eq := by
  cases omitted <;> cases omitted'
  · exact h
  · exact (Bool.eq_false_iff.2 fun heq => Bool.false_ne_true (halike heq)).symm
  · exact (Bool.eq_false_iff.2 fun heq => Bool.false_ne_true (halike heq).symm).symm
  · exact (hequal rfl rfl).symm

/-- A value that is left out when absent. -/
theorem sameOption_omittedIf_isNull {v v' : Value} {w w' : Wire} (h : w.same w' = v.same v') :
    sameOption Wire.same (omittedIf v.isNull w) (omittedIf v'.isNull w') = v.same v' := by
  refine sameOption_omittedIf h Value.isNull_eq_of_same fun hv hv' => ?_
  rw [Value.eq_null_of_isNull hv, Value.eq_null_of_isNull hv']
  rfl

/-- Entries that are left out when there are none. -/
theorem sameOption_omittedIf_noEntries {xs ys : Entries α} {eq : α → α → Bool} {w w' : Wire}
    (h : w.same w' = sameEntries eq xs ys) :
    sameOption Wire.same (omittedIf xs.isEmpty w) (omittedIf ys.isEmpty w')
      = sameEntries eq xs ys := by
  refine sameOption_omittedIf h (fun heq => ?_) fun hxs hys => ?_
  · have hlength : xs.length = ys.length := by
      rw [sameEntries, Bool.and_eq_true, beq_iff_eq] at heq
      exact heq.1
    rw [Bool.eq_iff_iff, List.isEmpty_iff_length_eq_zero, List.isEmpty_iff_length_eq_zero, hlength]
  · rw [List.isEmpty_iff.1 hxs, List.isEmpty_iff.1 hys]
    rfl

/-- A list that is left out when it is empty. -/
theorem sameOption_omittedIf_noItems {xs ys : List α} {eq : α → α → Bool} {w w' : Wire}
    (h : w.same w' = sameList eq xs ys) :
    sameOption Wire.same (omittedIf xs.isEmpty w) (omittedIf ys.isEmpty w')
      = sameList eq xs ys := by
  refine sameOption_omittedIf h (fun heq => ?_) fun hxs hys => ?_
  · cases xs <;> cases ys <;> first | rfl | cases heq
  · rw [List.isEmpty_iff.1 hxs, List.isEmpty_iff.1 hys]
    rfl

/-- A part that is there or not compares as what it is made of. -/
theorem sameOption_map {F : α → Wire} {eq : α → α → Bool}
    (h : ∀ a b, (F a).same (F b) = eq a b) (x y : Option α) :
    sameOption Wire.same (x.map F) (y.map F) = sameOption eq x y := by
  cases x <;> cases y <;> first | rfl | exact h _ _

/-- Lists compare by their first items and the rest. -/
theorem sameList_cons (eq : α → α → Bool) (x y : α) (xs ys : List α) :
    sameList eq (x :: xs) (y :: ys) = (eq x y && sameList eq xs ys) := by
  rw [sameList]

/-- Lists without items are equal. -/
theorem sameList_nil (eq : α → α → Bool) : sameList eq [] [] = true := by
  rw [sameList]

/-- A part that is always there. -/
theorem sameOption_some (w w' : Wire) : sameOption Wire.same (some w) (some w') = w.same w' := by
  rw [sameOption]

/-- Values are equal as values. -/
@[simp] theorem same_value (v w : Value) : (value v).same (value w) = v.same w := by
  rw [same]

/-- Values by key are equal as dictionaries are. -/
theorem same_ofEntries (xs ys : Entries Value) :
    (ofEntries xs).same (ofEntries ys) = sameFields xs ys :=
  same_record_map same_value xs ys

end Wire

/-! ## Parts -/

/-- Encodings are equal just if their wire forms are. -/
theorem Encoding.same_toWire (a b : Encoding) : a.toWire.same b.toWire = a.same b := by
  cases a <;> cases b <;> rfl

open Wire

namespace LabelSpec

/-- The parts of a label's wire form. -/
def parts (l : LabelSpec) : List (String × Option Wire) :=
  [("text", some (.value l.text)), ("overlapHide", some (.value l.hideOverlap)),
    ("selector", omittedIf l.selector.isNull (.value l.selector)),
    ("format", l.format.map Encoding.toWire)]

/-- The wire form of a label has its parts. -/
theorem toWire_eq_present (l : LabelSpec) : l.toWire = named (present l.parts) := by
  unfold toWire parts
  simp only [present_cons, toList_map_omittedIf]
  cases l.format <;> simp [present, Wire.optional]

/-- Labels are equal just if their wire forms are. -/
theorem same_toWire (a b : LabelSpec) : a.toWire.same b.toWire = a.same b := by
  rw [toWire_eq_present, toWire_eq_present,
    same_present ["text", "overlapHide", "selector", "format"] rfl rfl (by decide)]
  simp only [parts, sameList_cons, sameList_nil, sameOption_some, same_value,
    sameOption_omittedIf_isNull (same_value a.selector b.selector),
    sameOption_map Encoding.same_toWire, same, Bool.and_true, Bool.and_assoc]

end LabelSpec

namespace Mark

/-- The parts of a mark's wire form. -/
def parts (m : Mark) : List (String × Option Wire) :=
  [("type", some (.value m.type)),
    ("encode", some (.record (m.encode.map fun (k, e) => (k, e.toWire)))),
    ("style", omittedIf m.style.isEmpty (ofEntries m.style)),
    ("labels", omittedIf m.labels.isEmpty (.list (m.labels.map LabelSpec.toWire))),
    ("tooltip", omittedIf m.tooltip.isNull (.value m.tooltip))]

/-- The wire form of a mark has its parts. -/
theorem toWire_eq_present (m : Mark) : m.toWire = named (present m.parts) := by
  unfold toWire parts
  simp only [present_cons, toList_map_omittedIf]
  simp [present, Wire.optional]

/-- Marks are equal just if their wire forms are. -/
theorem same_toWire (a b : Mark) : a.toWire.same b.toWire = a.same b := by
  rw [toWire_eq_present, toWire_eq_present, same_present
    ["type", "encode", "style", "labels", "tooltip"] rfl rfl (by decide)]
  simp only [parts, sameList_cons, sameList_nil, sameOption_some, same_value,
    same_record_map Encoding.same_toWire,
    sameOption_omittedIf_noEntries (same_ofEntries a.style b.style),
    sameOption_omittedIf_noItems (same_list_map LabelSpec.same_toWire a.labels b.labels),
    sameOption_omittedIf_isNull (same_value a.tooltip b.tooltip), same, sameFields, Bool.and_true,
    Bool.and_assoc]

end Mark

namespace AxisSpec

/-- The parts of an axis's wire form. -/
def parts (a : AxisSpec) : List (String × Option Wire) :=
  [("title", some (.value a.title)), ("grid", some (.value a.grid)),
    ("labels", omittedIf a.labelLimit.isNull (named [("maxLength", .value a.labelLimit)]))]

/-- The wire form of an axis has its parts. -/
theorem toWire_eq_present (a : AxisSpec) : a.toWire = named (present a.parts) := by
  unfold toWire parts
  simp only [present_cons, toList_map_omittedIf]
  simp [present]

/-- Axes are equal just if their wire forms are. -/
theorem same_toWire (a b : AxisSpec) : a.toWire.same b.toWire = a.same b := by
  have hlimit : (named [("maxLength", .value a.labelLimit)]).same
      (named [("maxLength", .value b.labelLimit)]) = a.labelLimit.same b.labelLimit := by
    rw [Bool.eq_iff_iff, same_named_iff]
    simp
  rw [toWire_eq_present, toWire_eq_present,
    same_present ["title", "grid", "labels"] rfl rfl (by decide)]
  simp only [parts, sameList_cons, sameList_nil, sameOption_some, same_value,
    sameOption_omittedIf_isNull hlimit, same, Bool.and_true, Bool.and_assoc]

end AxisSpec

namespace Legend

/-- The part of a legend in a wire form. -/
def part : Legend → Option Wire
  | .unset => none
  | .hidden => some (.value (.bool false))
  | .shown l => some l.toWire

/-- Legends are equal just if their parts are. -/
theorem same_part (a b : Legend) : sameOption Wire.same a.part b.part = a.same b := by
  match a, b with
  | .unset, .unset => rfl
  | .hidden, .hidden => exact beq_self_eq_true (Amount.finite (boolInt false * one))
  | .unset, .hidden | .unset, .shown _ | .hidden, .unset | .shown _, .unset => rfl
  | .hidden, .shown _ | .shown _, .hidden => rfl
  | .shown a, .shown b =>
    show a.toWire.same b.toWire = _
    rw [Bool.eq_iff_iff, LegendSpec.toWire, LegendSpec.toWire, same_named_iff]
    simp [same]

end Legend

namespace Policy

/-- The parts of a policy's wire form. -/
def parts (p : Policy) : List (String × Option Wire) :=
  [("maxItems", some (.value (.int p.capacity))), ("mode", some (.value (.text p.mode.word))),
    ("throttle", some (.value (.double p.throttle)))]

/-- The wire form of a policy has its parts. -/
theorem toFields_eq_present (p : Policy) :
    named (p.toFields.map fun (name, v) => (name, .value v)) = named (present p.parts) := rfl

/-- Policies are equal just if their wire forms are. -/
theorem same_toFields (p q : Policy) :
    (named (p.toFields.map fun (name, v) => (name, .value v))).same
      (named (q.toFields.map fun (name, v) => (name, .value v))) = p.same q := by
  have hcapacity : ((p.capacity : Int) == q.capacity) = (p.capacity == q.capacity) := by
    rw [Bool.eq_iff_iff, beq_iff_eq, beq_iff_eq, Int.ofNat_inj]
  have hmode : (p.mode.word == q.mode.word) = (p.mode == q.mode) := by
    cases p.mode <;> cases q.mode <;> rfl
  rw [toFields_eq_present, toFields_eq_present,
    same_present ["maxItems", "mode", "throttle"] rfl rfl (by decide)]
  simp only [parts, sameList_cons, sameList_nil, sameOption_some, same_value, Bool.and_true]
  rw [Value.same_int, Value.same_text, Value.same_double, hcapacity, hmode, same, Bool.and_assoc]

end Policy

/-! ## Bindings -/

/-- The wire form of a field tells a name from a list of one name, and no field from both. -/
theorem Binding.same_fieldMapping (f g : Option FieldSpec) :
    (fieldMapping f).same (fieldMapping g) = (f == g) := by
  match f, g with
  | none, none => rfl
  | none, some (.name _) | none, some (.names ..) => rfl
  | some (.name _), none | some (.names ..), none => rfl
  | some (.name _), some (.names ..) | some (.names ..), some (.name _) => rfl
  | some (.name s), some (.name t) =>
    rw [Bool.eq_iff_iff]
    simp [fieldMapping]
  | some (.names s rest), some (.names t rest') =>
    rw [fieldMapping, fieldMapping, Value.same_list_text, Bool.eq_iff_iff]
    simp

namespace Binding

/-- The binding with no window unless its mode has one. -/
def withoutIdleRange (b : Binding) : Binding :=
  { b with range := if b.mode = .axis then b.range else .infinite }

/-- The parts of a binding's wire form. -/
def parts (b : Binding) : List (String × Option Wire) :=
  [("mode", some (.value (.text b.mode.word))), ("field", some (.value (fieldMapping b.field))),
    ("range", omittedIf (b.mode != .axis) (.value b.range.toValue)),
    ("orderField", b.orderField.map .value)]

/-- The wire form of a binding has its parts. -/
theorem toFields_eq_present (b : Binding) :
    named (b.toFields.map fun (name, v) => (name, .value v)) = named (present b.parts) := by
  obtain ⟨mode, field, range, orderField⟩ := b
  cases mode <;> cases orderField <;> rfl

/-- **Bindings have equal wire forms just if they are equal, windows that no mode uses apart.** -/
theorem same_toFields (a b : Binding) :
    (named (a.toFields.map fun (name, v) => (name, .value v))).same
      (named (b.toFields.map fun (name, v) => (name, .value v)))
      = a.withoutIdleRange.same b.withoutIdleRange := by
  have hmode : (a.mode.word == b.mode.word) = (a.mode == b.mode) := by
    cases a.mode <;> cases b.mode <;> rfl
  rw [toFields_eq_present, toFields_eq_present,
    same_present ["mode", "field", "range", "orderField"] rfl rfl (by decide)]
  simp only [parts, sameList_cons, sameList_nil, sameOption_some, same_value,
    sameOption_map same_value, Bool.and_true]
  rw [Value.same_text, hmode, same_fieldMapping, same]
  simp only [withoutIdleRange, Bool.and_assoc]
  -- a window counts only where both modes are the one that has it
  cases hab : a.mode == b.mode with
  | false => rfl
  | true =>
    rw [beq_iff_eq.1 hab]
    by_cases haxis : b.mode = .axis
    · simp [haxis, omittedIf, sameOption]
    · simp [haxis, omittedIf, sameOption, Range.toValue]

end Binding

/-! ## Specifications -/

namespace Spec

/-- The specification with no window in its binding unless the mode has one. -/
def withoutIdleRange (s : Spec) : Spec :=
  { s with temporal := s.temporal.map Binding.withoutIdleRange }

/-- The parts of a specification's wire form. -/
def parts (s : Spec) : List (String × Option Wire) :=
  [("marks", some (.list (s.marks.map Mark.toWire))),
    ("scales", some (.record (s.scales.map fun (k, scale) => (k, ofEntries scale)))),
    ("transforms", omittedIf s.transforms.isEmpty (.list (s.transforms.map ofEntries))),
    ("coordinate", s.coordinate.map ofEntries),
    ("axes", omittedIf s.axes.isEmpty (.record (s.axes.map fun (k, a) => (k, a.toWire)))),
    ("legend", s.legend.part),
    ("tooltip", omittedIf s.tooltip.isNull (.value s.tooltip)),
    ("streaming", some (.named (s.streaming.toFields.map fun (name, v) => (name, .value v)))),
    ("temporal", s.temporal.map fun b => .named (b.toFields.map fun (name, v) => (name, .value v))),
    ("theme", some (.value s.theme)), ("animate", some (.value s.animate))]

/-- The wire form of a specification has its parts. -/
theorem toWire_eq_present (s : Spec) : s.toWire = named (present s.parts) := by
  unfold toWire toFields parts
  simp only [present_cons, toList_map_omittedIf]
  cases s.coordinate <;> cases s.legend <;> cases s.temporal <;>
    simp [present, Wire.optional, Legend.part]

/-- **Specifications have equal wire forms just if they are equal in every part**, but for the
window of a binding whose mode has none. -/
theorem toWire_same_toWire (s t : Spec) :
    s.toWire.same t.toWire = s.withoutIdleRange.same t.withoutIdleRange := by
  rw [toWire_eq_present, toWire_eq_present, same_present ["marks", "scales", "transforms",
    "coordinate", "axes", "legend", "tooltip", "streaming", "temporal", "theme", "animate"]
    rfl rfl (by decide)]
  simp only [parts, sameList_cons, sameList_nil, sameOption_some, same_value, Bool.and_true,
    same_list_map Mark.same_toWire, same_record_map same_ofEntries,
    sameOption_omittedIf_noItems (same_list_map same_ofEntries s.transforms t.transforms),
    sameOption_map same_ofEntries,
    sameOption_omittedIf_noEntries (same_record_map AxisSpec.same_toWire s.axes t.axes),
    Legend.same_part, sameOption_omittedIf_isNull (same_value s.tooltip t.tooltip),
    Policy.same_toFields, sameOption_map Binding.same_toFields]
  have htemporal : sameOption (fun a b => a.withoutIdleRange.same b.withoutIdleRange)
      s.temporal t.temporal = s.withoutIdleRange.sameTemporal t.withoutIdleRange := by
    rw [sameTemporal, withoutIdleRange, withoutIdleRange]
    cases s.temporal <;> cases t.temporal <;> rfl
  rw [htemporal]
  simp only [withoutIdleRange, same, sameMarks, sameScales, sameStreaming, Bool.and_assoc]

end Spec

end LiveChart
