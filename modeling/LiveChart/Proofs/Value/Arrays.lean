import LiveChart.Value.Arrange
import LiveChart.Proofs.Value.Kinds
/-!
# Arrays hold elements of one kind

Nested sequences become an array of the narrowest kind that all their leaves can be brought to.
Kinds are joined leaf by leaf, and a join takes what either kind takes, so in the end every leaf can
stand as an element of the kind that was found.

* `Element.Takes` and `Element.Holds` : what can become an element of a kind, and what is one;
* `Element.takes_join_left` and `Element.takes_join_right` : a join of kinds is an upper bound;
* `Value.nested` : the leaves of nested sequences, in order;
* `Value.arrayOf_homogeneous` : an array holds its leaves in order, as elements of one kind;
* `Value.arrayOf_of_uniform` : leaves of one kind make an array of that kind.
-/

namespace LiveChart

/-! ## Kinds as bounds -/

/-- The place of a scalar in the chain of kinds that numbers are widened along: truth values, whole
numbers, doubles, and texts.  Other scalars have none. -/
def Scalar.grade? : Scalar → Option Nat
  | .bool _ | .flag _ => some 0
  | .int _ | .fixedInt .. => some 1
  | .double _ | .fixedFloat .. => some 2
  | .text _ => some 3
  | _ => none

namespace Element

/-- The place of a kind in the same chain. -/
def grade? : Element → Option Nat
  | .flag => some 0
  | .whole _ => some 1
  | .real _ => some 2
  | .text _ => some 3
  | .bytes _ | .any => none

/-- A value can become an element of a kind: a scalar that stands no higher in the chain, a byte
string among byte strings, or any value among values of all kinds. -/
inductive Takes : Element → Value → Prop where
  | chain {e : Element} {s : Scalar} {m n : Nat} (hs : s.grade? = some m) (he : e.grade? = some n)
    (h : m ≤ n) : Takes e (.scalar s)
  | bytes (length : Nat) (bs : List UInt8) : Takes (.bytes length) (.scalar (.bytes bs))
  | any (v : Value) : Takes .any v

/-- The kind of a leaf in an array of its own. -/
def ofLeaf : Value → Element
  | .scalar s => ofScalar s
  | _ => .any

/-- A leaf can become an element of its own kind. -/
theorem takes_ofLeaf (v : Value) : (ofLeaf v).Takes v := by
  cases v with
  | scalar s =>
    rw [ofLeaf]
    cases s with
    | int n =>
      rw [ofScalar]
      split_ifs
      · exact .chain rfl rfl (Nat.le_refl 1)
      · exact .chain rfl rfl (Nat.le_refl 1)
      · exact .any _
    | bool | flag | fixedInt | double | fixedFloat | text => exact .chain rfl rfl (Nat.le_refl _)
    | bytes bs => exact .bytes _ bs
    | _ => exact .any _
  | _ => exact .any _

/-- The whole numbers of two widths are joined to whole numbers, or to doubles if no width is
sufficient. -/
theorem exists_grade_joinWhole (v w : IntWidth) :
    ∃ k, (joinWhole v w).grade? = some k ∧ 1 ≤ k := by
  unfold joinWhole
  split
  · exact ⟨1, rfl, Nat.le_refl 1⟩
  · generalize (if v.isSigned = true then (v, w) else (w, v)) = widths
    obtain ⟨signed, unsigned⟩ := widths
    dsimp only
    split
    · exact ⟨1, rfl, Nat.le_refl 1⟩
    · split
      · exact ⟨1, rfl, Nat.le_refl 1⟩
      · exact ⟨2, rfl, Nat.le_succ 1⟩

/-- A join of two kinds of the chain stands no lower than either. -/
theorem exists_grade_join {a b : Element} {m n : Nat} (ha : a.grade? = some m)
    (hb : b.grade? = some n) : ∃ k, (a.join b).grade? = some k ∧ m ≤ k ∧ n ≤ k := by
  cases a <;> cases b <;> cases ha <;> cases hb
  case whole.whole v w =>
    obtain ⟨k, hk, hle⟩ := exists_grade_joinWhole v w
    exact ⟨k, hk, hle, hle⟩
  all_goals exact ⟨_, rfl, by decide, by decide⟩

/-- A kind out of the chain is joined to byte strings if both are, and to all values otherwise. -/
theorem join_of_grade_eq_none {a b : Element} (h : a.grade? = none ∨ b.grade? = none) :
    a.join b = .any ∨ ∃ m n, a = .bytes m ∧ b = .bytes n ∧ a.join b = .bytes (max m n) := by
  cases a with
  | bytes m =>
    cases b with
    | bytes n => exact .inr ⟨m, n, rfl, rfl, rfl⟩
    | _ => exact .inl rfl
  | any => cases b <;> exact .inl rfl
  | flag | whole | real | text =>
    cases b with
    | bytes | any => exact .inl rfl
    | _ => cases h <;> contradiction

/-- It does not matter in which order two kinds are joined. -/
theorem join_comm (a b : Element) : a.join b = b.join a := by
  cases a <;> cases b
  case whole.whole v w => cases v <;> cases w <;> rfl
  case real.real v w => cases v <;> cases w <;> rfl
  all_goals simp [join, textLength?, Nat.max_comm]

/-- **What a kind takes, its join with another takes.** -/
theorem takes_join_left {a : Element} {v : Value} (h : a.Takes v) (b : Element) :
    (a.join b).Takes v := by
  by_cases hnone : a.grade? = none ∨ b.grade? = none
  · obtain hany | ⟨m, n, rfl, rfl, hbytes⟩ := join_of_grade_eq_none hnone
    · rw [hany]
      exact .any v
    · rw [hbytes]
      cases h with
      | chain _ he => cases he
      | bytes => exact .bytes _ _
  · rw [not_or] at hnone
    obtain ⟨m, hm⟩ := Option.ne_none_iff_exists'.1 hnone.1
    obtain ⟨n, hn⟩ := Option.ne_none_iff_exists'.1 hnone.2
    obtain ⟨k, hk, hle, -⟩ := exists_grade_join hm hn
    cases h with
    | chain hs he hgrade =>
      cases hm.symm.trans he
      exact .chain hs hk (hgrade.trans hle)
    | bytes => cases hm
    | any => cases hm

/-- What a kind takes, the join of another with it takes. -/
theorem takes_join_right {b : Element} {v : Value} (h : b.Takes v) (a : Element) :
    (a.join b).Takes v := by
  rw [join_comm]
  exact takes_join_left h a

/-- A value is an element of a kind. -/
inductive Holds : Element → Value → Prop where
  | flag (b : Bool) : Holds .flag (.bool b)
  | whole (w : IntWidth) (n : Int) : Holds (.whole w) (.int n)
  | real (w : FloatWidth) (x : Double) : Holds (.real w) (.double x)
  | text (length : Nat) (s : String) : Holds (.text length) (.text s)
  | bytes (length : Nat) (bs : List UInt8) : Holds (.bytes length) (.scalar (.bytes bs))
  | any (v : Value) : Holds .any v

/-- A leaf as an element of a kind. -/
def place (e : Element) : Value → Value
  | .scalar s => Value.elementOfScalar e s
  | v => v

/-- **What a kind takes becomes one of its elements.** -/
theorem Takes.holds_place {e : Element} {v : Value} (h : e.Takes v) : e.Holds (e.place v) := by
  cases h with
  | @chain _ s m n hs he hle =>
    cases e with
    | text length => exact .text length _
    | flag =>
      cases he
      cases s with
      | bool b | flag b => exact .flag b
      | _ => cases hs <;> contradiction
    | whole w =>
      cases he
      cases s with
      | bool | flag | int | fixedInt => exact .whole w _
      | _ => cases hs <;> contradiction
    | real w =>
      cases he
      cases s with
      | bool | flag | int | fixedInt | double | fixedFloat => exact .real w _
      | _ => cases hs <;> contradiction
    | bytes | any => cases he
  | bytes length bs => exact .bytes length _
  | any => exact .any _

end Element

namespace Value

mutual

/-- The leaves of nested sequences, in order. -/
def nested : Value → List Value
  | .list items | .tuple items | .array _ items => nestedOf items
  | v => [v]

/-- The leaves of the items, in order. -/
def nestedOf : List Value → List Value
  | [] => []
  | v :: rest => v.nested ++ nestedOf rest

end

/-- The leaves of a sequence are those of its items. -/
theorem nested_of_sequence {v : Value} {items : List Value} (h : v.sequence? = some items) :
    v.nested = nestedOf items := by
  cases v with
  | list | tuple | array => cases h; rfl
  | _ => cases h

end Value

/-! ## Joining leaves -/

namespace Element

/-- A join with the kind of all values is that kind. -/
theorem join_any (a : Element) : a.join .any = .any := by
  cases a <;> rfl

/-- The kinds of some leaves, joined to another kind one after the other. -/
def joinAll (kind : Option Element) (leaves : List Value) : Option Element :=
  leaves.foldl (fun kind v => joinTo kind (ofLeaf v)) kind

/-- The kinds of leaves before others are joined first. -/
theorem joinAll_append (kind : Option Element) (leaves more : List Value) :
    joinAll kind (leaves ++ more) = joinAll (joinAll kind leaves) more :=
  List.foldl_append

/-- A leaf without a kind of its own is joined to all values. -/
theorem joinAll_of_any {v : Value} (h : ofLeaf v = .any) (kind : Option Element) :
    joinAll kind [v] = some .any := by
  show joinTo kind (ofLeaf v) = some .any
  rw [h]
  cases kind with
  | none => rfl
  | some a => exact congrArg some (join_any a)

/-- What a kind takes, all later joins take. -/
theorem Takes.exists_joinAll {e : Element} {v : Value} (h : e.Takes v) (leaves : List Value) :
    ∃ e', joinAll (some e) leaves = some e' ∧ e'.Takes v := by
  induction leaves generalizing e with
  | nil => exact ⟨e, rfl, h⟩
  | cons w rest ih => exact ih (takes_join_left h (ofLeaf w))

/-- **Every leaf can become an element of the kind that all leaves are joined to.** -/
theorem exists_joinAll_of_mem {v : Value} {leaves : List Value} (h : v ∈ leaves)
    (kind : Option Element) : ∃ e, joinAll kind leaves = some e ∧ e.Takes v := by
  induction leaves generalizing kind with
  | nil => exact absurd h List.not_mem_nil
  | cons w rest ih =>
    obtain rfl | hrest := List.mem_cons.1 h
    · cases kind with
      | none => exact (takes_ofLeaf v).exists_joinAll rest
      | some a => exact (takes_join_right (takes_ofLeaf v) a).exists_joinAll rest
    · exact ih hrest _

/-- Leaves of a kind leave that kind as it is. -/
theorem joinAll_of_uniform {e : Element} {leaves : List Value} (h : ∀ v ∈ leaves, ofLeaf v = e) :
    joinAll (some e) leaves = some e := by
  induction leaves with
  | nil => rfl
  | cons v rest ih =>
    rw [List.forall_mem_cons] at h
    have hjoin : joinTo (some e) (ofLeaf v) = some e := by
      rw [h.1]
      exact congrArg some (join_self e)
    exact (congrArg (joinAll · rest) hjoin).trans (ih h.2)

end Element

/-! ## Arrays -/

namespace Value

/-- The kind of items is joined leaf by leaf, if that of each item is. -/
theorem joinLeavesOf_eq_of {items : List Value}
    (h : ∀ v ∈ items, ∀ kind, v.joinLeaves kind = Element.joinAll kind v.nested)
    (kind : Option Element) : joinLeavesOf kind items = Element.joinAll kind (nestedOf items) := by
  induction items generalizing kind with
  | nil => rfl
  | cons v rest ih =>
    rw [List.forall_mem_cons] at h
    rw [joinLeavesOf, h.1, ih h.2, nestedOf, Element.joinAll_append]

/-- The kind of nested sequences is joined leaf by leaf. -/
theorem joinLeaves_eq (v : Value) (kind : Option Element) :
    v.joinLeaves kind = Element.joinAll kind v.nested := by
  induction v using induct generalizing kind with
  | scalar s => rfl
  | sequence v items hv ih =>
    have hitems : v.joinLeaves kind = joinLeavesOf kind items := by
      cases v with
      | list | tuple | array => cases hv; rfl
      | _ => cases hv
    rw [hitems, joinLeavesOf_eq_of ih, nested_of_sequence hv]
  | set items => exact (Element.joinAll_of_any rfl kind).symm
  | dict entries => exact (Element.joinAll_of_any rfl kind).symm

/-- An element of a kind that a scalar becomes has no rows. -/
theorem leaves_elementOfScalar (e : Element) (s : Scalar) :
    (elementOfScalar e s).leaves = [elementOfScalar e s] := by
  unfold elementOfScalar
  split <;> rfl

/-- The elements of items that are brought to a kind, if the elements of each are known. -/
theorem leavesOf_arrangeItems_of {e : Element} {items : List Value}
    (h : ∀ v ∈ items, (v.arrange e).leaves = v.nested.map e.place) :
    leavesOf (arrangeItems e items) = (nestedOf items).map e.place := by
  induction items with
  | nil => rfl
  | cons v rest ih =>
    rw [List.forall_mem_cons] at h
    rw [arrangeItems, leavesOf, h.1, ih h.2, nestedOf, List.map_append]

/-- **The elements of an array are the leaves of the sequences, in their order.** -/
theorem leaves_arrange (e : Element) (v : Value) :
    (v.arrange e).leaves = v.nested.map e.place := by
  induction v using induct with
  | scalar s => exact leaves_elementOfScalar e s
  | sequence v items hv ih =>
    have hitems : v.arrange e = .array e (arrangeItems e items) := by
      cases v with
      | list | tuple | array => cases hv; rfl
      | _ => cases hv
    rw [hitems, leaves, leavesOf_arrangeItems_of ih, nested_of_sequence hv]
  | set items => rfl
  | dict entries => rfl

/-- As many items are brought to a kind as there are. -/
theorem length_arrangeItems (e : Element) (items : List Value) :
    (arrangeItems e items).length = items.length := by
  induction items with
  | nil => rfl
  | cons v rest ih => exact congrArg (· + 1) ih

/-- **An array holds elements of one kind.**  It has a row for every item of the sequence, its
elements are the leaves of the items in their order, each brought to the kind of the array, and
every one of them is an element of that kind. -/
theorem arrayOf_homogeneous (items : List Value) : ∃ element rows,
    arrayOf items = .array element rows ∧ rows.length = items.length ∧
      leavesOf rows = (nestedOf items).map element.place ∧
      ∀ v ∈ leavesOf rows, element.Holds v := by
  have hleaves (e : Element) : leavesOf (arrangeItems e items) = (nestedOf items).map e.place :=
    leavesOf_arrangeItems_of fun v _ => leaves_arrange e v
  refine ⟨_, _, rfl, length_arrangeItems _ items, hleaves _, fun w hw => ?_⟩
  rw [hleaves] at hw
  obtain ⟨v, hv, rfl⟩ := List.mem_map.1 hw
  obtain ⟨e, he, htakes⟩ := Element.exists_joinAll_of_mem hv none
  rw [joinLeavesOf_eq_of fun v _ => joinLeaves_eq v, he]
  exact htakes.holds_place

/-- **Leaves of one kind make an array of that kind.** -/
theorem arrayOf_of_uniform {items : List Value} {e : Element} (hne : nestedOf items ≠ [])
    (h : ∀ v ∈ nestedOf items, Element.ofLeaf v = e) :
    arrayOf items = .array e (arrangeItems e items) := by
  have hkind : joinLeavesOf none items = some e := by
    rw [joinLeavesOf_eq_of fun v _ => joinLeaves_eq v]
    obtain ⟨v, rest, hcons⟩ := List.exists_cons_of_ne_nil hne
    rw [hcons, List.forall_mem_cons] at h
    rw [hcons]
    exact (congrArg (Element.joinAll · rest) (congrArg some h.1)).trans
      (Element.joinAll_of_uniform h.2)
  rw [arrayOf, hkind]
  rfl

/-- With the absent value among them, leaves have no kind in common and stay as they are. -/
example : arrayOf [.list [.int 1, .bool true], .list [.text "a", .null]] =
    .array .any [.array .any [.int 1, .bool true], .array .any [.text "a", .null]] := by rfl

end Value

end LiveChart
