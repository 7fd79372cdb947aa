import LiveChart.Chart.Draft
import LiveChart.Proofs.Chart.Decoding
import LiveChart.Proofs.Chart.Omission
/-!
# What specifications from named arguments hold

A specification that is put together by hand is checked as its parts are made.  What passes has the
arguments it needs and no others, marks of a named type, the scales as they were given, and a policy
and a binding that values make, so that its settings survive the wire like those of a configuration.

* `Arguments.ofValue_eq_ok_iff` : the dictionaries that are taken for named arguments;
* `Draft.madeFrom_ofArguments` : what a specification from named arguments holds;
* `Draft.settings_ofArguments` : its policy and its binding survive the wire.
-/

namespace LiveChart

/-! ## Named arguments -/

namespace Arguments

/-- The entries of named arguments have texts for keys, and nothing else counts. -/
theorem ofEntries_eq_ok_iff {entries : Entries Value} {args : Arguments} :
    ofEntries entries = .ok args ↔ entries = Entries.ofNamed args := by
  induction entries generalizing args with
  | nil => cases args <;> simp [ofEntries, Entries.ofNamed]
  | cons entry rest ih =>
    obtain ⟨k, v⟩ := entry
    constructor
    · intro h
      cases k with
      | scalar key =>
        cases key with
        | text name =>
          obtain ⟨others, hothers, h⟩ := Result.bind_eq_ok.1 h
          cases h
          rw [ih.1 hothers]
          rfl
        | _ => cases h
      | list | tuple | set | dict | array => cases h
    · intro h
      cases args with
      | nil => cases h
      | cons arg args =>
        obtain ⟨name, w⟩ := arg
        cases h
        exact Result.bind_eq_ok.2 ⟨args, ih.2 rfl, rfl⟩

/-- **The dictionaries that are taken for named arguments** have known names for keys, and all names
that are needed. -/
theorem ofValue_eq_ok_iff {known needed : List String} {v : Value} {args : Arguments} :
    ofValue known needed v = .ok args ↔ v = .dict (Entries.ofNamed args) ∧
      (∀ arg ∈ args, arg.1 ∈ known) ∧ ∀ name ∈ needed, ∃ w, (name, w) ∈ args := by
  constructor
  · intro h
    cases v with
    | dict entries =>
      obtain ⟨got, hgot, h⟩ := Result.bind_eq_ok.1 h
      obtain rfl := eq_of_checked h
      rw [ofEntries_eq_ok_iff.1 hgot]
      unfold checked at h
      split at h
      · next hchecked => simpa using hchecked
      · cases h
    | scalar | list | tuple | set | array => cases h
  · rintro ⟨rfl, hknown, hneeded⟩
    refine Result.bind_eq_ok.2 ⟨args, ofEntries_eq_ok_iff.2 rfl, ?_⟩
    exact if_pos (by simpa using ⟨fun name w h => hknown (name, w) h, hneeded⟩)

end Arguments

/-! ## Settings -/

/-- A binding that named arguments give has been made. -/
theorem Binding.constructible_ofArguments (v : Value) :
    (Binding.ofArguments v).Ensures Binding.Constructible := by
  unfold Binding.ofArguments
  exact .bind fun args _ b hb => ⟨_, _, _, _, hb⟩

/-- A policy that named arguments give has been made. -/
theorem Policy.constructible_ofArguments (v : Value) :
    (Policy.ofArguments v).Ensures Policy.Constructible := by
  unfold Policy.ofArguments
  exact .bind fun args _ p hp => ⟨_, _, _, hp⟩

/-- The default policy has been made. -/
theorem Policy.constructible_default : ({} : Policy).Constructible :=
  ⟨defaultMaxItems, defaultMode, defaultThrottle, rfl⟩

namespace Draft

/-- A part is made of an argument that is true, and any other argument stays as it is. -/
theorem made_eq_ok {α : Type} {make : Value → Result α} {v : Value} {m : Made α}
    (h : made make v = .ok m) : (∃ a, make v = .ok a ∧ m = .made a) ∨ m = .plain v := by
  obtain ⟨b, -, h⟩ := Result.bind_eq_ok.1 h
  cases b with
  | false => exact .inr (Except.ok.inj h).symm
  | true =>
    obtain ⟨a, ha, h⟩ := Result.bind_eq_ok.1 h
    exact .inl ⟨a, ha, (Except.ok.inj h).symm⟩

/-- A policy that the wire form takes has been made. -/
theorem constructible_policyPart {v : Value} {m : Made Policy}
    (hm : made Policy.ofArguments v = .ok m) : (policyPart m).Ensures Policy.Constructible := by
  intro p hp
  obtain ⟨made, hmade, rfl⟩ | rfl := made_eq_ok hm
  · cases hp
    exact Policy.constructible_ofArguments v p hmade
  · cases hp

/-- A binding that the wire form takes has been made, if there is one. -/
theorem constructible_bindingPart {v : Value} {m : Made Binding}
    (hm : made Binding.ofArguments v = .ok m) :
    (bindingPart m).Ensures fun b? => ∀ b, b? = some b → b.Constructible := by
  intro b? hb? b hb
  subst hb
  obtain ⟨made, hmade, rfl⟩ | rfl := made_eq_ok hm
  · cases hb?
    exact Binding.constructible_ofArguments v b hmade
  · unfold bindingPart at hb?
    split at hb?
    · next hplain => cases hplain
    · cases hb?
    · cases hb?

/-! ## Scales -/

/-- A channel keeps its scale when the contents of the scales are checked. -/
theorem toEntries_field? {scales : Entries Value} {checked : Entries (Entries Value)}
    (h : (scales.mapM fun (k, s) => do return (k, ← s.toEntries) : Result _) = .ok checked)
    (channel : String) :
    ((Entries.field? channel scales).getD (.dict [])).toEntries
      = .ok ((Entries.field? channel checked).getD []) := by
  induction scales generalizing checked with
  | nil =>
    cases h
    rfl
  | cons entry rest ih =>
    obtain ⟨k, s⟩ := entry
    rw [List.mapM_cons] at h
    obtain ⟨first, hfirst, h⟩ := Result.bind_eq_ok.1 h
    obtain ⟨others, hothers, h⟩ := Result.bind_eq_ok.1 h
    obtain ⟨scale, hscale, hfirst⟩ := Result.bind_eq_ok.1 hfirst
    cases hfirst
    cases h
    by_cases hk : k = .text channel
    · subst hk
      rw [Entries.field?, if_pos rfl, Entries.field?, if_pos rfl]
      exact hscale
    · rw [Entries.field?_cons_of_ne hk, Entries.field?_cons_of_ne hk]
      exact ih hothers

/-! ## The whole -/

/-- What holds of a specification that is put together by hand of a value. -/
structure MadeFrom (d : Draft) (v : Value) : Prop where
  /-- The value has the marks, and arguments of no other names than those of a specification. -/
  named : ∃ args, v = .dict (Entries.ofNamed args) ∧ (∀ arg ∈ args, arg.1 ∈ argumentNames) ∧
    ∃ marks, ("marks", marks) ∈ args
  /-- The type of every mark is a text. -/
  marks : ∀ m ∈ d.spec.marks, ∃ s, m.type = .text s
  /-- A channel shows the contents of the scale that was given for it. -/
  scales : ∀ channel, (d.scale channel).toEntries = .ok (d.spec.scale channel)
  streaming : d.spec.streaming.Constructible
  temporal : ∀ b, d.spec.temporal = some b → b.Constructible

/-- **A specification that named arguments give** is made of what is needed, and its parts are such
as other ways of making them give. -/
theorem madeFrom_ofArguments (v : Value) : (ofArguments v).Ensures fun d => d.MadeFrom v := by
  unfold ofArguments
  dsimp only
  refine .bind fun _ _ => .bind fun _ _ => .bind fun _ _ => .bind fun axes _ => .bind fun _ _ =>
    .bind fun _ _ => .bind fun given _ => ?_
  -- the policy is made of its argument, or is the default one; all that follows is the same
  split
  all_goals
    refine .bind fun policy hpolicy => ?_
    have hmade : (policyPart policy).Ensures Policy.Constructible := by
      first
        | exact constructible_policyPart hpolicy
        | cases hpolicy
          exact .pure Policy.constructible_default
    refine .bind fun _ _ => .bind fun binding hbinding => .bind fun args hargs =>
      .bind fun marks _ => .bind fun scales _ => .bind fun checked hchecked =>
      .bind fun transforms _ => .bind fun coordinate _ => .bind fun legend _ =>
      .bind fun tooltip _ => .bind fun streaming hstreaming => .bind fun temporal htemporal => ?_
    refine .ite (fun hmarks => .pure ?_) fun _ => .bind fun _ hthrown => nomatch hthrown
    obtain ⟨hv, hknown, hneeded⟩ := Arguments.ofValue_eq_ok_iff.1 hargs
    refine {
      named := ⟨args, hv, hknown, hneeded "marks" (List.mem_singleton_self _)⟩
      marks := fun m hm => ?_
      scales := toEntries_field? hchecked
      streaming := hmade streaming hstreaming
      temporal := constructible_bindingPart hbinding temporal htemporal }
    have htype := List.all_eq_true.1 hmarks m hm
    split at htype
    · next s hs => exact ⟨s, hs⟩
    · cases htype

/-- One mark is enough for a specification. -/
example : (ofArguments (.dict [(.text "marks",
    .list [.dict [(.text "type", .text "line")]])])).isOk = true := by rfl

/-- **The settings of a specification that is put together by hand survive the wire**, like those of
a configuration. -/
theorem settings_ofArguments (v : Value) : (ofArguments v).Ensures fun d =>
    Policy.ofMapping d.spec.streaming.toMapping = .ok d.spec.streaming ∧
      ∀ b, d.spec.temporal = some b →
        ∃ restored, Binding.ofMapping b.toMapping = .ok restored ∧ restored.Restores b := by
  intro d hd
  have h := madeFrom_ofArguments v d hd
  refine ⟨Policy.ofMapping_toMapping h.streaming.throttle, fun b hb => ?_⟩
  exact ⟨b.withoutIdleRange, Binding.ofMapping_toMapping (h.temporal b hb).wellFormed,
    Binding.restores_withoutIdleRange b⟩

end Draft

end LiveChart
