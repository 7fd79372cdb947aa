import LiveChart.Proofs.Chart.Compiled
/-!
# The options of every configuration

All families read four options alike: a palette, a binding, a policy, and a shortcut for the
capacity.  Each of them may be left out, and what it is read to depends on no other option.  This
is stated once, so that what is proved about one option need not follow the reading of the others.

* `ReadTo` : what an option that may be left out is read to;
* `BaseConfig.ofOptions_eq_ok_iff` : the shared options are read, each of its own argument;
* `Config.readFrom_ofOptions` : every configuration keeps the shared options that are read;
* `Config.exists_readFrom_of_ofMapping` : what a configuration keeps that is read from a mapping.
-/

namespace LiveChart

variable {α β : Type}

/-! ## Options that may be left out -/

/-- What an option that may be left out is read to: nothing, or what a reader makes of it. -/
inductive ReadTo (read : Value → Result α) : Value → Option α → Prop where
  | absent : ReadTo read .null none
  | given {v : Value} {a : α} (hgiven : v.isNull = false) (h : read v = .ok a) :
    ReadTo read v (some a)

/-- A step that reads an option succeeds just if what comes after it does, for what the option is
read to. -/
theorem readTo_bind_eq_ok {read : Value → Result α} {v : Value} {f : Option α → Result β} {b : β} :
    (match v with
      | .null => do f (← pure none)
      | v => do f (← pure (some (← read v)))) = .ok b ↔
    ∃ a?, ReadTo read v a? ∧ f a? = .ok b := by
  constructor
  · intro h
    split at h
    · exact ⟨none, .absent, h⟩
    · next hne =>
      obtain ⟨a, ha, h⟩ := Result.bind_eq_ok.1 h
      have hgiven : v.isNull = false :=
        Bool.eq_false_iff.2 fun hnull => hne (Value.eq_null_of_isNull hnull)
      exact ⟨some a, .given hgiven ha, h⟩
  · rintro ⟨a?, hread, h⟩
    cases hread with
    | absent => exact h
    | @given v a hgiven hread =>
      split
      · cases hgiven
      · exact Result.bind_eq_ok.2 ⟨a, hread, h⟩

/-- A part of a configuration that can be read from dictionaries only is embedded as it is read. -/
theorem embedded_eq_ok_iff {read : Value → Result α} {part label : String} {v : Value}
    {a? : Option α} (hdict : ∀ {v a}, read v = .ok a → ∃ entries, v = .dict entries) :
    embedded read part label v = .ok a? ↔ ReadTo read v a? := by
  constructor
  · intro h
    unfold embedded at h
    split at h
    · cases h
      exact .absent
    · obtain ⟨a, ha, h⟩ := Result.bind_eq_ok.1 h
      cases h
      exact .given rfl ha
    · cases h
  · intro h
    cases h with
    | absent => rfl
    | @given v a hgiven hread =>
      obtain ⟨entries, rfl⟩ := hdict hread
      exact Result.bind_eq_ok.2 ⟨a, hread, rfl⟩

/-- A binding is read from dictionaries only. -/
theorem Binding.exists_dict_of_ofMapping {v : Value} {b : Binding} (h : ofMapping v = .ok b) :
    ∃ entries, v = .dict entries := by
  -- a mode may be found in a value of another kind, but no member
  obtain ⟨mode, -, h⟩ := Result.bind_eq_ok.1 h
  cases v with
  | dict entries => exact ⟨entries, rfl⟩
  | scalar | list | tuple | set | array => cases h

/-- A policy is read from dictionaries only. -/
theorem Policy.exists_dict_of_ofMapping {v : Value} {p : Policy} (h : ofMapping v = .ok p) :
    ∃ entries, v = .dict entries := by
  cases v with
  | dict entries => exact ⟨entries, rfl⟩
  | scalar | list | tuple | set | array => cases h

/-! ## The shared options -/

/-- The shared options of a configuration are what arguments are read to, each of its own. -/
structure BaseConfig.ReadFrom (c : BaseConfig) (args : Arguments) : Prop where
  colors : ReadTo Value.elements (args.get "colors") c.colors
  temporal : ReadTo Binding.ofMapping (args.get "temporal") c.temporal
  streaming : ReadTo Policy.ofMapping (args.get "streaming") c.streaming
  maxItems : ReadTo capacityOf (args.get "max_items") c.maxItems

/-- **The shared options** that arguments give are the ones that these are read to. -/
theorem BaseConfig.ofOptions_eq_ok_iff {args : Arguments} {c : BaseConfig} :
    ofOptions args = .ok c ↔ c.ReadFrom args := by
  unfold ofOptions
  refine readTo_bind_eq_ok.trans ?_
  dsimp only
  constructor
  · rintro ⟨colors, hcolors, h⟩
    obtain ⟨temporal, htemporal, h⟩ := Result.bind_eq_ok.1 h
    obtain ⟨streaming, hstreaming, h⟩ := Result.bind_eq_ok.1 h
    obtain ⟨maxItems, hmax, h⟩ := readTo_bind_eq_ok.1 h
    cases h
    exact {
      colors := hcolors
      temporal := (embedded_eq_ok_iff Binding.exists_dict_of_ofMapping).1 htemporal
      streaming := (embedded_eq_ok_iff Policy.exists_dict_of_ofMapping).1 hstreaming
      maxItems := hmax }
  · intro h
    refine ⟨c.colors, h.colors, ?_⟩
    rw [(embedded_eq_ok_iff Binding.exists_dict_of_ofMapping).2 h.temporal,
      (embedded_eq_ok_iff Policy.exists_dict_of_ofMapping).2 h.streaming]
    exact readTo_bind_eq_ok.2 ⟨c.maxItems, h.maxItems, rfl⟩

/-! ## Configurations -/

/-- What is made of a value has a property if the value is such that it will have it. -/
theorem Result.Ensures.map {r : Result α} {g : α → β} {P : β → Prop}
    (h : r.Ensures fun a => P (g a)) : (r >>= fun a => Pure.pure (g a)).Ensures P :=
  .bind fun a ha => .pure (h a ha)

/-- Arguments that pass a check are as they were. -/
theorem Arguments.eq_of_checked {known needed : List String} {args got : Arguments}
    (h : checked known needed args = .ok got) : args = got := by
  unfold checked at h
  split at h
  · exact Except.ok.inj h
  · cases h

namespace Config

/-- The configuration of a family keeps the shared options, which every family reads first. -/
theorem readFrom_ofFamily (family : Family) (args : Arguments) :
    (ofFamily family args).Ensures fun c => c.base.ReadFrom args := by
  unfold ofFamily
  split
  case h_7 => exact fun _ h => nomatch h
  all_goals
    refine .map (.bind fun base hbase => ?_)
    repeat' first
      | refine .bind fun _ _ => ?_
      | split
    all_goals exact .pure (BaseConfig.ofOptions_eq_ok_iff.1 hbase)

/-- **A configuration that is made of options keeps the shared ones.** -/
theorem readFrom_ofOptions (kind : ConfigKind) (args : Arguments) :
    (ofOptions kind args).Ensures fun c => c.base.ReadFrom args := by
  unfold ofOptions
  refine .bind fun checked hchecked => .bind fun found _ => ?_
  obtain rfl : args = checked := Arguments.eq_of_checked hchecked
  split
  · exact readFrom_ofFamily _ args
  · exact fun _ h => nomatch h

/-- A configuration that is read from a mapping keeps the shared options among those that the
entries give. -/
theorem exists_readFrom_of_ofMapping {given : Value} {c : Config} (h : ofMapping given = .ok c) :
    ∃ (entries : Entries Value) (family : Family) (args : Arguments), given = .dict entries ∧
      collectOptions family.kind.options entries [] = .ok args ∧
      c.base.ReadFrom (args.bind "chart_type" (.text family.name)) := by
  cases given with
  | dict entries =>
    obtain ⟨family, -, h⟩ := Result.bind_eq_ok.1 h
    obtain ⟨args, hargs, h⟩ := Result.bind_eq_ok.1 h
    exact ⟨entries, family, args, rfl, hargs, readFrom_ofOptions family.kind _ c h⟩
  | scalar | list | tuple | set | array => cases h

end Config

end LiveChart
