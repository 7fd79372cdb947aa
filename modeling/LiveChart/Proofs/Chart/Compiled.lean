import LiveChart.Stream.Setup
/-!
# What a specification keeps of its configuration

A configuration is compiled by the rules of its family, one step after another, any of which may
fail.  Whatever the family, the specification keeps the temporal binding, with a blank field filled
in, the form of time labels and the policy.  A controller is built from such a specification.

* `Result.Ensures` : every value that a computation gives has a property, step by step;
* `Config.labelFormat?` : the form of time labels that a configuration sets;
* `Config.keeps_of_compile` : what a specification keeps of its configuration;
* `Config.Keeps.exists_bound` : its binding is bound to a field;
* `Setup.exists_of_build` : a controller is built from a compiled configuration.
-/

namespace LiveChart

/-! ## What computations ensure -/

/-- Every value that a computation gives has a property. -/
def Result.Ensures {α : Type} (r : Result α) (P : α → Prop) : Prop := ∀ a, r = .ok a → P a

/-- A step that is taken one way or the other is one step. -/
theorem Result.ite_bind {α β : Type} (c : Prop) [Decidable c] (r s : Result α)
    (f : α → Result β) : (if c then r else s) >>= f = if c then r >>= f else s >>= f := by
  split <;> rfl

/-- A step that is taken only under a condition, and what is made of its value, are one step. -/
theorem Result.ifThen_bind {α β γ : Type} (c : Prop) [Decidable c] (b : β) (r : Result α)
    (g : α → β) (f : β → Result γ) :
    (if c then r >>= fun a => pure (g a) >>= f else pure b >>= f) =
      (if c then r >>= fun a => pure (g a) else pure b) >>= f := by
  rw [Result.ite_bind, bind_assoc]

/-- A step that is taken unless a condition holds, and what is made of its value, are one step. -/
theorem Result.ifNot_bind {α β γ : Type} (c : Prop) [Decidable c] (b : β) (r : Result α)
    (g : α → β) (f : β → Result γ) :
    (if c then pure b >>= f else r >>= fun a => pure (g a) >>= f) =
      (if c then pure b else r >>= fun a => pure (g a)) >>= f := by
  rw [Result.ite_bind, bind_assoc]

namespace Result.Ensures

variable {α β : Type} {r : Result α} {f : α → Result β} {P : β → Prop}

/-- Two computations in a row ensure what the second does after the first. -/
theorem bind (h : ∀ a, r = .ok a → (f a).Ensures P) : (r >>= f).Ensures P := fun _ hb => by
  obtain ⟨a, ha, hfa⟩ := Result.bind_eq_ok.1 hb
  exact h a ha _ hfa

/-- A choice of computations ensures what both of them do. -/
theorem ite {p : Prop} [Decidable p] {s t : Result β} (hs : p → s.Ensures P)
    (ht : ¬p → t.Ensures P) : (if p then s else t).Ensures P := by
  by_cases hp : p
  · rw [if_pos hp]
    exact hs hp
  · rw [if_neg hp]
    exact ht hp

/-- A value ensures what it has. -/
theorem pure {b : β} (h : P b) : (Pure.pure b : Result β).Ensures P := fun _ hb =>
  Except.ok.inj hb ▸ h

end Result.Ensures

/-! ## What is kept -/

namespace Config

/-- The form of time labels that a configuration sets; a blank one is none. -/
def labelFormat? : Config → Option Value
  | .timeSeries c =>
    match c.xFormat.truth with
    | .ok true => some c.xFormat
    | _ => none
  | _ => none

/-- The field that fills a blank temporal binding. -/
def primaryField : Config → Value
  | .timeSeries c => c.xAxis
  | .bars c => c.xAxis
  | .singleValue c => c.yAxis
  | .table _ => .null
  | .geo c => c.longitude
  | .price c => c.time

/-- A specification keeps the temporal binding of a configuration, bound to a field, its form of
time labels and its policy. -/
structure Keeps (c : Config) (spec : Spec) : Prop where
  temporal : temporalOf c.family c.base.temporal c.primaryField = .ok spec.temporal
  mask : Entries.field? "mask" (spec.scale "x") = c.labelFormat?
  streaming : spec.streaming = c.base.policy

end Config

/-- A palette does not change the scale of x. -/
theorem field?_withPalette (colors : Option (List Value)) (scales : Entries (Entries Value)) :
    Entries.field? "x" (withPalette colors scales) = Entries.field? "x" scales := by
  unfold withPalette
  split
  · rw [Entries.field?_append]
    exact Option.or_none
  · rfl

/-! ## The kinds of configurations -/

/-- A line or an area sets its form of time labels. -/
theorem TimeSeriesConfig.keeps_compile (c : TimeSeriesConfig) (theme : Theme) :
    (c.compile theme).Ensures (Config.Keeps (.timeSeries c)) := by
  unfold TimeSeriesConfig.compile
  dsimp only
  refine .bind fun _ _ => .bind fun encode _ => .bind fun labels _ => .bind fun points _ => ?_
  -- whether the values are stacked does not matter for the steps that follow
  refine .ite (fun _ => ?_) fun _ => ?_
  all_goals
    refine .bind fun colored _ => .bind fun formatted hformat => .bind fun axes _ =>
      .bind fun legend _ => .bind fun temporal htemporal => .pure ⟨htemporal, ?_, rfl⟩
    rw [Spec.scale, field?_withPalette, Config.labelFormat?, hformat]
    cases formatted <;> rfl

/-- Bars set no form of time labels. -/
theorem BarConfig.keeps_compile (c : BarConfig) (theme : Theme) :
    (c.compile theme).Ensures (Config.Keeps (.bars c)) := by
  unfold BarConfig.compile
  dsimp only
  refine .bind fun _ _ => .bind fun encode _ => .bind fun labels _ => .bind fun colored _ =>
    .bind fun axes _ => .bind fun legend _ => .bind fun temporal htemporal =>
      .pure ⟨htemporal, ?_, rfl⟩
  rw [Spec.scale, field?_withPalette]
  rfl

/-- A single value has no scale of x. -/
theorem SingleValueConfig.keeps_compile (c : SingleValueConfig) (theme : Theme) :
    (c.compile theme).Ensures (Config.Keeps (.singleValue c)) := by
  unfold SingleValueConfig.compile
  dsimp only
  exact .bind fun _ _ => .bind fun delta _ => .bind fun sparkline _ =>
    .bind fun temporal htemporal => .pure ⟨htemporal, rfl, rfl⟩

/-- A table has no scales. -/
theorem TableConfig.keeps_compile (c : TableConfig) (theme : Theme) :
    (c.compile theme).Ensures (Config.Keeps (.table c)) := by
  unfold TableConfig.compile
  dsimp only
  refine .bind fun wrap _ => ?_
  split
  · exact .bind fun entries _ => .bind fun columns _ => .bind fun temporal htemporal =>
      .pure ⟨htemporal, rfl, rfl⟩
  · exact .bind fun columns _ => .bind fun temporal htemporal => .pure ⟨htemporal, rfl, rfl⟩

/-- A map has a scale of sizes at most. -/
theorem GeoConfig.keeps_compile (c : GeoConfig) (theme : Theme) :
    (c.compile theme).Ensures (Config.Keeps (.geo c)) := by
  have hscale : ∀ (sized : Bool) (scale : Entries Value), Entries.field? "x"
      (withPalette c.colors (if sized = true then [(.text "size", scale)] else [])) = none := by
    intro sized scale
    rw [field?_withPalette]
    cases sized <;> rfl
  unfold GeoConfig.compile
  dsimp only
  -- the last step binds the field and sets the scales, and none before it does either
  repeat' first
    | refine .bind fun _ _ => ?_
    | refine .ite (fun _ => ?_) fun _ => ?_
  all_goals
    refine .pure ⟨‹_›, ?_, rfl⟩
    rw [Spec.scale, hscale]
    rfl

/-- Prices set no form of time labels. -/
theorem PriceConfig.keeps_compile (c : PriceConfig) (theme : Theme) :
    (c.compile theme).Ensures (Config.Keeps (.price c)) := by
  unfold PriceConfig.compile
  dsimp only
  exact .bind fun _ _ => .bind fun temporal htemporal => .pure ⟨htemporal, rfl, rfl⟩

/-- **A specification keeps the binding, the form of time labels and the policy of its
configuration.** -/
theorem Config.keeps_of_compile {c : Config} {theme : Theme} {spec : Spec}
    (h : c.compile theme = .ok spec) : c.Keeps spec := by
  cases c with
  | timeSeries c => exact c.keeps_compile theme spec h
  | bars c => exact c.keeps_compile theme spec h
  | singleValue c => exact c.keeps_compile theme spec h
  | table c => exact c.keeps_compile theme spec h
  | geo c => exact c.keeps_compile theme spec h
  | price c => exact c.keeps_compile theme spec h

/-! ## The bound binding -/

/-- The default fills a blank field, and changes nothing else of a binding. -/
theorem Binding.eq_of_withDefaultField {b bound : Binding} {default : Value}
    (h : b.withDefaultField default = .ok bound) : bound = { b with field := bound.field } := by
  unfold withDefaultField at h
  split at h
  · obtain ⟨field, -, hbound⟩ := Result.bind_eq_ok.1 h
    obtain rfl := Except.ok.inj hbound
    rfl
  · obtain rfl := Except.ok.inj h
    rfl

/-- The binding of a specification is that of its configuration, bound to a field. -/
theorem Config.Keeps.exists_bound {c : Config} {spec : Spec} (h : c.Keeps spec) {asked : Binding}
    (hasked : c.base.temporal = some asked) :
    ∃ b, spec.temporal = some b ∧ b.isBound = true ∧ b = { asked with field := b.field } := by
  have htemporal := h.temporal
  rw [hasked] at htemporal
  obtain ⟨b, hb, hspec⟩ := Result.bind_eq_ok.1 htemporal
  split at hspec
  · rename_i hbound
    exact ⟨b, (Except.ok.inj hspec).symm, hbound, Binding.eq_of_withDefaultField hb⟩
  · cases hspec

/-! ## Built controllers -/

namespace Setup

variable {s : Setup}

/-- What is compiled is a configuration, under some theme. -/
theorem exists_of_compiled {given : Value} {lines : List Log.Line} {spec : Spec}
    (h : s.compiled given = (lines, .ok spec)) :
    ∃ c theme, Config.ofMapping s.config = .ok c ∧ c.compile theme = .ok spec := by
  unfold compiled at h
  split at h
  · rename_i c spec' hcompile
    obtain ⟨theme, -, hconfig⟩ := Result.bind_eq_ok.1 hcompile
    obtain ⟨c', hc', hpair⟩ := Result.bind_eq_ok.1 hconfig
    obtain ⟨spec'', hspec, heq⟩ := Result.bind_eq_ok.1 hpair
    obtain ⟨rfl, rfl⟩ := Prod.mk.inj (Except.ok.inj heq)
    obtain rfl := Except.ok.inj (Prod.mk.inj h).2
    exact ⟨c', theme, hc', hspec⟩
  · exact nomatch (Prod.mk.inj h).2

/-- An override changes the policy of a specification only. -/
theorem exists_of_override {given : Option Policy} {spec spec' : Spec}
    (h : s.override given spec = .ok spec') :
    ∃ policy, spec' = { spec with streaming := policy } := by
  unfold override at h
  split at h
  · exact ⟨_, (Except.ok.inj h).symm⟩
  · unfold Controller.overridePolicy at h
    split at h
    · exact ⟨spec.streaming, (Except.ok.inj h).symm⟩
    · obtain ⟨policy, -, hspec⟩ := Result.bind_eq_ok.1 h
      exact ⟨policy, (Except.ok.inj hspec).symm⟩
    · cases h

/-- A controller is built from a compiled configuration, once the policy that may override the
compiled one has been read. -/
theorem exists_override_of_build {lines : List Log.Line} {built : Controller}
    (h : s.build = (lines, .ok built)) :
    ∃ c theme spec columns given spec', Config.ofMapping s.config = .ok c ∧
      c.compile theme = .ok spec ∧ s.givenPolicy = .ok given ∧
      s.override given spec = .ok spec' ∧ built = s.controller columns spec' := by
  -- the configuration is compiled beforehand or now, which is the same under another theme
  have hearly : ∃ theme, (if s.precompiled then some (s.compiled defaultTheme) else none).getD
      (s.compiled s.theme) = s.compiled theme := by
    cases s.precompiled with
    | true => exact ⟨defaultTheme, rfl⟩
    | false => exact ⟨s.theme, rfl⟩
  unfold build at h
  dsimp only at h
  split at h
  · exact nomatch (Prod.mk.inj h).2
  · split at h
    · exact nomatch (Prod.mk.inj h).2
    · exact nomatch (Prod.mk.inj h).2
    · rename_i given columns hgiven _
      obtain ⟨theme, htheme⟩ := hearly
      rw [htheme] at h
      obtain ⟨spec, hspec, hbuilt⟩ := Result.bind_eq_ok.1 (Prod.mk.inj h).2
      obtain ⟨spec', hoverride, heq⟩ := Result.bind_eq_ok.1 hbuilt
      obtain ⟨c, theme', hc, hcompile⟩ := exists_of_compiled (Prod.ext rfl hspec)
      exact ⟨c, theme', spec, columns, given, spec', hc, hcompile, hgiven, hoverride,
        (Except.ok.inj heq).symm⟩

/-- **A controller is built from a compiled configuration**, under a policy that may override the
compiled one. -/
theorem exists_of_build {lines : List Log.Line} {built : Controller}
    (h : s.build = (lines, .ok built)) :
    ∃ c theme spec columns policy, Config.ofMapping s.config = .ok c ∧
      c.compile theme = .ok spec ∧
      built = s.controller columns { spec with streaming := policy } := by
  obtain ⟨c, theme, spec, columns, given, spec', hc, hcompile, -, hoverride, rfl⟩ :=
    exists_override_of_build h
  obtain ⟨policy, rfl⟩ := exists_of_override hoverride
  exact ⟨c, theme, spec, columns, policy, hc, hcompile, rfl⟩

end Setup

end LiveChart
