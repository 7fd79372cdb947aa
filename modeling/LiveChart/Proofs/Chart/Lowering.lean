import LiveChart.Proofs.Chart.Compiled
/-!
# The rules that all families share

Every family is compiled by rules of its own, and all of them obey a few shared ones: how the
temporal binding and the policy come about, which transforms are applied, what the scale of colors
is, and what a channel may show.  They are stated here of a configuration and its specification
alone, for field roles that are names or absent.

* `Config.roles` : the field roles of a configuration;
* `Config.Shows` : what a mark may show;
* `Config.Lowered` : the shared rules;
* `Config.lowered_of_compile` : every family obeys them.
-/

namespace LiveChart

/-! ## Field roles -/

namespace Value

/-- Whether a value can be a field role: a text, or the absent value. -/
def isFieldRole : Value → Bool
  | null | text _ => true
  | _ => false

/-- The name that a value holds, unless it is blank. -/
def name? : Value → Option String
  | text s => if s.isEmpty then none else some s
  | _ => none

/-- Whether a value names a field. -/
def isName (v : Value) : Bool := v.name?.isSome

variable {v : Value}

/-- A field role is absent or a text. -/
theorem eq_null_or_text (h : v.isFieldRole = true) : v = null ∨ ∃ s, v = text s := by
  unfold isFieldRole at h
  split at h
  · exact .inl rfl
  · exact .inr ⟨_, rfl⟩
  · cases h

/-- A field role is bound just if it names a field. -/
theorem truth_eq_isName (h : v.isFieldRole = true) : v.truth = .ok v.isName := by
  obtain rfl | ⟨s, rfl⟩ := eq_null_or_text h
  · rfl
  · rw [isName, name?, truth, scalarTruth]
    cases s.isEmpty <;> rfl

/-- The field of a role is its name. -/
theorem fieldSpec_eq_name? (h : v.isFieldRole = true) :
    FieldSpec.ofValue v = .ok (v.name?.map .name) := by
  obtain rfl | ⟨s, rfl⟩ := eq_null_or_text h
  · rfl
  · rw [FieldSpec.ofValue, name?]
    cases s.isEmpty <;> rfl

end Value

namespace Config

/-- The field roles of a configuration. -/
def roles : Config → List Value
  | .timeSeries c => [c.xAxis, c.yAxis, c.color]
  | .bars c => [c.xAxis, c.yAxis, c.color]
  | .singleValue c => [c.yAxis]
  | .table _ => []
  | .geo c => [c.longitude, c.latitude, c.color, (c.size.getD {}).key]
  | .price c => [c.time, c.openField, c.highField, c.lowField, c.closeField]

/-- The field that tells the rows of a chart apart by color, if its family has one. -/
def colorField : Config → Value
  | .timeSeries c => c.color
  | .bars c => c.color
  | .geo c => c.color
  | _ => .null

/-- How bars with one category are placed, if a configuration says so. -/
def grouping : Config → Option Grouping
  | .bars c => c.groupType
  | _ => none

/-- The color of a price, computed from its direction. -/
def priceColor? : Config → Option Computed
  | .price c => some (.candleColor c.openField c.closeField c.bullishColor c.bearishColor)
  | _ => none

/-! ## The rules -/

/-- The transforms of a chart: colors are stacked in areas and in bars that ask for it, and stand
side by side in other bars. -/
def transforms (c : Config) : List (Entries Value) :=
  if c.colorField.isName then
    match c.family with
    | .area => [transform "stackY"]
    | .bar | .column => [transform (if c.grouping = some .stack then "stackY" else "dodgeX")]
    | _ => []
  else []

end Config

/-- A palette as a scale, in order; an empty one is none. -/
def paletteScale? : Option (List Value) → Option (Entries Value)
  | some (first :: rest) => some [(.text "range", .list (first :: rest))]
  | _ => none

/-- Whether the palette of a configuration becomes a scale. -/
def Family.hasPalette : Family → Bool
  | .line | .area | .bar | .column | .geo => true
  | .singleValue | .table | .ohlc | .candlestick => false

namespace Config

/-- The scale of colors: the palette in order, unless it is empty. -/
def colorScale? (c : Config) : Option (Entries Value) :=
  if c.family.hasPalette then paletteScale? c.base.colors else none

/-- The channels of a mark show named field roles; of a price chart the channel of colors shows the
color of the price. -/
structure Shows (c : Config) (m : Mark) : Prop where
  named : ∀ channel shown, (channel, shown) ∈ m.encode →
    (∃ role ∈ c.roles, role.isName = true ∧ shown = .field role) ∨
      channel = .text "color" ∧ ∃ color, c.priceColor? = some color ∧ shown = .computed color
  colored : ∀ color, c.priceColor? = some color → (.text "color", .computed color) ∈ m.encode

/-- What a specification draws: the transforms, the scale of colors, the channels of its marks, and
a scale of sizes just where a mark has a channel of sizes. -/
structure Draws (c : Config) (spec : Spec) : Prop where
  transforms : spec.transforms = c.transforms
  colors : Entries.field? "color" spec.scales = c.colorScale?
  marks : ∀ m ∈ spec.marks, c.Shows m
  sizes : ∀ m ∈ spec.marks,
    (Entries.field? "size" m.encode).isSome = (Entries.field? "size" spec.scales).isSome

/-- The rules that the specifications of all families obey. -/
structure Lowered (c : Config) (spec : Spec) : Prop extends c.Draws spec where
  /-- The binding is that of the configuration, its blank field filled by the primary field. -/
  temporal : spec.temporal = c.base.temporal.map fun b =>
    { b with field := b.field.or (c.primaryField.name?.map .name) }
  bound : ∀ b, spec.temporal = some b → b.isBound = true
  /-- An explicit policy is kept. -/
  explicit : ∀ policy, c.base.streaming = some policy → spec.streaming = policy
  /-- A policy that is not explicit differs from the standard one in its capacity only. -/
  standard : c.base.streaming = none → spec.streaming.mode = .append ∧
    spec.streaming.throttle = .zero ∧
    spec.streaming.capacity = (c.base.maxItems.map Subtype.val).getD defaultCapacity

end Config

/-! ## Steps -/

/-- Required roles name fields. -/
theorem isName_of_requireRoles {family : Family} {required : List (String × Value)}
    (h : requireRoles family required = .ok ())
    (hroles : ∀ role ∈ required.map Prod.snd, role.isFieldRole = true) :
    ∀ role ∈ required.map Prod.snd, role.isName = true := by
  induction required with
  | nil => exact fun r hr => nomatch hr
  | cons first rest ih =>
    obtain ⟨name, field⟩ := first
    rw [List.map_cons, List.forall_mem_cons] at hroles ⊢
    rw [requireRoles, Value.truth_eq_isName hroles.1] at h
    cases hname : field.isName with
    | true =>
      rw [hname] at h
      exact ⟨rfl, ih h hroles.2⟩
    | false =>
      rw [hname] at h
      cases h

/-- The bound channels are those of named fields. -/
theorem channels_eq_ok {fields : List (String × Value)}
    (hroles : ∀ r ∈ fields, r.2.isFieldRole = true) :
    channels fields = .ok ((fields.filter fun r => r.2.isName).map fun (channel, field) =>
      (.text channel, .field field)) := by
  induction fields with
  | nil => rfl
  | cons first rest ih =>
    obtain ⟨channel, field⟩ := first
    obtain ⟨hfirst, hrest⟩ := List.forall_mem_cons.1 hroles
    rw [channels, Value.truth_eq_isName hfirst, ih hrest, List.filter_cons]
    cases field.isName <;> rfl

/-- The scale of colors is the palette. -/
theorem field?_color_withPalette {scales : Entries (Entries Value)}
    (h : Entries.field? "color" scales = none) (colors : Option (List Value)) :
    Entries.field? "color" (withPalette colors scales) = paletteScale? colors := by
  match colors with
  | none | some [] => exact h
  | some (first :: rest) =>
    rw [withPalette, Entries.field?_append, h]
    rfl

/-- The palette is no scale of sizes. -/
theorem field?_size_withPalette (colors : Option (List Value)) (scales : Entries (Entries Value)) :
    Entries.field? "size" (withPalette colors scales) = Entries.field? "size" scales := by
  unfold withPalette
  split
  · rw [Entries.field?_append]
    exact Option.or_none
  · rfl

/-- A blank field is filled by the name of a field role. -/
theorem Binding.withDefaultField_eq {default : Value} (hdefault : default.isFieldRole = true)
    (b : Binding) : b.withDefaultField default
      = .ok { b with field := b.field.or (default.name?.map .name) } := by
  obtain ⟨mode, _ | field, range, orderField⟩ := b
  · rw [Binding.withDefaultField, Value.fieldSpec_eq_name? hdefault]
    cases hnull : default.isNull with
    | false => simp [Binding.takesDefault, Binding.isBound, hnull, bind, Except.bind]; rfl
    | true =>
      rw [Value.eq_null_of_isNull hnull]
      rfl
  · rfl

/-- What a binding is bound to: its own field, or else the default. -/
theorem eq_of_temporalOf {family : Family} {binding temporal : Option Binding} {default : Value}
    (hdefault : default.isFieldRole = true) (h : temporalOf family binding default = .ok temporal) :
    (temporal = binding.map fun b => { b with field := b.field.or (default.name?.map .name) }) ∧
      ∀ b, temporal = some b → b.isBound = true := by
  cases binding with
  | none =>
    obtain rfl := Except.ok.inj h
    exact ⟨rfl, fun b hb => nomatch hb⟩
  | some asked =>
    rw [temporalOf, asked.withDefaultField_eq hdefault] at h
    dsimp only [bind, Except.bind] at h
    split at h
    · rename_i hbound
      obtain rfl := Except.ok.inj h
      exact ⟨rfl, fun b hb => Option.some.inj hb ▸ hbound⟩
    · cases h

/-- A channel is there just if a named field is bound to it. -/
theorem isSome_field?_of_channels {fields : List (String × Value)} {encode : Entries Encoding}
    (hroles : ∀ r ∈ fields, r.2.isFieldRole = true) (h : channels fields = .ok encode)
    (channel : String) :
    (Entries.field? channel encode).isSome = fields.any fun r => r.1 == channel && r.2.isName := by
  obtain rfl := Except.ok.inj ((channels_eq_ok hroles).symm.trans h)
  clear h
  induction fields with
  | nil => rfl
  | cons first rest ih =>
    obtain ⟨name, field⟩ := first
    rw [List.any_cons, ← ih (List.forall_mem_cons.1 hroles).2, List.filter_cons]
    cases hname : field.isName with
    | false => simp
    | true =>
      rw [if_pos rfl, List.map_cons, Entries.field?, Bool.and_true]
      by_cases heq : name = channel
      · simp [heq]
      · simp [heq]

/-- Channels that are bound to field roles show named ones. -/
theorem Config.shows_of_channels {c : Config} {m : Mark} {fields : List (String × Value)}
    (hfields : ∀ r ∈ fields, r.2 ∈ c.roles) (hroles : ∀ role ∈ c.roles, role.isFieldRole = true)
    (hcolor : c.priceColor? = none) (h : channels fields = .ok m.encode) : c.Shows m := by
  have hencode := Except.ok.inj ((channels_eq_ok fun r hr => hroles _ (hfields r hr)).symm.trans h)
  constructor
  · intro channel shown hmem
    rw [← hencode] at hmem
    obtain ⟨r, hr, heq⟩ := List.mem_map.1 hmem
    obtain ⟨hr, hname⟩ := List.mem_filter.1 hr
    exact .inl ⟨r.2, hfields r hr, hname, (Prod.mk.inj heq).2.symm⟩
  · intro color hsome
    rw [hcolor] at hsome
    cases hsome

/-- What is drawn where no mark shows a size. -/
theorem Config.draws_of_noSizes {c : Config} {spec : Spec}
    (htransforms : spec.transforms = c.transforms)
    (hcolors : Entries.field? "color" spec.scales = c.colorScale?)
    (hmarks : ∀ m ∈ spec.marks, c.Shows m ∧ (Entries.field? "size" m.encode).isSome = false)
    (hsize : (Entries.field? "size" spec.scales).isSome = false) : c.Draws spec where
  transforms := htransforms
  colors := hcolors
  marks m hm := (hmarks m hm).1
  sizes m hm := (hmarks m hm).2.trans hsize.symm

/-! ## Families -/

/-- Marks whose channels are those of two axes and a color show field roles, and no size. -/
theorem Config.shows_of_axes {c : Config} {x y color : Value} {encode : Entries Encoding}
    (hxy : c.roles = [x, y, color]) (hroles : ∀ role ∈ c.roles, role.isFieldRole = true)
    (hcolor : c.priceColor? = none)
    (h : channels [("x", x), ("y", y), ("color", color)] = .ok encode) (m : Mark)
    (hm : m.encode = encode) : c.Shows m ∧ (Entries.field? "size" m.encode).isSome = false := by
  have hfields : ∀ r ∈ [("x", x), ("y", y), ("color", color)], r.2 ∈ c.roles := by
    simp [hxy]
  subst hm
  refine ⟨shows_of_channels hfields hroles hcolor h, ?_⟩
  simpa using isSome_field?_of_channels (fun r hr => hroles _ (hfields r hr)) h "size"

/-- What lines and areas draw. -/
theorem TimeSeriesConfig.draws_compile (c : TimeSeriesConfig) (theme : Theme)
    (hroles : ∀ role ∈ (Config.timeSeries c).roles, role.isFieldRole = true) :
    (c.compile theme).Ensures (Config.Draws (.timeSeries c)) := by
  have hcolor := Value.truth_eq_isName (hroles c.color (by simp [Config.roles]))
  unfold TimeSeriesConfig.compile
  dsimp only
  simp only [← Result.ite_bind]
  refine .bind fun _ _ => .bind fun encode hencode => .bind fun labels _ => .bind fun points _ =>
    .bind fun colored hcolored => .bind fun formatted _ => .bind fun axes _ =>
      .bind fun legend _ => .bind fun temporal _ => .pure ?_
  apply Config.draws_of_noSizes
  case htransforms =>
    rw [hcolor] at hcolored
    dsimp only
    rw [Config.transforms, Config.family, family, Config.colorField]
    by_cases harea : c.isArea
    · rw [if_pos harea] at hcolored ⊢
      obtain rfl := Except.ok.inj hcolored
      rfl
    · rw [if_neg harea] at hcolored ⊢
      obtain rfl := Except.ok.inj hcolored
      cases c.color.isName <;> rfl
  case hcolors =>
    rw [field?_color_withPalette rfl, Config.colorScale?, Config.family, family]
    cases c.isArea <;> rfl
  case hmarks =>
    intro m hm
    simp only [List.mem_cons, List.mem_ite_nil_right, List.not_mem_nil, or_false] at hm
    rcases hm with rfl | ⟨-, rfl⟩ <;> exact Config.shows_of_axes rfl hroles rfl hencode _ rfl
  case hsize =>
    rw [field?_size_withPalette]
    rfl

/-- What bars and columns draw. -/
theorem BarConfig.draws_compile (c : BarConfig) (theme : Theme)
    (hroles : ∀ role ∈ (Config.bars c).roles, role.isFieldRole = true) :
    (c.compile theme).Ensures (Config.Draws (.bars c)) := by
  have hcolor := Value.truth_eq_isName (hroles c.color (by simp [Config.roles]))
  unfold BarConfig.compile
  dsimp only
  refine .bind fun _ _ => .bind fun encode hencode => .bind fun labels _ =>
    .bind fun colored hcolored => .bind fun axes _ => .bind fun legend _ =>
      .bind fun temporal _ => .pure ?_
  apply Config.draws_of_noSizes
  case htransforms =>
    obtain rfl := Except.ok.inj (hcolor.symm.trans hcolored)
    rw [Config.transforms, Config.family, family]
    cases c.isBar <;> rfl
  case hcolors =>
    rw [field?_color_withPalette rfl, Config.colorScale?, Config.family, family]
    cases c.isBar <;> rfl
  case hmarks =>
    intro m hm
    obtain rfl := List.mem_singleton.1 hm
    exact Config.shows_of_axes rfl hroles rfl hencode _ rfl
  case hsize =>
    rw [field?_size_withPalette]
    rfl

/-- What a single value draws. -/
theorem SingleValueConfig.draws_compile (c : SingleValueConfig) (theme : Theme)
    (hroles : ∀ role ∈ (Config.singleValue c).roles, role.isFieldRole = true) :
    (c.compile theme).Ensures (Config.Draws (.singleValue c)) := by
  unfold SingleValueConfig.compile
  dsimp only
  refine .bind fun _ hrequired => .bind fun delta _ => .bind fun sparkline _ =>
    .bind fun temporal _ => .pure ?_
  have hname : c.yAxis.isName = true :=
    isName_of_requireRoles hrequired hroles c.yAxis List.mem_cons_self
  have hmark : ∀ channel : String, channel ≠ "size" → ∀ m : Mark,
      m.encode = [(.text channel, .field c.yAxis)] →
      Config.Shows (.singleValue c) m ∧ (Entries.field? "size" m.encode).isSome = false := by
    intro channel hchannel m hm
    rw [hm]
    refine ⟨⟨?_, fun color hcolor => nomatch hcolor⟩, ?_⟩
    · intro name shown hmem
      rw [hm, List.mem_singleton] at hmem
      exact .inl ⟨c.yAxis, by simp [Config.roles], hname, (Prod.mk.inj hmem).2⟩
    · simp [Entries.field?, hchannel]
  apply Config.draws_of_noSizes
  case htransforms => rfl
  case hcolors => rfl
  case hmarks =>
    intro m hm
    simp only [List.mem_cons, List.mem_ite_nil_right, List.not_mem_nil, or_false] at hm
    rcases hm with rfl | ⟨-, rfl⟩
    · exact hmark "text" (by decide) _ rfl
    · exact hmark "y" (by decide) _ rfl
  case hsize => rfl

/-- What a table draws. -/
theorem TableConfig.draws_compile (c : TableConfig) (theme : Theme) :
    (c.compile theme).Ensures (Config.Draws (.table c)) := by
  have hdraws : ∀ style temporal, Config.Draws (.table c)
      { marks := [{ type := .text "cell", style }]
        legend := .hidden
        streaming := c.policy
        temporal
        theme := .text theme.word } := by
    intro style temporal
    apply Config.draws_of_noSizes
    case hmarks =>
      intro m hm
      obtain rfl := List.mem_singleton.1 hm
      exact ⟨⟨fun _ _ h => (nomatch h), fun _ h => (nomatch h)⟩, rfl⟩
    all_goals rfl
  unfold TableConfig.compile
  dsimp only
  refine .bind fun wrap _ => ?_
  split
  · exact .bind fun entries _ => .bind fun columns _ => .bind fun temporal _ => .pure (hdraws _ _)
  · exact .bind fun columns _ => .bind fun temporal _ => .pure (hdraws _ _)

/-- What a map draws. -/
theorem GeoConfig.draws_compile (c : GeoConfig) (theme : Theme)
    (hroles : ∀ role ∈ (Config.geo c).roles, role.isFieldRole = true) :
    (c.compile theme).Ensures (Config.Draws (.geo c)) := by
  have hfields : ∀ r ∈ [("longitude", c.longitude), ("latitude", c.latitude), ("color", c.color),
      ("size", (c.size.getD {}).key)], r.2 ∈ (Config.geo c).roles := by
    simp [Config.roles]
  have hkey := Value.truth_eq_isName (hroles (c.size.getD {}).key (by simp [Config.roles]))
  unfold GeoConfig.compile
  dsimp only
  simp only [Result.ifThen_bind, Result.ifNot_bind]
  refine .bind fun _ _ => .bind fun opacity _ => .bind fun painted _ => .bind fun filled _ =>
    .bind fun sized hsized => .bind fun zoom _ => .bind fun tiles _ => .bind fun encode hencode =>
      .bind fun colored _ => .bind fun temporal _ => .pure ?_
  obtain rfl := Except.ok.inj (hkey.symm.trans hsized)
  constructor
  case transforms =>
    rw [Config.transforms]
    cases (Config.geo c).colorField.isName <;> rfl
  case colors =>
    refine (field?_color_withPalette ?_ c.colors).trans rfl
    cases (c.size.getD {}).key.isName <;> rfl
  case marks =>
    intro m hm
    obtain rfl := List.mem_singleton.1 hm
    exact Config.shows_of_channels hfields hroles rfl hencode
  case sizes =>
    intro m hm
    obtain rfl := List.mem_singleton.1 hm
    rw [isSome_field?_of_channels (fun r hr => hroles _ (hfields r hr)) hencode,
      field?_size_withPalette]
    cases hname : (c.size.getD {}).key.isName <;> simp [Entries.field?, hname]

/-- The channels of a price chart are those that are given, and that of colors. -/
theorem field?_priceChannels (color : Computed) {fields : List (String × Value)} {channel : String}
    (hfields : ∀ r ∈ fields, r.1 ≠ channel) (hcolor : "color" ≠ channel) :
    Entries.field? channel (priceChannels color fields) = none := by
  induction fields with
  | nil => exact if_neg hcolor
  | cons first rest ih =>
    obtain ⟨hfirst, hrest⟩ := List.forall_mem_cons.1 hfields
    exact (if_neg hfirst).trans (ih hrest)

/-- A mark of a price chart shows field roles and the color of the price. -/
theorem PriceConfig.shows_priceChannels {c : PriceConfig}
    (hnames : ∀ role ∈ (Config.price c).roles, role.isName = true) {fields : List (String × Value)}
    (hfields : ∀ r ∈ fields, r.2 ∈ (Config.price c).roles) {m : Mark}
    (hm : m.encode = priceChannels
      (.candleColor c.openField c.closeField c.bullishColor c.bearishColor) fields) :
    Config.Shows (.price c) m := by
  constructor
  case named =>
    intro channel shown hmem
    rw [hm, priceChannels, List.mem_append, List.mem_map, List.mem_singleton] at hmem
    rcases hmem with ⟨r, hr, heq⟩ | heq
    · have hrole := hfields r hr
      exact .inl ⟨r.2, hrole, hnames r.2 hrole, (Prod.mk.inj heq).2.symm⟩
    · obtain ⟨rfl, rfl⟩ := Prod.mk.inj heq
      exact .inr ⟨rfl, _, rfl, rfl⟩
  case colored =>
    intro color hcolor
    obtain rfl := Option.some.inj hcolor
    rw [hm, priceChannels]
    exact List.mem_append_right _ List.mem_cons_self

/-- What a price chart draws. -/
theorem PriceConfig.draws_compile (c : PriceConfig) (theme : Theme)
    (hroles : ∀ role ∈ (Config.price c).roles, role.isFieldRole = true) :
    (c.compile theme).Ensures (Config.Draws (.price c)) := by
  unfold PriceConfig.compile
  dsimp only
  refine .bind fun _ hrequired => .bind fun temporal _ => .pure ?_
  have hnames := isName_of_requireRoles hrequired hroles
  have hmark : ∀ fields : List (String × Value),
      (∀ r ∈ fields, r.2 ∈ (Config.price c).roles ∧ r.1 ≠ "size") → ∀ m : Mark,
      m.encode = priceChannels
        (.candleColor c.openField c.closeField c.bullishColor c.bearishColor) fields →
      Config.Shows (.price c) m ∧ (Entries.field? "size" m.encode).isSome = false := by
    intro fields hfields m hm
    refine ⟨shows_priceChannels hnames (fun r hr => (hfields r hr).1) hm, ?_⟩
    rw [hm, field?_priceChannels _ (fun r hr => (hfields r hr).2) (by decide)]
    rfl
  apply Config.draws_of_noSizes
  case htransforms => rfl
  case hcolors =>
    rw [Config.colorScale?, Config.family, family]
    cases c.isCandlestick <;> rfl
  case hmarks =>
    intro m hm
    rcases List.mem_cons.1 hm with rfl | hbody
    · exact hmark _ (by simp [Config.roles]) _ rfl
    · split at hbody
      · obtain rfl := List.mem_singleton.1 hbody
        exact hmark _ (by simp [Config.roles]) _ rfl
      · simp only [List.mem_cons, List.not_mem_nil, or_false] at hbody
        rcases hbody with rfl | rfl <;> exact hmark _ (by simp [Config.roles]) _ rfl
  case hsize => rfl

/-! ## Every family -/

/-- The primary field is a field role, or absent. -/
theorem Config.isFieldRole_primaryField {c : Config}
    (hroles : ∀ role ∈ c.roles, role.isFieldRole = true) : c.primaryField.isFieldRole = true := by
  cases c with
  | table c => rfl
  | _ => exact hroles _ List.mem_cons_self

/-- What the charts of all families draw. -/
theorem Config.draws_of_compile {c : Config} {theme : Theme} {spec : Spec}
    (hroles : ∀ role ∈ c.roles, role.isFieldRole = true) (h : c.compile theme = .ok spec) :
    c.Draws spec := by
  cases c with
  | timeSeries c => exact c.draws_compile theme hroles spec h
  | bars c => exact c.draws_compile theme hroles spec h
  | singleValue c => exact c.draws_compile theme hroles spec h
  | table c => exact c.draws_compile theme spec h
  | geo c => exact c.draws_compile theme hroles spec h
  | price c => exact c.draws_compile theme hroles spec h

/-- **The specifications of all families obey the shared rules**, where the field roles are names or
absent. -/
theorem Config.lowered_of_compile {c : Config} {theme : Theme} {spec : Spec}
    (hroles : ∀ role ∈ c.roles, role.isFieldRole = true) (h : c.compile theme = .ok spec) :
    c.Lowered spec := by
  obtain ⟨htemporal, -, hstreaming⟩ := keeps_of_compile h
  obtain ⟨hbinding, hbound⟩ := eq_of_temporalOf (isFieldRole_primaryField hroles) htemporal
  refine { draws_of_compile hroles h with
    temporal := hbinding, bound := hbound, explicit := ?_, standard := ?_ }
  · intro policy hpolicy
    rw [hstreaming, BaseConfig.policy, hpolicy]
  · intro hnone
    rw [hstreaming, BaseConfig.policy, hnone]
    cases c.base.maxItems <;> exact ⟨rfl, rfl, rfl⟩

/-- An area of loads by host, stacked and bound to its time axis. -/
def loadArea : Config := .timeSeries
  { isArea := true
    xAxis := .text "time"
    yAxis := .text "load"
    color := .text "host"
    colors := some [.text "teal", .text "coral"]
    temporal := some { mode := .axis }
    maxItems := some ⟨50, by decide⟩ }

/-- The specification of the area of loads follows the rules of lowering. -/
theorem loadArea_lowered : ∃ spec, loadArea.compile .dark = .ok spec ∧ loadArea.Lowered spec :=
  ⟨_, rfl, Config.lowered_of_compile (by simp [loadArea, Config.roles, Value.isFieldRole]) rfl⟩

end LiveChart
