import LiveChart.Proofs.Chart.Filled
import LiveChart.Proofs.Chart.Readability
import LiveChart.Proofs.Chart.Settings
import LiveChart.Proofs.Chart.SharedOptions
/-!
# Unset options are left out

No dictionary in a compiled specification holds an absent value, whatever its configuration leaves
out, but for a few options that are taken over as they are given: the size and the colors of a
single value, and the charts and the colors of the columns of a table.

* `Config.Filled` : the options that are taken over are not absent;
* `Config.isFilled_compile_iff` : when a compiled specification holds no absent value;
* `compileChart_nullMiniChart` : a column may be given an absent word for its chart.
-/

namespace LiveChart

/-! ## Steps of compilations -/

/-- A value that is true is not absent. -/
theorem Value.isNull_of_truth {v : Value} (h : v.truth = .ok true) : v.isNull = false := by
  refine Value.isNull_of_ne_null ?_
  rintro rfl
  cases h

/-- A value that is given is not absent. -/
theorem Value.isNull_of_isGiven {v : Value} (h : v.isGiven = true) : v.isNull = false := by
  refine Value.isNull_of_ne_null ?_
  rintro rfl
  cases h

/-- A value that is a word is not absent. -/
theorem Value.isNull_of_isWord {word : String} {v : Value} (h : v.isWord word = .ok true) :
    v.isNull = false := by
  refine Value.isNull_of_ne_null ?_
  rintro rfl
  cases h

/-- The absent value is none of some choices. -/
theorem Value.choose?_null {α : Type} (word : α → String) (choices : List α) :
    Value.choose? word choices .null = .ok none := by
  induction choices with
  | nil => rfl
  | cons a rest ih => exact ih

/-- A value that is one of some choices is not absent. -/
theorem Value.isNull_of_choose? {α : Type} {word : α → String} {choices : List α} {v : Value}
    {a : α} (h : Value.choose? word choices v = .ok (some a)) : v.isNull = false := by
  refine Value.isNull_of_ne_null ?_
  rintro rfl
  rw [Value.choose?_null] at h
  cases h

/-- Required roles are given. -/
theorem rolesGiven_of_requireRoles {family : Family} {required : List (String × Value)}
    (h : requireRoles family required = .ok ()) : RolesGiven required := by
  induction required with
  | nil => exact fun r hr => nomatch hr
  | cons first rest ih =>
    obtain ⟨role, field⟩ := first
    obtain ⟨b, hb, hrest⟩ := Result.bind_eq_ok.1 h
    cases b with
    | false => cases hrest
    | true => exact List.forall_mem_cons.2 ⟨Value.isGiven_eq hb, ih hrest⟩

/-- Only bound channels show something. -/
theorem ensures_channels (fields : List (String × Value)) :
    (channels fields).Ensures fun encode => ∀ channel ∈ encode, channel.2.IsSet := by
  induction fields with
  | nil => exact .pure fun channel hchannel => nomatch hchannel
  | cons first rest ih =>
    obtain ⟨name, field⟩ := first
    refine .bind fun bound hbound => .bind fun others hothers => .pure ?_
    have hrest := ih others hothers
    cases bound with
    | false => exact hrest
    | true => exact List.forall_mem_cons.2 ⟨Value.isNull_of_truth hbound, hrest⟩

/-- Labels show a field that is there. -/
theorem ensures_labelsOf (dataLabel showAll digits : Value) (unit : Option ValueUnit)
    {field : Value} (hfield : field.isNull = false) :
    (labelsOf dataLabel showAll digits unit field).Ensures fun labels => ∀ l ∈ labels, l.IsSet := by
  unfold labelsOf
  refine .bind fun labelled _ => .ite (fun _ => ?_) fun _ => .pure fun l hl => nomatch hl
  refine .bind fun all _ => .pure fun l hl => ?_
  obtain rfl := List.mem_singleton.1 hl
  refine ⟨hfield, rfl, fun e he => ?_⟩
  dsimp only at he
  split at he
  · cases he
  · obtain rfl := Option.some.inj he
    rfl

/-- A title is a text, or is turned off. -/
theorem ensures_titleOf (setting : Value) :
    (titleOf setting).Ensures fun v => v.isNull = false := by
  unfold titleOf
  refine .bind fun titled _ => .ite (fun _ => .pure ?_) fun _ => .pure rfl
  split <;> rfl

/-- A switch is on or off. -/
theorem ensures_switchOf (default : Bool) (setting : Value) :
    (switchOf default setting).Ensures fun v => v.isNull = false := by
  unfold switchOf
  exact .ite (fun _ => .pure rfl) fun _ => .bind fun b _ => .pure rfl

/-- Axes have titles and grids. -/
theorem ensures_axesOf (xTitle xGridlines : Value) (xLimit : Option Int) (yTitle gridlines : Value)
    (yLimit : Option Int) : (axesOf xTitle xGridlines xLimit yTitle gridlines yLimit).Ensures
      fun axes => ∀ axis ∈ axes, axis.2.IsSet := by
  unfold axesOf
  refine .bind fun xt hxt => .bind fun xg hxg => .bind fun yt hyt => .bind fun yg hyg =>
    .pure fun axis haxis => ?_
  rcases List.mem_pair.1 haxis with rfl | rfl
  · exact ⟨ensures_titleOf xTitle xt hxt, ensures_switchOf false xGridlines xg hxg⟩
  · exact ⟨ensures_titleOf yTitle yt hyt, ensures_switchOf true gridlines yg hyg⟩

/-- A legend that is shown stands somewhere. -/
theorem ensures_legendOf (setting : Value) : (legendOf setting).Ensures Legend.IsSet := by
  unfold legendOf
  split
  · exact .pure fun spec hspec => nomatch hspec
  · refine .bind fun found hfound => ?_
    cases found with
    | none => exact fun _ h => nomatch h
    | some position =>
      refine .bind fun interactive _ => .pure fun spec hspec => ?_
      obtain rfl := Legend.shown.inj hspec
      exact ⟨Value.isNull_of_choose? hfound, rfl⟩
  · refine fun legend hlegend spec hspec => ?_
    obtain rfl := Except.ok.inj hlegend
    obtain rfl := Legend.shown.inj hspec
    exact ⟨rfl, rfl⟩

/-- A palette is a scale with a range. -/
theorem isFilled_withPalette {colors : Option (List Value)} {scales : Entries (Entries Value)}
    (h : ∀ scale ∈ scales, Entries.isFilled scale.2 = true) :
    ∀ scale ∈ withPalette colors scales, Entries.isFilled scale.2 = true := by
  unfold withPalette
  split
  · refine List.forall_mem_append.2 ⟨h, fun scale hscale => ?_⟩
    obtain rfl := List.mem_singleton.1 hscale
    rfl
  · exact h

/-- A scale of values has a domain, or makes its own. -/
theorem isFilled_valueScale (range : Option AxisRange) :
    Entries.isFilled (valueScale range) = true := by
  unfold valueScale
  split
  · split <;> rfl
  · rfl

/-! ## Options that are taken over -/

/-- What the entry of a column takes over is not absent: its chart, and its colors if it has any. -/
structure ColumnStyle.Filled (s : ColumnStyle) : Prop where
  miniChart : s.miniChart.isNull = false
  color : ∀ entries, s.color.isNull = false → s.color.toEntries = .ok entries →
    Entries.isFilled entries = true

/-- What the marks of a single value take over is not absent: the size and the colors, as far as
they are shown. -/
structure SingleValueConfig.Filled (c : SingleValueConfig) : Prop where
  fontSize : c.fontSize.isNull = false
  color : c.color.isNull = false
  change : c.delta.isGiven = true →
    c.increaseColor.isNull = false ∧ c.decreaseColor.isNull = false
  sparkline : c.sparkline.isGiven = true → c.sparklineColor.isNull = false

/-- What the entries of the shown columns take over is not absent. -/
def TableConfig.Filled (c : TableConfig) : Prop :=
  ∀ column ∈ c.styles.getD [], ∀ s, column.2 = some s → s.shown.isGiven = true → s.Filled

/-- The options that a compilation takes over as they are given are not absent. -/
def Config.Filled : Config → Prop
  | .singleValue c => c.Filled
  | .table c => c.Filled
  | _ => True

/-! ## Families -/

/-- Nothing is absent in the specification of a line or an area. -/
theorem TimeSeriesConfig.isSet_compile (c : TimeSeriesConfig) (theme : Theme) :
    (c.compile theme).Ensures fun spec => spec.FrameIsSet ∧ ∀ m ∈ spec.marks, m.IsSet := by
  unfold TimeSeriesConfig.compile
  dsimp only
  simp only [← Result.ite_bind]
  refine .bind fun _ hroles => .bind fun encode hencode => .bind fun labels hlabels =>
    .bind fun points _ => .bind fun colored _ => .bind fun formatted hformatted =>
      .bind fun axes haxes => .bind fun legend hlegend => .bind fun temporal _ => .pure ⟨?_, ?_⟩
  · refine {
      scales := isFilled_withPalette fun scale hscale => ?_
      transforms := fun t ht => ?_
      axes := ensures_axesOf _ _ _ _ _ _ axes haxes
      legend := ensures_legendOf c.legend legend hlegend }
    · rcases List.mem_pair.1 hscale with rfl | rfl
      · refine Entries.isFilled_cons.2 ⟨rfl, Entries.isFilled_ite fun hmask => ?_⟩
        exact Entries.isFilled_cons.2 ⟨Value.isNull_of_truth (hmask ▸ hformatted), rfl⟩
      · exact isFilled_valueScale c.yRange
    · obtain ⟨-, ht⟩ := List.mem_ite_nil_right.1 ht
      obtain rfl := List.mem_singleton.1 ht
      rfl
  · have hy : c.yAxis.isNull = false :=
      Value.isNull_of_isGiven (rolesGiven_of_requireRoles hroles ("y_axis", c.yAxis) (by simp))
    intro m hm
    simp only [List.mem_cons, List.mem_ite_nil_right, List.not_mem_nil, or_false] at hm
    rcases hm with rfl | ⟨-, rfl⟩
    · refine ⟨rfl, ensures_channels _ encode hencode,
        ensures_labelsOf _ _ _ _ hy labels hlabels, ?_, ?_⟩
      · cases c.isArea <;> rcases c.lineStyle with - | - | - <;> rfl
      · cases c.isArea <;> rcases c.lineStyle with - | - | - <;> exact fun d hd => nomatch hd
    · exact { type := rfl, encode := ensures_channels _ encode hencode }

/-- Nothing is absent in the specification of bars or columns. -/
theorem BarConfig.isSet_compile (c : BarConfig) (theme : Theme) :
    (c.compile theme).Ensures fun spec => spec.FrameIsSet ∧ ∀ m ∈ spec.marks, m.IsSet := by
  unfold BarConfig.compile
  dsimp only
  refine .bind fun _ hroles => .bind fun encode hencode => .bind fun labels hlabels =>
    .bind fun colored _ => .bind fun axes haxes => .bind fun legend hlegend =>
      .bind fun temporal _ => .pure ⟨?_, ?_⟩
  · refine {
      scales := isFilled_withPalette fun scale hscale => ?_
      transforms := fun t ht => ?_
      coordinate := fun entries hentries => ?_
      axes := ensures_axesOf _ _ _ _ _ _ axes haxes
      legend := ensures_legendOf c.legend legend hlegend }
    · rcases List.mem_pair.1 hscale with rfl | rfl
      · rfl
      · exact isFilled_valueScale c.yRange
    · obtain ⟨-, ht⟩ := List.mem_ite_nil_right.1 ht
      obtain rfl := List.mem_singleton.1 ht
      rfl
    · obtain ⟨-, hentries⟩ := Option.ite_none_right_eq_some.1 hentries
      obtain rfl := Option.some.inj hentries
      refine ⟨rfl, fun d hd => ?_⟩
      obtain rfl := List.mem_singleton.1 hd
      rfl
  · have hy : c.yAxis.isNull = false :=
      Value.isNull_of_isGiven (rolesGiven_of_requireRoles hroles ("y_axis", c.yAxis) (by simp))
    intro m hm
    obtain rfl := List.mem_singleton.1 hm
    exact {
      type := rfl
      encode := ensures_channels _ encode hencode
      labels := ensures_labelsOf _ _ _ _ hy labels hlabels }

/-- An entry that is read of a value, unless something holds. -/
theorem Result.eq_nil_or_singleton {α β : Type} {p : Prop} [Decidable p] {r : Result α}
    {g : α → β} {entries : List β}
    (h : (if p then pure [] else r >>= fun a => pure [g a]) = .ok entries) :
    entries = [] ∨ ∃ a, entries = [g a] := by
  split at h
  · exact .inl (Except.ok.inj h).symm
  · obtain ⟨a, -, ha⟩ := Result.bind_eq_ok.1 h
    exact .inr ⟨a, (Except.ok.inj ha).symm⟩

/-- Nothing is absent in the specification of a map. -/
theorem GeoConfig.isSet_compile (c : GeoConfig) (theme : Theme) :
    (c.compile theme).Ensures fun spec => spec.FrameIsSet ∧ ∀ m ∈ spec.marks, m.IsSet := by
  unfold GeoConfig.compile
  dsimp only
  simp only [Result.ifThen_bind, Result.ifNot_bind]
  refine .bind fun _ hroles => .bind fun opacity hopacity => .bind fun painted hpainted =>
    .bind fun filled hfilled => .bind fun sized _ => .bind fun zoom hzoom =>
      .bind fun tiled htiled => .bind fun encode hencode => .bind fun colored _ =>
        .bind fun temporal _ => .pure ⟨?_, ?_⟩
  · have hzoom := Result.eq_nil_or_singleton hzoom
    refine {
      scales := isFilled_withPalette fun scale hscale => ?_
      coordinate := fun entries hentries => ?_
      legend := fun spec hspec => ?_ }
    · obtain ⟨-, hscale⟩ := List.mem_ite_nil_right.1 hscale
      obtain rfl := List.mem_singleton.1 hscale
      unfold sizeScale
      split <;> rfl
    · obtain rfl := Option.some.inj hentries
      constructor
      · refine Entries.isFilled_append.2 ⟨Entries.isFilled_append.2 ⟨?_, ?_⟩,
          Entries.isFilled_ite ?_⟩
        · cases c.center <;> rfl
        · rcases hzoom with rfl | ⟨n, rfl⟩ <;> rfl
        · intro htiles
          exact Entries.isFilled_cons.2 ⟨Value.isNull_of_truth (htiles ▸ htiled), rfl⟩
      · rw [Entries.dictionariesAt_eq_nil]
        · exact fun d hd => nomatch hd
        · rw [Entries.field?_append, Entries.field?_append]
          rcases hzoom with rfl | ⟨n, rfl⟩ <;> cases c.center <;> cases tiled <;> rfl
    · dsimp only at hspec
      split at hspec
      · obtain rfl := Legend.shown.inj hspec
        exact ⟨rfl, rfl⟩
      · cases hspec
  · have hopacity := Result.eq_nil_or_singleton hopacity
    -- points are filled only with a color that is true, which is not absent
    have hpaint : filled = true → c.pointColor.isNull = false := by
      rintro rfl
      cases painted with
      | false => cases hfilled
      | true => exact Value.isNull_of_truth hpainted
    intro m hm
    obtain rfl := List.mem_singleton.1 hm
    refine ⟨rfl, ensures_channels _ encode hencode, (fun l hl => nomatch hl), ?_, ?_⟩
    · refine Entries.isFilled_append.2 ⟨?_, Entries.isFilled_ite ?_⟩
      · rcases hopacity with rfl | ⟨x, rfl⟩ <;> rfl
      · exact fun hfill => Entries.isFilled_cons.2 ⟨hpaint hfill, rfl⟩
    · rw [Mark.dictionaries_eq_nil]
      · exact fun d hd => nomatch hd
      all_goals rcases hopacity with rfl | ⟨x, rfl⟩ <;> cases filled <;> rfl

/-- The channels of a mark of a price chart show fields that are there, and a color. -/
theorem isSet_priceChannels {color : Computed} {fields : List (String × Value)}
    (h : ∀ r ∈ fields, r.2.isNull = false) :
    ∀ channel ∈ priceChannels color fields, channel.2.IsSet := by
  refine List.forall_mem_append.2 ⟨List.forall_mem_map.2 h, fun channel hchannel => ?_⟩
  obtain rfl := List.mem_singleton.1 hchannel
  rfl

/-- Nothing is absent in the specification of a price chart. -/
theorem PriceConfig.isSet_compile (c : PriceConfig) (theme : Theme) :
    (c.compile theme).Ensures fun spec => spec.FrameIsSet ∧ ∀ m ∈ spec.marks, m.IsSet := by
  unfold PriceConfig.compile
  dsimp only
  refine .bind fun _ hroles => .bind fun temporal _ => .pure ⟨?_, ?_⟩
  · refine { scales := fun scale hscale => ?_, axes := fun axis haxis => ?_ }
    · rcases List.mem_pair.1 hscale with rfl | rfl <;> rfl
    · rcases List.mem_pair.1 haxis with rfl | rfl <;> exact ⟨rfl, rfl⟩
  · have hgiven : ∀ r ∈ [("time", c.time), ("open", c.openField), ("high", c.highField),
        ("low", c.lowField), ("close", c.closeField)], r.2.isNull = false := fun r hr =>
      Value.isNull_of_isGiven (rolesGiven_of_requireRoles hroles r hr)
    simp only [List.forall_mem_cons] at hgiven
    obtain ⟨htime, hopen, hhigh, hlow, hclose, -⟩ := hgiven
    refine List.forall_mem_cons.2 ⟨?_, ?_⟩
    · exact { type := rfl, encode := isSet_priceChannels (by simp [htime, hlow, hhigh]) }
    · split
      · refine List.forall_mem_singleton.2 ?_
        exact { type := rfl, encode := isSet_priceChannels (by simp [htime, hopen, hclose]) }
      · refine List.forall_mem_cons.2 ⟨?_, List.forall_mem_singleton.2 ?_⟩
        · exact { type := rfl, encode := isSet_priceChannels (by simp [htime, hopen]) }
        · exact { type := rfl, encode := isSet_priceChannels (by simp [htime, hclose]) }

/-- Nothing is absent in the specification of a single value if nothing is in what it takes over. -/
theorem SingleValueConfig.isSet_compile (c : SingleValueConfig) (theme : Theme) :
    (c.compile theme).Ensures fun spec =>
      spec.FrameIsSet ∧ ((∀ m ∈ spec.marks, m.IsSet) ↔ c.Filled) := by
  unfold SingleValueConfig.compile
  dsimp only
  refine .bind fun _ hroles => .bind fun delta hdelta => .bind fun sparkline hsparkline =>
    .bind fun temporal _ => .pure ⟨?_, ?_⟩
  · refine { scales := fun scale hscale => ?_ }
    obtain rfl := List.mem_singleton.1 hscale
    rfl
  · have hy : c.yAxis.isNull = false :=
      Value.isNull_of_isGiven (rolesGiven_of_requireRoles hroles ("y_axis", c.yAxis) (by simp))
    have hlabels : ∀ f, ∀ l ∈ [LabelSpec.mk c.yAxis (.bool false) (.text "last")
        (some (.computed f))], l.IsSet := by
      intro f l hl
      obtain rfl := List.mem_singleton.1 hl
      exact ⟨hy, rfl, fun e he => Option.some.inj he ▸ rfl⟩
    obtain rfl := (Value.isGiven_eq hdelta).symm
    obtain rfl := (Value.isGiven_eq hsparkline).symm
    rw [List.forall_mem_cons, Mark.isSet_iff_style rfl (Encoding.isSet_of_mem_singleton hy)
      (hlabels _)]
    constructor
    · rintro ⟨⟨hstyle, hchange⟩, hhistory⟩
      obtain ⟨hsize, hstyle⟩ := Entries.isFilled_cons.1 hstyle
      obtain ⟨hfill, -⟩ := Entries.isFilled_cons.1 hstyle
      refine ⟨hsize, hfill, fun hgiven => ?_, fun hgiven => ?_⟩
      · rw [hgiven] at hchange
        simpa using hchange _ List.mem_cons_self
      · rw [if_pos hgiven] at hhistory
        simpa using (hhistory _ List.mem_cons_self).style
    · intro h
      refine ⟨⟨?_, fun d hd => ?_⟩, fun m hm => ?_⟩
      · exact Entries.isFilled_cons.2 ⟨h.fontSize,
          Entries.isFilled_cons.2 ⟨h.color, Entries.isFilled_ite fun _ => rfl⟩⟩
      · cases hgiven : c.delta.isGiven with
        | false =>
          rw [hgiven] at hd
          cases hd
        | true =>
          rw [hgiven] at hd
          obtain rfl := List.mem_singleton.1 hd
          simpa using h.change hgiven
      · obtain ⟨hgiven, hm⟩ := List.mem_ite_nil_right.1 hm
        obtain rfl := List.mem_singleton.1 hm
        exact {
          type := rfl
          encode := Encoding.isSet_of_mem_singleton hy
          style := Entries.isFilled_cons.2 ⟨h.sparkline hgiven, rfl⟩ }

/-! ## Tables -/

/-- The entry of a column is filled, and so are its colors. -/
def Entries.ColumnFilled (column : Entries Value) : Prop :=
  Entries.isFilled column = true ∧
    ∀ d ∈ Entries.dictionariesAt "color" column, Entries.isFilled d = true

/-- The entry of a shown column is filled just if what it takes over is not absent. -/
theorem columnEntry_filled (name : String) (s : ColumnStyle) :
    (columnEntry name (some s)).Ensures fun entry =>
      ((∀ column ∈ entry.toList.filterMap Value.entries?, Entries.ColumnFilled column) ↔
        (s.shown.isGiven = true → s.Filled)) := by
  unfold columnEntry
  dsimp only
  simp only [Result.ifNot_bind]
  refine .bind fun shown hshown => ?_
  rw [Value.isGiven_eq hshown]
  refine .ite (fun hgiven => ?_) fun hhidden => .pure ?_
  · refine .bind fun titled htitled => .bind fun plain hplain => .bind fun color hcolor => .pure ?_
    have htitle : Value.isNull (if titled = true then s.name else .text name) = false := by
      split
      · exact Value.isNull_of_truth (‹titled = true› ▸ htitled)
      · rfl
    have hwidth : Entries.isFilled
        (if s.width.isNull = true then [] else [(.text "width", s.width)]) = true := by
      split <;> simp_all
    have hchart : Entries.isFilled
        (if plain = true then [] else [(.text "miniChart", s.miniChart)]) = true ↔
          s.miniChart.isNull = false := by
      split
      · exact iff_of_true rfl (Value.isNull_of_isWord (‹plain = true› ▸ hplain))
      · simp
    have hcolor : Entries.isFilled color = true ∧
        ((∀ d ∈ Entries.dictionariesAt "color" color, Entries.isFilled d = true) ↔
          ∀ entries, s.color.isNull = false → s.color.toEntries = .ok entries →
            Entries.isFilled entries = true) := by
      split at hcolor
      · obtain rfl := Except.ok.inj hcolor
        simp_all [Entries.dictionariesAt, Entries.field?]
      · obtain ⟨entries, hentries, hcolor⟩ := Result.bind_eq_ok.1 hcolor
        obtain rfl := Except.ok.inj hcolor
        simp_all [Entries.dictionariesAt, Entries.field?, Value.dictionaries, Value.isNull]
    -- the colors stand last, and under a name of their own
    have hlookup : ∀ entries : Entries Value, Entries.field? "color" entries = none →
        Entries.dictionariesAt "color" (entries ++ color) =
          Entries.dictionariesAt "color" color := by
      intro entries hnone
      rw [Entries.dictionariesAt, Entries.field?_append, hnone]
      rfl
    show (∀ column ∈ [_], Entries.ColumnFilled column) ↔ _
    rw [List.forall_mem_singleton, Entries.ColumnFilled, hlookup, hcolor.2]
    · rw [Entries.isFilled_append, Entries.isFilled_append, Entries.isFilled_append, hchart]
      constructor
      · rintro ⟨⟨⟨-, hminiChart⟩, -⟩, hcolors⟩ -
        exact ⟨hminiChart, hcolors⟩
      · intro h
        obtain ⟨hminiChart, hcolors⟩ := h hgiven
        refine ⟨⟨⟨⟨?_, hwidth⟩, hminiChart⟩, hcolor.1⟩, hcolors⟩
        exact Entries.isFilled_cons.2 ⟨rfl, Entries.isFilled_cons.2 ⟨htitle, rfl⟩⟩
    · rw [Entries.field?_append, Entries.field?_append]
      cases s.width.isNull <;> cases plain <;> rfl
  · simp [hhidden]

/-- The entries of all columns are filled just if what the shown ones take over is not absent. -/
theorem columnEntries_filled (styles : List (String × Option ColumnStyle)) :
    (columnEntries styles).Ensures fun columns =>
      ((∀ column ∈ columns.filterMap Value.entries?, Entries.ColumnFilled column) ↔
        ∀ column ∈ styles, ∀ s, column.2 = some s → s.shown.isGiven = true → s.Filled) := by
  induction styles with
  | nil => exact .pure (by simp)
  | cons first rest ih =>
    obtain ⟨name, style⟩ := first
    unfold columnEntries
    refine .bind fun entry hentry => .bind fun others hothers => .pure ?_
    cases style with
    | none => cases hentry
    | some s =>
      rw [List.filterMap_append, List.forall_mem_append, List.forall_mem_cons]
      refine (and_congr (columnEntry_filled name s entry hentry) (ih others hothers)).trans ?_
      simp

/-- The mark of a table is set if the entries of its columns are filled. -/
theorem isSet_cell {wrap : Bool} {columns : List Value} :
    ({ type := .text "cell",
       style := [(.text "wrap", .bool wrap), (.text "columns", .list columns)] } : Mark).IsSet ↔
      ∀ column ∈ columns.filterMap Value.entries?, Entries.ColumnFilled column := by
  rw [Mark.isSet_iff_style rfl (by simp) (by simp)]
  -- a table shows no change of a value, so its dictionaries are those of its columns
  show _ ∧ (∀ d ∈ columns.filterMap Value.entries? ++
    (columns.filterMap Value.entries?).flatMap (Entries.dictionariesAt "color"), _) ↔ _
  rw [List.forall_mem_append, List.forall_mem_flatMap, and_iff_right (by rfl)]
  exact forall₂_and.symm

/-- Nothing is absent in the specification of a table if nothing is in what it takes over. -/
theorem TableConfig.isSet_compile (c : TableConfig) (theme : Theme) :
    (c.compile theme).Ensures fun spec =>
      spec.FrameIsSet ∧ ((∀ m ∈ spec.marks, m.IsSet) ↔ c.Filled) := by
  unfold TableConfig.compile
  dsimp only
  refine .bind fun wrap _ => ?_
  split
  next first rest hstyles =>
    refine .bind fun entries hentries => .bind fun columns hcolumns => .bind fun temporal _ =>
      .pure ⟨{}, ?_⟩
    obtain rfl := Except.ok.inj hcolumns
    refine List.forall_mem_singleton.trans (isSet_cell.trans ?_)
    rw [Filled, hstyles]
    exact columnEntries_filled (first :: rest) entries hentries
  next hstyles =>
    refine .bind fun columns hcolumns => .bind fun temporal _ => .pure ⟨{}, ?_⟩
    obtain rfl := Except.ok.inj hcolumns
    refine List.forall_mem_singleton.trans (iff_of_true ?_ ?_)
    · exact { type := rfl, encode := by simp }
    · intro column hcolumn
      -- no styles are set, or there are none of them
      rcases hcases : c.styles with - | - | ⟨first, rest⟩
      · rw [hcases] at hcolumn
        cases hcolumn
      · rw [hcases] at hcolumn
        cases hcolumn
      · exact absurd hcases (hstyles first rest)

/-! ## Configurations as they are read -/

/-- A binding that is read from a mapping has been made. -/
theorem Binding.constructible_ofMapping (v : Value) :
    (Binding.ofMapping v).Ensures Binding.Constructible := by
  unfold Binding.ofMapping
  dsimp only
  refine .bind fun mode _ => .bind fun given _ => ?_
  split
  · exact .bind fun orderField _ => .bind fun field _ => .bind fun range _ =>
      fun b hb => ⟨mode, _, _, orderField, hb⟩
  · exact .bind fun orderField _ => .bind fun field _ => .bind fun range _ =>
      fun b hb => ⟨mode, _, _, orderField, hb⟩

/-- The binding of a configuration has been made. -/
def BaseConfig.BindingMade (base : BaseConfig) : Prop :=
  ∀ b, base.temporal = some b → b.Constructible

/-- The binding among shared options that are read has been made. -/
theorem BaseConfig.ReadFrom.bindingMade {c : BaseConfig} {args : Arguments} (h : c.ReadFrom args) :
    c.BindingMade := by
  intro b hb
  obtain ⟨-, htemporal, -, -⟩ := h
  rw [hb] at htemporal
  generalize args.get "temporal" = given at htemporal
  cases htemporal with
  | given _ hread => exact Binding.constructible_ofMapping given b hread

/-- The binding of a configuration that is read from a mapping has been made. -/
theorem Config.bindingMade_ofMapping (given : Value) :
    (Config.ofMapping given).Ensures fun c => c.base.BindingMade := by
  intro c hc
  obtain ⟨_, _, _, -, -, hread⟩ := Config.exists_readFrom_of_ofMapping hc
  exact hread.bindingMade

/-! ## Every family -/

/-- A binding that has been made, and bound to a field, has no absent part. -/
theorem Config.Keeps.isSet_temporal {c : Config} {spec : Spec} (h : c.Keeps spec)
    (hbinding : c.base.BindingMade) : ∀ b, spec.temporal = some b → b.IsSet := by
  intro b hb
  cases hasked : c.base.temporal with
  | none =>
    have htemporal := h.temporal
    rw [hasked] at htemporal
    rw [← Except.ok.inj htemporal] at hb
    cases hb
  | some asked =>
    obtain ⟨b', hb', hbound, heq⟩ := h.exists_bound hasked
    obtain rfl := Option.some.inj (hb'.symm.trans hb)
    refine ⟨hbound, fun v hv => ?_⟩
    rw [heq] at hv
    exact ((hbinding asked hasked).wellFormed.ordered v hv).2

/-- **A compiled specification holds no absent value just if nothing that it takes over from its
configuration is absent.** -/
theorem Config.isFilled_compile_iff {c : Config} {theme : Theme} {spec : Spec}
    (hbinding : c.base.BindingMade) (h : c.compile theme = .ok spec) :
    spec.isFilled = true ↔ c.Filled := by
  have htemporal := (Config.keeps_of_compile h).isSet_temporal hbinding
  have hset : spec.FrameIsSet ∧ ((∀ m ∈ spec.marks, m.IsSet) ↔ c.Filled) := by
    have hothers : spec.FrameIsSet ∧ (∀ m ∈ spec.marks, m.IsSet) →
        spec.FrameIsSet ∧ ((∀ m ∈ spec.marks, m.IsSet) ↔ True) := by
      rintro ⟨hframe, hmarks⟩
      exact ⟨hframe, iff_of_true hmarks trivial⟩
    cases c with
    | timeSeries c => exact hothers (c.isSet_compile theme spec h)
    | bars c => exact hothers (c.isSet_compile theme spec h)
    | singleValue c => exact c.isSet_compile theme spec h
    | table c => exact c.isSet_compile theme spec h
    | geo c => exact hothers (c.isSet_compile theme spec h)
    | price c => exact hothers (c.isSet_compile theme spec h)
  rw [Spec.isFilled_iff, ← hset.2]
  exact ⟨fun hfilled => hfilled.2.1, fun hmarks => ⟨hset.1, hmarks, htemporal⟩⟩

/-- A table with small charts in its column says so, and holds no absent value. -/
theorem Config.isFilled_compile_sparkline :
    ∃ c spec, Config.ofMapping (oneColumnTable
        (.dict [(.text "miniChart", .text "sparkline"), (.text "width", .null)])) = .ok c ∧
      c.compile .dark = .ok spec ∧ spec.isFilled = true := by
  have hread := Config.bindingMade_ofMapping (oneColumnTable
    (.dict [(.text "miniChart", .text "sparkline"), (.text "width", .null)])) _ rfl
  refine ⟨_, _, rfl, rfl, (Config.isFilled_compile_iff hread rfl).2 ?_⟩
  intro column hcolumn s hs hshown
  obtain rfl := List.mem_singleton.1 hcolumn
  obtain rfl := Option.some.inj hs
  exact ⟨rfl, fun entries hcolor => nomatch hcolor⟩

/-- **A column without a word for its small chart shows an absent value**, though its width is left
out in the same case. -/
theorem compileChart_nullMiniChart :
    ∃ spec, compileChart (oneColumnTable
        (.dict [(.text "miniChart", .null), (.text "width", .null)])) (.text "dark") = .ok spec ∧
      spec.isFilled = false := by
  exact ⟨_, rfl, by decide⟩

end LiveChart
