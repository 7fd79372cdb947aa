import LiveChart.Chart.Suggest
import LiveChart.Proofs.Chart.Mistakes
import LiveChart.Proofs.Stream.Readback
/-!
# Suggested configurations

A schema suggests a configuration for a family by rules that pick columns by their place.  Still,
whether there is a suggestion does not depend on the places: it takes a column of some type or of
some name, so that more columns in whatever order support what fewer do.  And what is suggested can
be compiled, and shows columns of the schema only, of the types that its roles need.

* `supports` : the columns that a family needs are there;
* `suggestFor_isSome_iff` : a configuration is suggested just if they are;
* `Config.Suits` : what holds of a suggested configuration;
* `suggest_suits` : a suggestion suits its schema, and does not go away with more columns.
-/

namespace LiveChart

variable {columns more : List Column}

/-! ## Columns that are there -/

/-- Some column has a type that passes a test. -/
def HasType (test : ColumnType → Bool) (columns : List Column) : Prop :=
  ∃ column ∈ columns, test column.type = true

/-- Some column has a name, in whatever case. -/
def HasName (name : String) (columns : List Column) : Prop :=
  ∃ column ∈ columns, Text.lowercase column.name = name

/-- Columns of a type are still there among more columns. -/
theorem HasType.mono {test : ColumnType → Bool} (h : HasType test columns)
    (hmore : columns ⊆ more) : HasType test more := by
  obtain ⟨column, hcolumn, htype⟩ := h
  exact ⟨column, hmore hcolumn, htype⟩

/-- A column of a name is still there among more columns. -/
theorem HasName.mono {name : String} (h : HasName name columns) (hmore : columns ⊆ more) :
    HasName name more := by
  obtain ⟨column, hcolumn, hname⟩ := h
  exact ⟨column, hmore hcolumn, hname⟩

/-- The names of columns of a type are the names of the columns whose type passes the test. -/
theorem mem_namesOfType {test : ColumnType → Bool} {s : String} :
    s ∈ namesOfType test columns ↔
      ∃ column ∈ columns, test column.type = true ∧ column.name = s := by
  simp [namesOfType, and_assoc]

/-- There is a first name of a column of a type just if there is such a column. -/
theorem isSome_head?_namesOfType {test : ColumnType → Bool} :
    (namesOfType test columns).head?.isSome = true ↔ HasType test columns := by
  simp [namesOfType, HasType]

/-- A column is found by its name just if there is one. -/
theorem isSome_columnNamed? {name : String} :
    (columnNamed? columns name).isSome = true ↔ HasName name columns := by
  simp [columnNamed?, HasName]

/-- A column is found by one of some names just if there is one. -/
theorem isSome_columnNamedAny? {names : List String} :
    (columnNamedAny? columns names).isSome = true ↔ ∃ name ∈ names, HasName name columns := by
  simp [columnNamedAny?, List.findSome?_isSome_iff, isSome_columnNamed?]

/-! ## What a family needs -/

/-- The columns that a family needs are there. -/
def supports (columns : List Column) : Family → Prop
  | .line | .area => HasType ColumnType.isTemporal columns ∧ HasType ColumnType.isNumeric columns
  | .bar | .column =>
    (HasType (· == .string) columns ∨ HasType ColumnType.isTemporal columns) ∧
      HasType ColumnType.isNumeric columns
  | .singleValue => HasType ColumnType.isNumeric columns
  | .table => columns ≠ []
  | .geo => (∃ name ∈ longitudeNames, HasName name columns) ∧
    ∃ name ∈ latitudeNames, HasName name columns
  | .ohlc | .candlestick => HasType ColumnType.isTemporal columns ∧
    ∀ name ∈ ["open", "high", "low", "close"], HasName name columns

/-- More columns support what fewer do. -/
theorem supports_mono {family : Family} (h : supports columns family) (hmore : columns ⊆ more) :
    supports more family := by
  have htime : ∀ {test}, HasType test columns → HasType test more := fun h => h.mono hmore
  have hname : ∀ {name}, HasName name columns → HasName name more := fun h => h.mono hmore
  cases family with
  | line | area => exact h.imp htime htime
  | bar | column => exact h.imp (Or.imp htime htime) htime
  | singleValue => exact htime h
  | table =>
    obtain ⟨column, hcolumn⟩ := List.exists_mem_of_ne_nil columns h
    exact List.ne_nil_of_mem (hmore hcolumn)
  | geo =>
    exact h.imp (fun ⟨name, hmem, h⟩ => ⟨name, hmem, hname h⟩)
      fun ⟨name, hmem, h⟩ => ⟨name, hmem, hname h⟩
  | ohlc | candlestick => exact h.imp htime fun h name hmem => hname (h name hmem)

/-- A line is suggested just if there are times and numbers. -/
theorem isSome_suggestTimeSeries {isArea : Bool} :
    (suggestTimeSeries isArea columns).isSome = true ↔
      HasType ColumnType.isTemporal columns ∧ HasType ColumnType.isNumeric columns := by
  rw [← isSome_head?_namesOfType, ← isSome_head?_namesOfType, suggestTimeSeries]
  cases (namesOfType ColumnType.isTemporal columns).head? <;>
    cases (namesOfType ColumnType.isNumeric columns).head? <;> simp

/-- Bars are suggested just if there are texts or times, and numbers. -/
theorem isSome_suggestBars {isBar : Bool} :
    (suggestBars isBar columns).isSome = true ↔
      (HasType (· == .string) columns ∨ HasType ColumnType.isTemporal columns) ∧
        HasType ColumnType.isNumeric columns := by
  rw [← isSome_head?_namesOfType, ← isSome_head?_namesOfType, ← isSome_head?_namesOfType,
    suggestBars, List.head?_append]
  cases (namesOfType (· == .string) columns).head? <;>
    cases (namesOfType ColumnType.isTemporal columns).head? <;>
      cases (namesOfType ColumnType.isNumeric columns).head? <;> simp

/-- A single value is suggested just if there are numbers. -/
theorem isSome_suggestSingleValue :
    (suggestSingleValue columns).isSome = true ↔ HasType ColumnType.isNumeric columns := by
  rw [← isSome_head?_namesOfType, suggestSingleValue]
  cases (namesOfType ColumnType.isNumeric columns).head? <;> simp

/-- A map is suggested just if there are places. -/
theorem isSome_suggestGeo :
    (suggestGeo columns).isSome = true ↔ (∃ name ∈ longitudeNames, HasName name columns) ∧
      ∃ name ∈ latitudeNames, HasName name columns := by
  rw [← isSome_columnNamedAny?, ← isSome_columnNamedAny?, suggestGeo]
  cases columnNamedAny? columns longitudeNames <;>
    cases columnNamedAny? columns latitudeNames <;> simp

/-- Prices are suggested just if there are times and the four prices. -/
theorem isSome_suggestPrice {isCandlestick : Bool} :
    (suggestPrice isCandlestick columns).isSome = true ↔ HasType ColumnType.isTemporal columns ∧
      ∀ name ∈ ["open", "high", "low", "close"], HasName name columns := by
  simp only [List.forall_mem_cons, ← isSome_columnNamed?]
  rw [← isSome_head?_namesOfType, suggestPrice]
  cases (namesOfType ColumnType.isTemporal columns).head? <;>
    cases columnNamed? columns "open" <;> cases columnNamed? columns "high" <;>
      cases columnNamed? columns "low" <;> cases columnNamed? columns "close" <;> simp

/-- **A configuration is suggested just if the columns that the family needs are there**, wherever
they stand. -/
theorem suggestFor_isSome_iff {family : Family} :
    (suggestFor columns family).isSome = true ↔ supports columns family := by
  cases hempty : columns.isEmpty with
  | true =>
    obtain rfl := List.isEmpty_iff.1 hempty
    cases family <;> simp [suggestFor, supports, HasType, HasName]
  | false =>
    rw [suggestFor.eq_def, hempty, if_neg (by decide)]
    cases family with
    | line | area => rw [Option.isSome_map, isSome_suggestTimeSeries]; rfl
    | bar | column => rw [Option.isSome_map, isSome_suggestBars]; rfl
    | singleValue => rw [Option.isSome_map, isSome_suggestSingleValue]; rfl
    | table => simpa [supports] using hempty
    | geo => rw [Option.isSome_map, isSome_suggestGeo]; rfl
    | ohlc | candlestick => rw [Option.isSome_map, isSome_suggestPrice]; rfl

/-! ## What a suggestion picks -/

/-- A value is the name of a column whose type passes a test. -/
def NamesColumn (test : ColumnType → Bool) (columns : List Column) (v : Value) : Prop :=
  ∃ column ∈ columns, test column.type = true ∧ v = .text column.name

/-- Every type. -/
def anyType : ColumnType → Bool := fun _ => true

/-- The name of a column of some type is that of a column. -/
theorem NamesColumn.any {test : ColumnType → Bool} {v : Value} (h : NamesColumn test columns v) :
    NamesColumn anyType columns v := by
  obtain ⟨column, hcolumn, -, hname⟩ := h
  exact ⟨column, hcolumn, rfl, hname⟩

/-- What is among the names of columns of a type names a column of the type. -/
theorem namesColumn_of_mem {test : ColumnType → Bool} {s : String}
    (h : s ∈ namesOfType test columns) : NamesColumn test columns (.text s) := by
  obtain ⟨column, hcolumn, htype, rfl⟩ := mem_namesOfType.1 h
  exact ⟨column, hcolumn, htype, rfl⟩

/-- What is found by a name names a column. -/
theorem namesColumn_of_columnNamed? {name s : String} (h : columnNamed? columns name = some s) :
    NamesColumn anyType columns (.text s) := by
  obtain ⟨column, hcolumn, rfl⟩ := List.mem_map.1 (List.mem_of_mem_filter (List.mem_of_getLast? h))
  exact ⟨column, hcolumn, rfl, rfl⟩

/-- What is found by one of some names names a column. -/
theorem namesColumn_of_columnNamedAny? {names : List String} {s : String}
    (h : columnNamedAny? columns names = some s) : NamesColumn anyType columns (.text s) := by
  obtain ⟨name, -, hname⟩ := List.exists_of_findSome?_eq_some h
  exact namesColumn_of_columnNamed? hname

/-- A role that may be left out names a column of a type, if it is there. -/
theorem null_or_namesColumn {test : ColumnType → Bool} {role : Option String}
    (h : ∀ s, role = some s → s ∈ namesOfType test columns) :
    ofName? role = .null ∨ NamesColumn anyType columns (ofName? role) := by
  cases role with
  | none => exact .inl rfl
  | some s => exact .inr (namesColumn_of_mem (h s rfl)).any

namespace Config

/-- The field whose numbers are shown, in the families that show one. -/
def valueField? : Config → Option Value
  | .timeSeries c => some c.yAxis
  | .bars c => some c.yAxis
  | .singleValue c => some c.yAxis
  | _ => none

/-- The field of the times, in the families that are drawn over time. -/
def timeField? : Config → Option Value
  | .timeSeries c => some c.xAxis
  | .price c => some c.time
  | _ => none

/-- A configuration of a family has columns of a schema for its roles, a numeric one for its values
and a temporal one for its times. -/
structure Picks (c : Config) (family : Family) (columns : List Column) : Prop where
  family : c.family = family
  roles : ∀ role ∈ c.roles, role = .null ∨ NamesColumn anyType columns role
  values : ∀ v, c.valueField? = some v → NamesColumn ColumnType.isNumeric columns v
  times : ∀ v, c.timeField? = some v → NamesColumn ColumnType.isTemporal columns v

/-- A configuration has its required roles, a plain legend, and options of the declared types; its
binding, if it has one, is left to be bound to a role. -/
structure Plain (c : Config) : Prop where
  required : ∀ r ∈ c.required, r.2 ∈ c.roles ∧ r.2 ≠ .null
  switches : ∀ v ∈ c.switches, v.isOption = true
  parts : c.PartsTyped
  legend : c.legendSetting.isOption = true
  temporal : ∀ b, c.base.temporal = some b →
    b.field = none ∧ c.primaryField ∈ c.required.map Prod.snd

end Config

/-- An optional name is absent or a text. -/
theorem isOption_ofName? (role : Option String) : (ofName? role).isOption = true := by
  cases role <;> rfl

/-- A suggested line picks its columns. -/
theorem suggestTimeSeries_picks {isArea : Bool} {c : TimeSeriesConfig}
    (h : suggestTimeSeries isArea columns = some c) :
    (Config.timeSeries c).Picks (if isArea then .area else .line) columns ∧
      (Config.timeSeries c).Plain := by
  obtain ⟨time, htime, h⟩ := Option.bind_eq_some_iff.1 h
  obtain ⟨number, hnumber, h⟩ := Option.bind_eq_some_iff.1 h
  obtain rfl := Option.some.inj h
  have htime := namesColumn_of_mem (List.mem_of_head? htime)
  have hnumber := namesColumn_of_mem (List.mem_of_head? hnumber)
  have hseries := null_or_namesColumn fun s hs => List.mem_of_head?
    (show (namesOfType (· == .string) columns).head? = some s from hs)
  constructor
  · refine ⟨rfl, ?_, fun v hv => Option.some.inj hv ▸ hnumber,
      fun v hv => Option.some.inj hv ▸ htime⟩
    simp only [Config.roles, List.forall_mem_cons]
    exact ⟨.inr htime.any, .inr hnumber.any, hseries, by simp⟩
  · refine ⟨by simp [Config.required, Config.roles], ?_, trivial, rfl, fun b hb => ?_⟩
    · -- besides the series there are only switches that are off, and options that are unset
      have hunset : ∀ v ∈ [Value.bool false, .bool false, .null, .null, .null, .null, .null],
          v.isOption = true := by decide
      exact List.forall_mem_cons.2 ⟨isOption_ofName? _, hunset⟩
    · obtain rfl := Option.some.inj hb
      exact ⟨rfl, by simp [Config.primaryField, Config.required]⟩

/-- Suggested bars pick their columns, a text or a time for the categories. -/
theorem suggestBars_picks {isBar : Bool} {c : BarConfig}
    (h : suggestBars isBar columns = some c) :
    (Config.bars c).Picks (if isBar then .bar else .column) columns ∧ (Config.bars c).Plain := by
  obtain ⟨category, hcategory, h⟩ := Option.bind_eq_some_iff.1 h
  obtain ⟨number, hnumber, h⟩ := Option.bind_eq_some_iff.1 h
  obtain rfl := Option.some.inj h
  have hcategory : NamesColumn anyType columns (.text category) := by
    rcases List.mem_append.1 (List.mem_of_head? hcategory) with hstring | htime
    · exact (namesColumn_of_mem hstring).any
    · exact (namesColumn_of_mem htime).any
  have hnumber := namesColumn_of_mem (List.mem_of_head? hnumber)
  have hseries := null_or_namesColumn fun s hs => List.mem_of_getElem?
    (show (namesOfType (· == .string) columns)[1]? = some s from hs)
  constructor
  · refine ⟨rfl, ?_, fun v hv => Option.some.inj hv ▸ hnumber, by simp [Config.timeField?]⟩
    simp only [Config.roles, List.forall_mem_cons]
    exact ⟨.inr hcategory, .inr hnumber.any, hseries, by simp⟩
  · refine ⟨by simp [Config.required, Config.roles], ?_, trivial, rfl, by simp [Config.base]⟩
    have hunset : ∀ v ∈ [Value.bool false, .null, .null, .null, .null], v.isOption = true := by
      decide
    exact List.forall_mem_cons.2 ⟨isOption_ofName? _, hunset⟩

/-- A suggested single value picks its column. -/
theorem suggestSingleValue_picks {c : SingleValueConfig}
    (h : suggestSingleValue columns = some c) :
    (Config.singleValue c).Picks .singleValue columns ∧ (Config.singleValue c).Plain := by
  obtain ⟨number, hnumber, h⟩ := Option.bind_eq_some_iff.1 h
  obtain rfl := Option.some.inj h
  have hnumber := namesColumn_of_mem (List.mem_of_head? hnumber)
  constructor
  · refine ⟨rfl, ?_, fun v hv => Option.some.inj hv ▸ hnumber, by simp [Config.timeField?]⟩
    exact List.forall_mem_singleton.2 (.inr hnumber.any)
  · have hunset : ∀ v ∈ [Value.bool false, .bool false], v.isOption = true := by decide
    exact ⟨by simp [Config.required, Config.roles], hunset, trivial, rfl, by simp [Config.base]⟩

/-- A suggested table needs no columns. -/
theorem suggestTable_picks : (Config.table {}).Picks .table columns ∧ (Config.table {}).Plain := by
  constructor
  · exact ⟨rfl, by simp [Config.roles], by simp [Config.valueField?],
      by simp [Config.timeField?]⟩
  · exact ⟨by simp [Config.required], by decide, by simp [Config.PartsTyped], rfl,
      by simp [Config.base]⟩

/-- A suggested map picks the columns of the places. -/
theorem suggestGeo_picks {c : GeoConfig} (h : suggestGeo columns = some c) :
    (Config.geo c).Picks .geo columns ∧ (Config.geo c).Plain := by
  obtain ⟨longitude, hlongitude, h⟩ := Option.bind_eq_some_iff.1 h
  obtain ⟨latitude, hlatitude, h⟩ := Option.bind_eq_some_iff.1 h
  obtain rfl := Option.some.inj h
  have hlongitude := namesColumn_of_columnNamedAny? hlongitude
  have hlatitude := namesColumn_of_columnNamedAny? hlatitude
  have hseries := null_or_namesColumn fun s hs => List.mem_of_head?
    (show (namesOfType (· == .string) columns).head? = some s from hs)
  constructor
  · refine ⟨rfl, ?_, by simp [Config.valueField?], by simp [Config.timeField?]⟩
    simp only [Config.roles, List.forall_mem_cons]
    exact ⟨.inr hlongitude, .inr hlatitude, hseries, .inl rfl, by simp⟩
  · refine ⟨by simp [Config.required, Config.roles], ?_, ⟨rfl, .inl rfl⟩, rfl,
      by simp [Config.base]⟩
    have hunset : ∀ v ∈ [Value.null, .null, .null], v.isOption = true := by decide
    exact List.forall_mem_cons.2 ⟨isOption_ofName? _, hunset⟩

/-- A suggested price chart picks the columns of the prices. -/
theorem suggestPrice_picks {isCandlestick : Bool} {c : PriceConfig}
    (h : suggestPrice isCandlestick columns = some c) :
    (Config.price c).Picks (if isCandlestick then .candlestick else .ohlc) columns ∧
      (Config.price c).Plain := by
  obtain ⟨time, htime, h⟩ := Option.bind_eq_some_iff.1 h
  obtain ⟨openField, hopen, h⟩ := Option.bind_eq_some_iff.1 h
  obtain ⟨highField, hhigh, h⟩ := Option.bind_eq_some_iff.1 h
  obtain ⟨lowField, hlow, h⟩ := Option.bind_eq_some_iff.1 h
  obtain ⟨closeField, hclose, h⟩ := Option.bind_eq_some_iff.1 h
  obtain rfl := Option.some.inj h
  have htime := namesColumn_of_mem (List.mem_of_head? htime)
  constructor
  · refine ⟨rfl, ?_, by simp [Config.valueField?], fun v hv => Option.some.inj hv ▸ htime⟩
    simp only [Config.roles, List.forall_mem_cons]
    exact ⟨.inr htime.any, .inr (namesColumn_of_columnNamed? hopen),
      .inr (namesColumn_of_columnNamed? hhigh), .inr (namesColumn_of_columnNamed? hlow),
      .inr (namesColumn_of_columnNamed? hclose), by simp⟩
  · exact ⟨by simp [Config.required, Config.roles], by simp [Config.switches], trivial, rfl,
      by simp [Config.base]⟩

/-- **What is suggested for a family picks columns of the schema for it.** -/
theorem suggestFor_picks {family : Family} {c : Config}
    (h : suggestFor columns family = some c) : c.Picks family columns ∧ c.Plain := by
  unfold suggestFor at h
  split at h
  · cases h
  · cases family with
    | table =>
      obtain rfl := Option.some.inj h
      exact suggestTable_picks
    | line | area =>
      obtain ⟨suggested, hsuggested, rfl⟩ := Option.map_eq_some_iff.1 h
      exact suggestTimeSeries_picks hsuggested
    | bar | column =>
      obtain ⟨suggested, hsuggested, rfl⟩ := Option.map_eq_some_iff.1 h
      exact suggestBars_picks hsuggested
    | singleValue =>
      obtain ⟨suggested, hsuggested, rfl⟩ := Option.map_eq_some_iff.1 h
      exact suggestSingleValue_picks hsuggested
    | geo =>
      obtain ⟨suggested, hsuggested, rfl⟩ := Option.map_eq_some_iff.1 h
      exact suggestGeo_picks hsuggested
    | ohlc | candlestick =>
      obtain ⟨suggested, hsuggested, rfl⟩ := Option.map_eq_some_iff.1 h
      exact suggestPrice_picks hsuggested

/-! ## What is compiled of a suggestion -/

/-- No column has a blank name. -/
def Named (columns : List Column) : Prop := ∀ column ∈ columns, column.name ≠ ""

/-- A blank name is refused. -/
theorem Column.name_ne_empty (v : Value) :
    (Column.ofValue v).Ensures fun column => column.name ≠ "" := by
  have hchecked : ∀ name type nullable,
      (Column.checked name type nullable).Ensures fun column => column.name ≠ "" := by
    intro name type nullable
    unfold Column.checked
    split
    · refine .ite (fun _ => fun _ h => nomatch h) fun hblank => .bind fun type _ => .pure ?_
      simpa [String.isEmpty_iff] using hblank
    · exact fun _ h => nomatch h
  unfold Column.ofValue
  split
  · unfold Column.ofEntries
    dsimp only
    refine .ite (fun _ => fun _ h => nomatch h) fun _ => ?_
    split
    · exact fun _ h => nomatch h
    · exact .bind fun nullable _ => hchecked _ _ nullable
  · exact fun _ h => nomatch h

/-- Columns that are described have names. -/
theorem named_of_columnsOf {given : Value} (h : columnsOf given = .ok columns) : Named columns := by
  obtain ⟨items, -, hitems⟩ := Result.bind_eq_ok.1 h
  have hread := mapM_eq_ok_iff.1 hitems
  clear h hitems
  induction hread with
  | nil => exact fun column hcolumn => nomatch hcolumn
  | cons hfirst _ ih => exact List.forall_mem_cons.2 ⟨Column.name_ne_empty _ _ hfirst, ih⟩

/-- The name of a column is a name. -/
theorem NamesColumn.isName {test : ColumnType → Bool} {v : Value} (h : NamesColumn test columns v)
    (hnamed : Named columns) : v.isName = true := by
  obtain ⟨column, hcolumn, -, rfl⟩ := h
  simpa [Value.isName, Value.name?, String.isEmpty_iff] using hnamed column hcolumn

namespace Config

variable {c : Config} {family : Family}

/-- A plain configuration has columns for its required roles. -/
theorem Picks.required (h : c.Picks family columns) (hplain : c.Plain) :
    ∀ r ∈ c.required, NamesColumn anyType columns r.2 := by
  intro r hr
  obtain ⟨hrole, hnull⟩ := hplain.required r hr
  exact (h.roles r.2 hrole).resolve_left hnull

/-- The options of a plain configuration that picks its columns have the declared types. -/
theorem Picks.typed (h : c.Picks family columns) (hplain : c.Plain) : c.Typed := by
  refine ⟨fun role hrole => ?_, hplain.switches, hplain.parts⟩
  rcases h.roles role hrole with rfl | ⟨column, -, -, rfl⟩ <;> rfl

/-- A plain configuration that picks its columns, all of them named, has no mistake. -/
theorem Picks.mistake?_eq_none (h : c.Picks family columns) (hplain : c.Plain)
    (hnamed : Named columns) : c.mistake? = none := by
  have hroles : missingRole? c.family c.required = none := by
    rw [missingRole?, List.find?_eq_none.2]
    · rfl
    · intro r hr
      simp [(h.required hplain r hr).isName hnamed]
  have hlegend : legendMistake? c.legendSetting = none := by
    have hoption := hplain.legend
    unfold legendMistake?
    split
    next entries hentries =>
      rw [hentries] at hoption
      cases hoption
    next => rfl
  have hbinding : c.bindingMistake? = none := by
    unfold bindingMistake?
    split
    next t =>
      split
      next b hb => exact absurd (hplain.temporal b hb).2 (by simp [Config.required])
      next => rfl
    next => rfl
  rw [mistake?, hroles, hlegend, hbinding]
  rfl

/-- The legend of a plain configuration has no settings that could not be read. -/
theorem Plain.comparable (h : c.Plain) : c.Comparable := by
  intro _
  have hoption := h.legend
  unfold LegendReadable
  split
  next entries hentries =>
    rw [hentries] at hoption
    cases hoption
  next => trivial

/-- **A plain configuration that picks its columns can be compiled under either theme**, and its
binding is bound to a column. -/
theorem Picks.exists_compileUnder (h : c.Picks family columns) (hplain : c.Plain)
    (hnamed : Named columns) (theme : Theme) :
    ∃ spec, c.compileUnder (.text theme.word) = .ok spec ∧
      ∀ b, spec.temporal = some b → ∃ column ∈ columns, b.field = some (.name column.name) := by
  have htells := (answers_compile (h.typed hplain) theme).answers hplain.comparable
  rw [h.mistake?_eq_none hplain hnamed] at htells
  obtain ⟨spec, hspec⟩ := htells
  have htheme : themeOf (.text theme.word) = .ok theme := by
    cases theme <;> rfl
  refine ⟨spec, by rw [compileUnder, htheme]; exact hspec, fun b hb => ?_⟩
  have htemporal := (keeps_of_compile hspec).temporal
  -- a binding without a field is bound to a required role, and that is a column
  cases hasked : c.base.temporal with
  | none =>
    rw [hasked] at htemporal
    rw [← Except.ok.inj htemporal] at hb
    cases hb
  | some asked =>
    obtain ⟨hblank, hprimary⟩ := hplain.temporal asked hasked
    obtain ⟨r, hr, hrole⟩ := List.mem_map.1 hprimary
    obtain ⟨column, hcolumn, -, hfield⟩ := h.required hplain r hr
    rw [hasked, ← hrole, hfield] at htemporal
    rw [(eq_of_temporalOf rfl htemporal).1] at hb
    refine ⟨column, hcolumn, ?_⟩
    obtain rfl := Option.some.inj hb
    simp [hblank, Value.name?, String.isEmpty_iff, hnamed column hcolumn]

/-- A configuration suits a schema: it picks columns of it, and is compiled under either theme to a
specification whose binding, if it has one, is bound to a column. -/
structure Suits (c : Config) (family : Family) (columns : List Column) : Prop
    extends c.Picks family columns where
  compiled : ∀ theme : Theme, ∃ spec, c.compileUnder (.text theme.word) = .ok spec ∧
    ∀ b, spec.temporal = some b → ∃ column ∈ columns, b.field = some (.name column.name)

end Config

/-! ## Suggestions -/

/-- **A suggestion suits its schema**, and there is still one with more columns, in whatever
order. -/
theorem suggest_suits {given requested : Value} {c : Config}
    (h : suggest given requested = .ok (some c)) :
    ∃ family columns, supportedFamily requested = .ok family ∧ columnsOf given = .ok columns ∧
      c.Suits family columns ∧
      ∀ given' more, columnsOf given' = .ok more → columns ⊆ more →
        ∃ c', suggest given' requested = .ok (some c') := by
  obtain ⟨family, hfamily, h⟩ := Result.bind_eq_ok.1 h
  obtain ⟨columns, hcolumns, h⟩ := Result.bind_eq_ok.1 h
  have hsuggested : suggestFor columns family = some c := Except.ok.inj h
  obtain ⟨hpicks, hplain⟩ := suggestFor_picks hsuggested
  have hnamed := named_of_columnsOf hcolumns
  refine ⟨family, columns, hfamily, hcolumns, ⟨hpicks, ?_⟩, ?_⟩
  · exact fun theme => hpicks.exists_compileUnder hplain hnamed theme
  · intro given' more hmore hsubset
    have hsupports : supports columns family :=
      suggestFor_isSome_iff.1 (by rw [hsuggested]; rfl)
    have hstill := suggestFor_isSome_iff.2 (supports_mono hsupports hsubset)
    obtain ⟨c', hc'⟩ := Option.isSome_iff_exists.1 hstill
    refine ⟨c', ?_⟩
    rw [suggest, hfamily, hmore]
    exact congrArg Except.ok hc'

/-- A column of times and one of numbers. -/
def readingColumns : Value :=
  .list [.dict [(.text "name", .text "at"), (.text "type", .text "datetime")],
    .dict [(.text "name", .text "v"), (.text "type", .text "float64")]]

/-- The columns of the readings suggest a line. -/
theorem suggest_suits_readings : ∃ c family columns,
    suggest readingColumns (.text "line") = .ok (some c) ∧
      supportedFamily (.text "line") = .ok family ∧ columnsOf readingColumns = .ok columns ∧
        c.Suits family columns := by
  have hsuggested : ∃ c, suggest readingColumns (.text "line") = .ok (some c) := ⟨_, rfl⟩
  obtain ⟨c, hc⟩ := hsuggested
  obtain ⟨family, columns, hfamily, hcolumns, hsuits, -⟩ := suggest_suits hc
  exact ⟨c, family, columns, hc, hfamily, hcolumns, hsuits⟩

end LiveChart
