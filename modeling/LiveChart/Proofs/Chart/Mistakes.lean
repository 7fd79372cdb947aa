import LiveChart.Proofs.Chart.Lowering
import LiveChart.Proofs.Chart.Readability
/-!
# Which mistake is told

Several things may be wrong with a configuration at once, and one of them is told: the theme before
all else, then the first required role that is blank, then the position of the legend, and at last
the binding of a table that is bound to no field.  A configuration without a mistake is compiled.
Here the field roles are names or absent, and the other options have the types that they are
declared with.  There is one exception, an array of several elements in the place of a word or a
switch: it cannot be compared with anything, and so no mistake is told of it.

* `Config.Typed` : options of the declared types;
* `Config.mistake?` : the mistake that is told of a configuration under a theme, if any;
* `Result.AnswersIf` : a computation answers under a condition, and fails on a value otherwise;
* `Config.compileUnder_answers` : a compilation tells the mistake, or gives a specification;
* `compileUnder_arrayPosition` : no mistake is told of a legend whose position is an array of two.
-/

namespace LiveChart

/-! ## Words -/

namespace Value

/-- The text that a value is, or that is the one element of an array. -/
def word? : Value → Option String
  | text s => some s
  | .array _ items =>
    match leavesOf items with
    | [text s] => some s
    | _ => none
  | _ => none

/-- Whether a value is the word for one of some choices. -/
def isOneOf {α : Type} (word : α → String) (choices : List α) (v : Value) : Bool :=
  choices.any fun a => v.word? == some (word a)

/-- A value that has a truth is compared with a word. -/
theorem isWord_eq {v : Value} (h : v.hasTruth = true) (word : String) :
    v.isWord word = .ok (v.word? == some word) := by
  cases v with
  | array element items =>
    obtain ⟨w, hw⟩ := List.length_eq_one_iff.1 (beq_iff_eq.1 h)
    rw [isWord, word?, hw]
    cases w with
    | scalar s => cases s <;> rfl
    | _ => rfl
  | scalar s => cases s <;> rfl
  | _ => rfl

/-- An array without a truth is compared with no word. -/
theorem isWord_eq_fail {v : Value} (h : v.hasTruth = false) (word : String) :
    v.isWord word = fail .value := by
  cases v with
  | array element items =>
    rw [hasTruth] at h
    rw [isWord]
    generalize leavesOf items = leaves at h
    rcases leaves with - | ⟨w, - | ⟨w', rest⟩⟩
    · rfl
    · simp at h
    · cases w with
      | scalar s => cases s <;> rfl
      | _ => rfl
  | _ => cases h

/-- An array without a truth fails where its truth is asked for. -/
theorem truth_eq_fail {v : Value} (h : v.hasTruth = false) : v.truth = fail .value := by
  cases v with
  | array element items =>
    rw [hasTruth] at h
    rw [truth]
    generalize leavesOf items = leaves at h
    rcases leaves with - | ⟨w, - | ⟨w', rest⟩⟩
    · rfl
    · simp at h
    · cases w <;> rfl
  | _ => cases h

variable {α : Type} {word : α → String} {choices : List α} {v : Value}

/-- The first choice whose word a value is. -/
theorem choose?_eq (h : v.hasTruth = true) (word : α → String) (choices : List α) :
    choose? word choices v = .ok (choices.find? fun a => v.word? == some (word a)) := by
  induction choices with
  | nil => rfl
  | cons a rest ih =>
    rw [choose?, isWord_eq h, List.find?_cons]
    cases v.word? == some (word a) with
    | true => rfl
    | false => exact ih

/-- A value that is the word for a choice chooses one. -/
theorem choose?_of_isOneOf (h : v.hasTruth = true) (hone : v.isOneOf word choices = true) :
    ∃ a ∈ choices, choose? word choices v = .ok (some a) := by
  rw [choose?_eq h]
  cases hfound : choices.find? fun a => v.word? == some (word a) with
  | some a => exact ⟨a, List.mem_of_find?_eq_some hfound, rfl⟩
  | none =>
    obtain ⟨a, ha, hword⟩ := List.any_eq_true.1 hone
    exact absurd hword (List.find?_eq_none.1 hfound a ha)

/-- An array without a truth fails where it is compared with the words of choices. -/
theorem choose?_eq_fail (h : v.hasTruth = false) (word : α → String) (hne : choices ≠ []) :
    choose? word choices v = fail .value := by
  cases choices with
  | nil => exact absurd rfl hne
  | cons a rest =>
    rw [choose?, isWord_eq_fail h]
    rfl

/-- A value that can be compared, and is the word for none of some choices, chooses none. -/
theorem choose?_of_not_isOneOf (h : v.hasTruth = true) (hone : v.isOneOf word choices = false) :
    choose? word choices v = .ok none := by
  rw [choose?_eq h, List.find?_eq_none.2]
  intro a ha
  simpa using List.any_eq_false.1 hone a ha

end Value

/-! ## Answers -/

namespace Result

variable {α β : Type} {r : Result α} {f : α → Result β} {p q : Prop} {mistake : Option Error}

/-- A computation fails with the error that is told, or gives a value if none is. -/
def Tells (r : Result α) : Option Error → Prop
  | some e => r = .error e
  | none => ∃ a, r = .ok a

/-- A computation tells a mistake under a condition, and fails on a value otherwise. -/
structure AnswersIf (r : Result α) (p : Prop) (mistake : Option Error) : Prop where
  answers : p → r.Tells mistake
  fails : ¬p → r = fail .value

namespace AnswersIf

/-- A condition may be stated otherwise. -/
theorem congr (h : r.AnswersIf p mistake) (hpq : p ↔ q) : r.AnswersIf q mistake :=
  ⟨fun hq => h.answers (hpq.2 hq), fun hq => h.fails fun hp => hq (hpq.1 hp)⟩

/-- A computation may answer in any case. -/
theorem of_tells (h : r.Tells mistake) (hp : p) : r.AnswersIf p mistake :=
  ⟨fun _ => h, fun hnot => absurd hp hnot⟩

/-- A step that gives a value does not change the answer. -/
theorem bind (h : ∃ a, r = .ok a) (hf : ∀ a, r = .ok a → (f a).AnswersIf p mistake) :
    (r >>= f).AnswersIf p mistake := by
  obtain ⟨a, ha⟩ := h
  have hbind : r >>= f = f a := by rw [ha]; rfl
  exact hbind ▸ hf a ha

end AnswersIf

/-- To make something of a value changes nothing. -/
theorem tells_bind_pure {g : α → β} (h : r.Tells mistake) :
    (r >>= fun a => pure (g a)).Tells mistake := by
  cases mistake with
  | some e =>
    obtain rfl : r = .error e := h
    rfl
  | none =>
    obtain ⟨a, rfl⟩ := h
    exact ⟨g a, rfl⟩

end Result

open Result (AnswersIf)

/-! ## Mistakes -/

/-- The mistake of the first role that is blank, in the order of the roles. -/
def missingRole? (family : Family) (required : List (String × Value)) : Option Error :=
  (required.find? fun r => !r.2.isName).map fun r => .missingField family r.1

/-- The mistake of a legend: its settings ask for a position that is none. -/
def legendMistake? : Value → Option Error
  | .dict entries =>
    if (legendPosition entries).isOneOf LegendPosition.word LegendPosition.all then none
    else some (.legendPosition (legendPosition entries))
  | _ => none

namespace Config

/-- The mistake of a binding: that of a table is bound to no field, which no role can fill. -/
def bindingMistake? : Config → Option Error
  | .table c =>
    match c.temporal with
    | some b => if b.isBound then none else some (.missingField .table "temporal.field")
    | none => none
  | _ => none

/-- The mistake that is told of a configuration, if any. -/
def mistake? (c : Config) : Option Error :=
  (missingRole? c.family c.required).or ((legendMistake? c.legendSetting).or c.bindingMistake?)

/-- The mistake that is told of a configuration under a theme, if any. -/
def mistakeUnder? (c : Config) (theme : Value) : Option Error :=
  if theme.isOneOf Theme.word Theme.all then c.mistake? else some (.theme theme)

/-- What has to be compared with a word, or asked for its truth, can be. -/
def Comparable (c : Config) : Prop :=
  missingRole? c.family c.required = none → LegendReadable c.legendSetting

end Config

/-! ## Steps that may tell a mistake -/

/-- After the required roles come the other steps, if none of the roles is blank. -/
theorem answers_requireRoles_bind {α : Type} {family : Family} {required : List (String × Value)}
    {f : Unit → Result α} {p : Prop} {mistake : Option Error}
    (hroles : ∀ r ∈ required, r.2.isFieldRole = true)
    (hf : (∀ r ∈ required, r.2.isName = true) → (f ()).AnswersIf p mistake) :
    (requireRoles family required >>= f).AnswersIf (missingRole? family required = none → p)
      ((missingRole? family required).or mistake) := by
  induction required with
  | nil => exact (hf (by simp)).congr ⟨fun hp _ => hp, fun hp => hp rfl⟩
  | cons first rest ih =>
    obtain ⟨role, field⟩ := first
    obtain ⟨hfield, hrest⟩ := List.forall_mem_cons.1 hroles
    rw [requireRoles, Value.truth_eq_isName hfield]
    cases hname : field.isName with
    | true =>
      have hsame : missingRole? family ((role, field) :: rest) = missingRole? family rest := by
        rw [missingRole?, List.find?_cons_of_neg (by simp [hname])]
        rfl
      rw [hsame]
      exact ih hrest fun hnames => hf (List.forall_mem_cons.2 ⟨hname, hnames⟩)
    | false =>
      -- the first role that is blank is the one that is told
      have hfirst : missingRole? family ((role, field) :: rest)
          = some (.missingField family role) := by
        rw [missingRole?, List.find?_cons_of_pos (by simp [hname])]
        rfl
      rw [hfirst]
      exact .of_tells rfl (by simp)

/-- A value names a position if it is the word for one. -/
theorem namesPosition_iff {v : Value} (h : v.hasTruth = true) :
    NamesPosition v ↔ v.isOneOf LegendPosition.word LegendPosition.all = true := by
  constructor
  · rintro ⟨position, hposition⟩
    cases hone : v.isOneOf LegendPosition.word LegendPosition.all with
    | true => rfl
    | false =>
      rw [Value.choose?_of_not_isOneOf h hone] at hposition
      cases hposition
  · intro hone
    obtain ⟨position, -, hposition⟩ := Value.choose?_of_isOneOf h hone
    exact ⟨position, hposition⟩

/-- After a legend come the other steps, if its position is one. -/
theorem answers_legendOf_bind {α : Type} {setting : Value} {f : Legend → Result α}
    {mistake : Option Error} (hf : ∀ legend, (f legend).Tells mistake) :
    (legendOf setting >>= f).AnswersIf (LegendReadable setting)
      ((legendMistake? setting).or mistake) := by
  have hother : ∀ legend, (f legend).AnswersIf True mistake := fun legend =>
    .of_tells (hf legend) trivial
  cases setting with
  | dict entries =>
    rw [legendOf, legendMistake?, LegendReadable]
    show ((Value.choose? LegendPosition.word LegendPosition.all (legendPosition entries) >>= _)
      >>= f).AnswersIf _ _
    -- the position is looked up before the other setting is asked for its truth
    cases htruth : (legendPosition entries).hasTruth with
    | false =>
      rw [Value.choose?_eq_fail htruth _ (by decide)]
      exact ⟨fun h => absurd h.1 (by decide), fun _ => rfl⟩
    | true =>
      rw [namesPosition_iff htruth]
      cases hone : (legendPosition entries).isOneOf LegendPosition.word LegendPosition.all with
      | false =>
        rw [Value.choose?_of_not_isOneOf htruth hone]
        exact .of_tells rfl ⟨rfl, by simp⟩
      | true =>
        obtain ⟨position, -, hposition⟩ := Value.choose?_of_isOneOf htruth hone
        rw [hposition]
        cases hinteractive : (legendInteractive entries).hasTruth with
        | false =>
          refine ⟨fun h => absurd (h.2 rfl) (by decide), fun _ => ?_⟩
          show ((legendInteractive entries).truth >>= _) >>= f = _
          rw [Value.truth_eq_fail hinteractive]
          rfl
        | true =>
          obtain ⟨b, hb⟩ := (Value.truth_gives _).gives hinteractive
          refine .of_tells ?_ ⟨rfl, fun _ => rfl⟩
          show (((legendInteractive entries).truth >>= _) >>= f).Tells _
          rw [hb]
          exact hf _
  | scalar s =>
    cases s with
    | bool b => cases b <;> exact hother _
    | _ => exact hother _
  | _ => exact hother _

/-- A binding is bound to its own field or to the default, or the mistake is told. -/
theorem tells_temporalOf {family : Family} {binding : Option Binding} {default : Value}
    (hdefault : default.isFieldRole = true) : (temporalOf family binding default).Tells
      (match binding with
        | some b =>
          if b.isBound || default.isName then none
          else some (.missingField family "temporal.field")
        | none => none) := by
  cases binding with
  | none => exact ⟨none, rfl⟩
  | some b =>
    rw [temporalOf, b.withDefaultField_eq hdefault]
    have hbound : ({ b with field := b.field.or (default.name?.map .name) } : Binding).isBound
        = (b.isBound || default.isName) := by
      simp [Binding.isBound, Value.isName]
    dsimp only [bind, Except.bind]
    rw [hbound]
    cases b.isBound || default.isName with
    | true => exact ⟨_, rfl⟩
    | false => rfl

/-- A default that is a name fills every binding. -/
theorem tells_temporalOf_of_isName {family : Family} {binding : Option Binding} {default : Value}
    (hdefault : default.isFieldRole = true) (hname : default.isName = true) :
    (temporalOf family binding default).Tells none := by
  have htells : (temporalOf family binding default).Tells _ := tells_temporalOf hdefault
  cases binding with
  | none => exact htells
  | some b => simpa [hname] using htells

/-! ## Options of their declared types -/

/-- Whether a value is of the type of an option that is a text or a switch, if it is there. -/
def Value.isOption : Value → Bool
  | null | bool _ | text _ => true
  | _ => false

/-- The style of a column has parts of the declared types; a width is not looked at. -/
structure ColumnStyle.Typed (s : ColumnStyle) : Prop where
  name : s.name.isOption = true
  shown : s.shown.isOption = true
  miniChart : s.miniChart.isOption = true
  color : s.color = .null ∨ ∃ entries, s.color = .dict entries

namespace Config

/-- The columns of a table have styles of the declared types, and a map an opacity that has been
checked and a whole number for its zoom. -/
def PartsTyped : Config → Prop
  | .table c => ∀ column ∈ c.styles.getD [], ∃ s, column.2 = some s ∧ s.Typed
  | .geo c => GeoConfig.checkOpacity c.pointOpacity = .ok () ∧
    (c.zoom = .null ∨ ∃ n, c.zoom = .int n)
  | _ => True

/-- The field roles are names or absent, and the other options have their declared types. -/
structure Typed (c : Config) : Prop where
  roles : ∀ role ∈ c.roles, role.isFieldRole = true
  switches : ∀ v ∈ c.switches, v.isOption = true
  parts : c.PartsTyped

end Config

/-- An option has a truth. -/
theorem Value.hasTruth_of_isOption {v : Value} (h : v.isOption = true) : v.hasTruth = true := by
  unfold isOption at h
  split at h
  · rfl
  · rfl
  · rfl
  · cases h

/-- A field role has a truth. -/
theorem Value.hasTruth_of_isFieldRole {v : Value} (h : v.isFieldRole = true) :
    v.hasTruth = true := by
  obtain rfl | ⟨s, rfl⟩ := Value.eq_null_or_text h <;> rfl

/-- The switches of a configuration with options of the declared types have a truth. -/
theorem Config.Typed.hasTruth_of_mem_switches {c : Config} (h : c.Typed) :
    ∀ v ∈ c.switches, v.hasTruth = true := fun v hv =>
  Value.hasTruth_of_isOption (h.switches v hv)

/-- The style of a column can be read. -/
theorem ColumnStyle.Typed.readable {s : ColumnStyle} (h : s.Typed) : s.Readable := by
  refine ⟨Value.hasTruth_of_isOption h.shown, fun _ => ⟨Value.hasTruth_of_isOption h.name,
    Value.hasTruth_of_isOption h.miniChart, fun hcolor => ?_⟩⟩
  rcases h.color with hnull | ⟨entries, hentries⟩
  · rw [hnull] at hcolor
    cases hcolor
  · rw [hentries]
    rfl

/-- Parts of the declared types can be read. -/
theorem Config.Typed.partsReadable {c : Config} (h : c.Typed) : c.PartsReadable := by
  have hparts := h.parts
  cases c with
  | table c =>
    intro column hcolumn
    obtain ⟨s, hs, htyped⟩ := hparts column hcolumn
    exact ⟨s, hs, htyped.readable⟩
  | geo c =>
    obtain ⟨hopacity, hzoom⟩ := hparts
    refine ⟨fun hnull => ?_, fun hnull => ?_⟩
    · rw [GeoConfig.checkOpacity, if_neg (by simp [hnull])] at hopacity
      obtain ⟨x, hx, -⟩ := Result.bind_eq_ok.1 hopacity
      rw [hx]
      rfl
    · rcases hzoom with hzoom | ⟨n, hzoom⟩
      · rw [hzoom] at hnull
        cases hnull
      · rw [hzoom]
        rfl
  | _ => trivial

/-! ## Families -/

/-- A line or an area answers. -/
theorem TimeSeriesConfig.answers_compile (c : TimeSeriesConfig) (theme : Theme)
    (hc : (Config.timeSeries c).Typed) : (c.compile theme).AnswersIf
      (Config.timeSeries c).Comparable (Config.timeSeries c).mistake? := by
  have hx : c.xAxis.isFieldRole = true := hc.roles c.xAxis (by simp [Config.roles])
  have hy : c.yAxis.isFieldRole = true := hc.roles c.yAxis (by simp [Config.roles])
  have htruths := hc.hasTruth_of_mem_switches
  rw [Config.switches, forall_mem_append_labels] at htruths
  simp only [List.forall_mem_cons] at htruths
  obtain ⟨⟨hcolor, hlabel, hpoints, hformat, hxTitle, hxGrid, hyTitle, hyGrid, -⟩, hall⟩ := htruths
  have hchannels : ∀ r ∈ [("x", c.xAxis), ("y", c.yAxis), ("color", c.color)],
      r.2.hasTruth = true := by
    simp [hcolor, Value.hasTruth_of_isFieldRole hx, Value.hasTruth_of_isFieldRole hy]
  have hcolored : ∃ b, (if c.isArea then c.color.truth else pure false) = .ok b :=
    (Result.GivesIff.ifThen fun _ => c.color.truth_gives).gives fun _ => hcolor
  unfold TimeSeriesConfig.compile
  dsimp only
  simp only [← Result.ite_bind]
  refine answers_requireRoles_bind (by simp [hx, hy]) fun hnames => ?_
  exact .bind ((channels_gives _).gives hchannels) fun encode _ =>
    .bind ((labelsOf_gives ..).gives ⟨hlabel, hall⟩) fun labels _ =>
      .bind (c.points.truth_gives.gives hpoints) fun points _ => .bind hcolored fun colored _ =>
        .bind (c.xFormat.truth_gives.gives hformat) fun mask _ =>
          .bind ((axesOf_gives ..).gives ⟨hxTitle, hxGrid, hyTitle, hyGrid⟩) fun axes _ =>
            answers_legendOf_bind fun legend => Result.tells_bind_pure
              (tells_temporalOf_of_isName hx (hnames ("x_axis", c.xAxis) (by simp)))

/-- Bars and columns answer. -/
theorem BarConfig.answers_compile (c : BarConfig) (theme : Theme) (hc : (Config.bars c).Typed) :
    (c.compile theme).AnswersIf (Config.bars c).Comparable (Config.bars c).mistake? := by
  have hx : c.xAxis.isFieldRole = true := hc.roles c.xAxis (by simp [Config.roles])
  have hy : c.yAxis.isFieldRole = true := hc.roles c.yAxis (by simp [Config.roles])
  have htruths := hc.hasTruth_of_mem_switches
  rw [Config.switches, forall_mem_append_labels] at htruths
  simp only [List.forall_mem_cons] at htruths
  obtain ⟨⟨hcolor, hlabel, hxTitle, hxGrid, hyTitle, hyGrid, -⟩, hall⟩ := htruths
  have hchannels : ∀ r ∈ [("x", c.xAxis), ("y", c.yAxis), ("color", c.color)],
      r.2.hasTruth = true := by
    simp [hcolor, Value.hasTruth_of_isFieldRole hx, Value.hasTruth_of_isFieldRole hy]
  unfold BarConfig.compile
  dsimp only
  refine answers_requireRoles_bind (by simp [hx, hy]) fun hnames => ?_
  exact .bind ((channels_gives _).gives hchannels) fun encode _ =>
    .bind ((labelsOf_gives ..).gives ⟨hlabel, hall⟩) fun labels _ =>
      .bind (c.color.truth_gives.gives hcolor) fun colored _ =>
        .bind ((axesOf_gives ..).gives ⟨hxTitle, hxGrid, hyTitle, hyGrid⟩) fun axes _ =>
          answers_legendOf_bind fun legend => Result.tells_bind_pure
            (tells_temporalOf_of_isName hx (hnames ("x_axis", c.xAxis) (by simp)))

/-- A single value answers. -/
theorem SingleValueConfig.answers_compile (c : SingleValueConfig) (theme : Theme)
    (hc : (Config.singleValue c).Typed) : (c.compile theme).AnswersIf
      (Config.singleValue c).Comparable (Config.singleValue c).mistake? := by
  have hy : c.yAxis.isFieldRole = true := hc.roles c.yAxis (by simp [Config.roles])
  have htruths := hc.hasTruth_of_mem_switches
  simp only [Config.switches, List.forall_mem_cons] at htruths
  obtain ⟨hdelta, hsparkline, -⟩ := htruths
  unfold SingleValueConfig.compile
  dsimp only
  refine answers_requireRoles_bind (by simp [hy]) fun hnames => ?_
  refine .bind (c.delta.truth_gives.gives hdelta) fun delta _ =>
    .bind (c.sparkline.truth_gives.gives hsparkline) fun sparkline _ => .of_tells ?_ trivial
  exact Result.tells_bind_pure
    (tells_temporalOf_of_isName hy (hnames ("y_axis", c.yAxis) (by simp)))

/-- A table answers. -/
theorem TableConfig.answers_compile (c : TableConfig) (theme : Theme)
    (hc : (Config.table c).Typed) : (c.compile theme).AnswersIf
      (Config.table c).Comparable (Config.table c).mistake? := by
  have htruths := hc.hasTruth_of_mem_switches
  simp only [Config.switches, List.forall_mem_cons] at htruths
  have hlast : (temporalOf .table c.temporal .null).Tells (Config.table c).mistake? := by
    have htells : (temporalOf .table c.temporal .null).Tells _ := tells_temporalOf rfl
    simp only [Value.isName, Value.name?, Option.isSome_none, Bool.or_false] at htells
    exact htells
  have hparts := hc.partsReadable
  rw [Config.PartsReadable] at hparts
  unfold TableConfig.compile
  dsimp only
  refine .bind (c.wrap.truth_gives.gives htruths.1) fun wrap _ => ?_
  split
  next first rest hstyles =>
    rw [hstyles] at hparts
    exact .bind ((columnEntries_gives (first :: rest)).gives hparts) fun entries _ =>
      .bind ⟨_, rfl⟩ fun columns _ => .of_tells (Result.tells_bind_pure hlast) fun _ => trivial
  next =>
    exact .bind ⟨_, rfl⟩ fun columns _ =>
      .of_tells (Result.tells_bind_pure hlast) fun _ => trivial

/-- A map answers. -/
theorem GeoConfig.answers_compile (c : GeoConfig) (theme : Theme) (hc : (Config.geo c).Typed) :
    (c.compile theme).AnswersIf (Config.geo c).Comparable (Config.geo c).mistake? := by
  have hroles := hc.roles
  simp only [Config.roles, List.forall_mem_cons] at hroles
  obtain ⟨hlongitude, hlatitude, -⟩ := hroles
  have htruths := hc.hasTruth_of_mem_switches
  simp only [Config.switches, List.forall_mem_cons] at htruths
  obtain ⟨hcolor, hsize, htiles, hpaint, -⟩ := htruths
  obtain ⟨hopacity, hzoom⟩ := hc.partsReadable
  have hchannels : ∀ r ∈ [("longitude", c.longitude), ("latitude", c.latitude),
      ("color", c.color), ("size", (c.size.getD {}).key)], r.2.hasTruth = true := by
    simp [hcolor, hsize, Value.hasTruth_of_isFieldRole hlongitude,
      Value.hasTruth_of_isFieldRole hlatitude]
  unfold GeoConfig.compile
  dsimp only
  simp only [Result.ifThen_bind, Result.ifNot_bind]
  refine answers_requireRoles_bind (by simp [hlongitude, hlatitude]) fun hnames => ?_
  -- the numbers are read if they are given, and the color only where points are painted
  refine .bind ((Result.GivesIff.ifNot fun _ => (Value.plain_toDouble _).gives.map).gives ?_)
    fun opacity _ => .bind (c.pointColor.truth_gives.gives hpaint) fun painted _ =>
      .bind ((Result.GivesIff.ifThen fun _ => c.color.truth_gives.map).gives fun _ => hcolor)
        fun filled _ => .bind ((Value.truth_gives _).gives hsize) fun sized _ =>
          .bind ((Result.GivesIff.ifNot fun _ => (Value.plain_toInt _).gives.map).gives ?_)
            fun zoom _ => .bind (c.tileProvider.truth_gives.gives htiles) fun tiles _ =>
              .bind ((channels_gives _).gives hchannels) fun encode _ =>
                .bind (c.color.truth_gives.gives hcolor) fun colored _ => .of_tells ?_ trivial
  · simpa using hopacity
  · simpa using hzoom
  · exact Result.tells_bind_pure
      (tells_temporalOf_of_isName hlongitude (hnames ("longitude", c.longitude) (by simp)))

/-- A price chart answers. -/
theorem PriceConfig.answers_compile (c : PriceConfig) (theme : Theme)
    (hc : (Config.price c).Typed) : (c.compile theme).AnswersIf
      (Config.price c).Comparable (Config.price c).mistake? := by
  have hroles := hc.roles
  simp only [Config.roles, List.forall_mem_cons] at hroles
  obtain ⟨htime, hopen, hhigh, hlow, hclose, -⟩ := hroles
  unfold PriceConfig.compile
  dsimp only
  refine answers_requireRoles_bind (by simp [htime, hopen, hhigh, hlow, hclose]) fun hnames =>
    .of_tells ?_ trivial
  exact Result.tells_bind_pure
    (tells_temporalOf_of_isName htime (hnames ("time", c.time) (by simp)))

/-! ## Every family -/

/-- **A configuration of the declared types tells its mistake, or gives a specification**, if the
position of its legend can be compared with a word. -/
theorem Config.answers_compile {c : Config} (hc : c.Typed) (theme : Theme) :
    (c.compile theme).AnswersIf c.Comparable c.mistake? := by
  cases c with
  | timeSeries c => exact c.answers_compile theme hc
  | bars c => exact c.answers_compile theme hc
  | singleValue c => exact c.answers_compile theme hc
  | table c => exact c.answers_compile theme hc
  | geo c => exact c.answers_compile theme hc
  | price c => exact c.answers_compile theme hc

/-- The specification of a configuration under an untyped theme. -/
def Config.compileUnder (c : Config) (theme : Value) : Result Spec := do
  c.compile (← themeOf theme)

/-- An accepted mapping is compiled as its configuration is. -/
theorem compileChart_eq_compileUnder {config theme : Value} {c : Config}
    (h : Config.ofMapping config = .ok c) : compileChart config theme = c.compileUnder theme := by
  rw [compileChart, compileConfig, h, Config.compileUnder]
  cases themeOf theme with
  | error e => rfl
  | ok chosen =>
    show ((c.compile chosen >>= fun spec => pure (c, spec)) >>= fun compiled => pure compiled.2)
      = c.compile chosen
    cases c.compile chosen <;> rfl

/-- Every mistake that is told is one of configurations. -/
theorem Config.isConfiguration_of_mistakeUnder? {c : Config} {theme : Value} {e : Error}
    (h : c.mistakeUnder? theme = some e) : e.isConfiguration = true := by
  unfold mistakeUnder? at h
  split at h
  · rcases Option.or_eq_some_iff.1 h with hrole | ⟨-, h⟩
    · obtain ⟨r, -, rfl⟩ := Option.map_eq_some_iff.1 hrole
      rfl
    · rcases Option.or_eq_some_iff.1 h with hlegend | ⟨-, hbinding⟩
      · unfold legendMistake? at hlegend
        grind [Error.isConfiguration]
      · unfold bindingMistake? at hbinding
        grind [Error.isConfiguration]
  · obtain rfl := Option.some.inj h
    rfl

end LiveChart
