import LiveChart.Proofs.Chart.Compiled
import LiveChart.Proofs.Stream.Independence
import LiveChart.Proofs.Temporal.Instants
import LiveChart.Proofs.Temporal.Totality
/-!
# Frames

A frame shows the view of a snapshot, its window, and a form of time labels.  Where the times of all
rows can be read, the view and the window are there, and only the form of labels can be in the way:
it is found from the dates of the window's ends unless the configuration sets one, and these must be
in the calendar.

* `frameOf_eq` : the frame of rows with times that can be read;
* `Config.labelForm` : the form of time labels under a configuration, and `Config.labelForm_cases`
  for when there is one;
* `Setup.resolve_built` : what a controller that was built resolves.
-/

namespace LiveChart

/-! ## Frames of rows with times -/

/-- The frame of rows with times that can be read fails only if there is no form for its labels. -/
theorem frameOf_eq {spec : Spec} {b : Binding} (hb : spec.temporal = some b)
    (hbound : b.isBound = true) {rows : List Row} (h : ∀ row ∈ rows, b.Dates row) :
    frameOf spec rows = (frameMask spec (b.span b.timeOf rows)).map fun mask =>
      ⟨b.select b.timeOf b.rowKey rows, b.span b.timeOf rows, mask⟩ := by
  have hview : view (some b) rows = .ok (b.select b.timeOf b.rowKey rows) :=
    viewOf_eq_ok hbound id h
  have hwindow : timeWindow (some b) rows = .ok (b.span b.timeOf rows) :=
    timeWindowOf_eq_ok hbound id h
  unfold frameOf
  rw [hb, hview, hwindow]
  show (frameMask spec (b.span b.timeOf rows) >>= fun mask => pure _) = _
  cases frameMask spec (b.span b.timeOf rows) <;> rfl

/-- The ends of the span of finite times are numbers. -/
theorem Binding.isNaN_of_span {b : Binding} {rows : List Row} (h : ∀ row ∈ rows, b.Dates row)
    {w : Double × Double} (hw : b.span b.timeOf rows = some w) :
    w.1.isNaN = false ∧ w.2.isNaN = false := by
  have hfinite : ∀ x ∈ (timed b.timeOf rows).map Prod.fst, x.isFinite = true := by
    intro x hx
    obtain ⟨⟨t, row⟩, hmem, rfl⟩ := List.mem_map.1 hx
    obtain ⟨hrow, ht⟩ := mem_timed.1 hmem
    exact (h row hrow).isFinite ht
  obtain ⟨lo, hi⟩ := w
  have hmode : b.mode = .axis := by
    by_contra hne
    rw [b.span_of_ne_axis hne] at hw
    cases hw
  rw [b.span_axis hmode, windowOf_eq_some] at hw
  obtain ⟨hlast, hfirst⟩ := hw
  have hhi := hfinite hi (latest?_eq_some hlast).1
  -- the end is finite, but a long window may begin at an infinity
  refine ⟨?_, Double.isNaN_of_isFinite hhi⟩
  cases hwindow : b.range.window? with
  | none =>
    rw [hwindow] at hfirst
    exact Double.isNaN_of_isFinite (hfinite lo (earliest?_eq_some hfirst).1)
  | some window =>
    rw [hwindow] at hfirst
    obtain rfl := hfirst
    exact Double.isNaN_sub hhi (Range.zero_le_window hwindow)

/-! ## Forms of time labels -/

namespace Config

/-- The form of time labels under a configuration: the one that it sets, or else the one that suits
the window, if there is a window. -/
def labelForm (c : Config) (window : Option (Double × Double)) : Result Value :=
  match c.labelFormat?, window with
  | some format, _ => .ok format
  | none, some w => do return .text (← maskOfWindow w).pattern
  | none, none => .ok .null

/-- A form of labels that is set is not absent. -/
theorem ne_null_of_labelFormat? {c : Config} {format : Value}
    (h : c.labelFormat? = some format) : format ≠ .null := by
  rintro rfl
  unfold labelFormat? at h
  split at h
  · split at h
    · rename_i c htruth
      rw [Option.some.inj h] at htruth
      cases htruth
    · cases h
  · cases h

/-- A frame has the form of labels of its configuration. -/
theorem Keeps.frameMask_eq {c : Config} {spec : Spec} (h : c.Keeps spec)
    (window : Option (Double × Double)) : frameMask spec window = c.labelForm window := by
  unfold frameMask labelForm
  rw [h.mask]
  cases hformat : c.labelFormat? with
  | none => cases window <;> rfl
  | some format =>
    have hne := ne_null_of_labelFormat? hformat
    cases format with
    | scalar s =>
      cases s with
      | null => exact absurd rfl hne
      | _ => rfl
    | _ => rfl

/-- **When there is a form of labels**: one is set, or the window, if there is one, lies in the
calendar. -/
theorem labelForm_cases (c : Config) {window : Option (Double × Double)}
    (h : ∀ w ∈ window, w.1.isNaN = false ∧ w.2.isNaN = false) :
    ((c.labelFormat?.isSome = true ∨ ∀ w ∈ window, InCalendar w.1 ∧ InCalendar w.2) ∧
        ∃ mask, c.labelForm window = .ok mask) ∨
      (¬(c.labelFormat?.isSome = true ∨ ∀ w ∈ window, InCalendar w.1 ∧ InCalendar w.2) ∧
        c.labelForm window = fail .overflow) := by
  unfold labelForm
  cases c.labelFormat? with
  | some format => exact .inl ⟨.inl rfl, format, rfl⟩
  | none =>
    cases window with
    | none => exact .inl ⟨.inr fun _ hw => (nomatch hw), .null, rfl⟩
    | some w =>
      obtain ⟨hlo, hhi⟩ := h w rfl
      dsimp only
      obtain ⟨hin, mask, hmask⟩ | ⟨hout, hmask⟩ := maskOfWindow_cases hlo hhi
      · rw [hmask]
        exact .inl ⟨.inr fun _ hw => Option.some.inj hw ▸ hin, _, rfl⟩
      · rw [hmask]
        refine .inr ⟨?_, rfl⟩
        rintro (hset | hall)
        · cases hset
        · exact hout (hall w rfl)

end Config

/-! ## What built controllers resolve -/

namespace Controller

/-- The frame after a run is that of the rows after it. -/
theorem frame_run (c : Controller) (steps : List Step) :
    (c.run steps).frame = frameOf c.spec (c.run steps).buffer.rows := by
  have hspec : (c.run steps).spec = c.spec := by
    have hcore := c.core.run_spec steps
    rw [← core_run] at hcore
    exact hcore
  rw [frame, hspec]

end Controller

/-- **What a built controller resolves**, with any buffer and after any run, where all times in its
buffer are finite numbers or missing.  Its rows are the view of the buffer, its domain is the window
of the same rows, and its form of time labels is that of the configuration and the window.  It
resolves a frame just if a form is set, or there is no window, or both ends of the window lie in the
calendar; otherwise one of them is out of range.  The binding is the one that was asked for, with
its mode and range, so a window is there in axis mode as soon as a row has a time. -/
theorem Setup.resolve_built {s : Setup} {lines : List Log.Line} {built : Controller}
    (hbuild : s.build = (lines, .ok built)) {c : Config} (hc : Config.ofMapping s.config = .ok c)
    {asked : Binding} (hasked : c.base.temporal = some asked) :
    ∃ b, built.spec.temporal = some b ∧ b.isBound = true ∧ b = { asked with field := b.field } ∧
      ∀ (buffer : Buffer Row) (steps : List Controller.Step),
        let k := ({ built with buffer } : Controller).run steps
        (∀ row ∈ k.buffer.rows, b.Dates row) →
          ∃ shown window, view (some b) k.buffer.rows = .ok shown ∧
            timeWindow (some b) k.buffer.rows = .ok window ∧
            (∀ f, k.resolve.2 = .ok f →
              f.rows = shown ∧ f.domain = window ∧ c.labelForm window = .ok f.mask) ∧
            ((∃ f, k.resolve.2 = .ok f) ↔ c.labelFormat?.isSome = true ∨
              ∀ w ∈ window, InCalendar w.1 ∧ InCalendar w.2) ∧
            ((¬∃ f, k.resolve.2 = .ok f) → k.resolve.2 = fail .overflow) := by
  obtain ⟨c', theme, spec, columns, policy, hc', hcompile, rfl⟩ := Setup.exists_of_build hbuild
  obtain rfl : c' = c := Except.ok.inj (hc'.symm.trans hc)
  have hkeeps := Config.keeps_of_compile hcompile
  obtain ⟨b, hb, hbound, hfield⟩ := hkeeps.exists_bound hasked
  refine ⟨b, hb, hbound, hfield, fun buffer steps => ?_⟩
  intro k hdates
  -- the frame is computed from the rows that the run left
  have hresolved : k.resolve.2 = (c'.labelForm (b.span b.timeOf k.buffer.rows)).map fun mask =>
      ⟨b.select b.timeOf b.rowKey k.buffer.rows, b.span b.timeOf k.buffer.rows, mask⟩ := by
    rw [← hkeeps.frameMask_eq]
    exact (Controller.frame_run _ steps).trans (frameOf_eq hb hbound hdates)
  refine ⟨_, _, viewOf_eq_ok hbound id hdates, timeWindowOf_eq_ok hbound id hdates, ?_⟩
  rw [hresolved]
  -- of the parts of the frame only the form of the labels can be missing
  obtain ⟨hlabel, mask, hmask⟩ | ⟨hlabel, hmask⟩ := c'.labelForm_cases fun w hw =>
    Binding.isNaN_of_span hdates hw
  · rw [hmask]
    refine ⟨fun f hf => ?_, ⟨fun _ => hlabel, fun _ => ⟨_, rfl⟩⟩, fun hnone => ?_⟩
    · obtain rfl := Except.ok.inj hf
      exact ⟨rfl, rfl, hmask⟩
    · exact absurd ⟨_, rfl⟩ hnone
  · rw [hmask]
    refine ⟨fun f hf => (nomatch hf), ⟨fun h => ?_, fun h => absurd h hlabel⟩, fun _ => rfl⟩
    obtain ⟨f, hf⟩ := h
    cases hf

/-- A line over all times. -/
def lineSetup : Setup :=
  { columns := .list [.dict [(.text "name", .text "at"), (.text "type", .text "datetime")],
      .dict [(.text "name", .text "v"), (.text "type", .text "float64")]]
    config := .dict [(.text "chartType", .text "line"), (.text "xAxis", .text "at"),
      (.text "yAxis", .text "v"), (.text "temporal", .dict [(.text "mode", .text "axis")])] }

/-- The binding of a line over all times. -/
def lineBinding : Binding := { mode := .axis, field := some (.name "at") }

/-- A row at a number of milliseconds. -/
def lineRow (millis : ℤ) : Row := [(.text "at", .int millis), (.text "v", .int 1)]

/-- The arrival of a row at a number of milliseconds. -/
def lineArrival (millis : ℤ) : Controller.Step := .append (.list [.dict (lineRow millis)])

/-- The time of a row is a finite number if its milliseconds are a double. -/
theorem dates_lineRow {millis : ℤ} (h : (Double.ofInt? millis).any Double.isFinite = true) :
    ∀ row ∈ [lineRow millis], lineBinding.Dates row := by
  have hheld : Value.lookup? (.text "at") (lineRow millis) = some (.int millis) := rfl
  obtain ⟨x, hx, hfinite⟩ := (Option.any_eq_true _ _).1 h
  intro row hrow field hclock
  obtain rfl := List.mem_singleton.1 hrow
  obtain rfl : .text "at" = field := Option.some.inj hclock
  refine ⟨some x, ?_, fun y hy => Option.some.inj hy ▸ hfinite⟩
  rw [stampOf_dict rfl, hheld]
  dsimp only
  unfold epochMillis
  dsimp only
  rw [hx]

/-- A line can be built, and takes in a row. -/
theorem exists_line : ∃ lines built c, lineSetup.build = (lines, .ok built) ∧
    Config.ofMapping lineSetup.config = .ok c ∧ c.base.temporal = some { mode := .axis } ∧
    built.spec.temporal = some lineBinding ∧
    ∀ millis, (built.run [lineArrival millis]).buffer.rows = [lineRow millis] := by
  obtain ⟨lines, built, hbuild, htemporal, hbuffer⟩ : ∃ lines built,
      lineSetup.build = (lines, .ok built) ∧ built.spec.temporal = some lineBinding ∧
      ∀ millis, ((built.core.effect (lineArrival millis)).rowsAfter built.buffer).rows
        = [lineRow millis] :=
    ⟨_, _, rfl, rfl, fun _ => rfl⟩
  obtain ⟨c, hc, hasked⟩ : ∃ c, Config.ofMapping lineSetup.config = .ok c ∧
      c.base.temporal = some { mode := .axis } := ⟨_, rfl, rfl⟩
  refine ⟨lines, built, c, hbuild, hc, hasked, htemporal, fun millis => ?_⟩
  exact (congrArg Buffer.rows (built.buffer_step (lineArrival millis))).trans (hbuffer millis)

/-- A line after a row at the beginning of 1970. -/
theorem Setup.resolve_built_line :
    ∃ lines built c, lineSetup.build = (lines, .ok built) ∧
      Config.ofMapping lineSetup.config = .ok c ∧ c.base.temporal = some { mode := .axis } ∧
      built.spec.temporal = some lineBinding ∧
      let k := built.run [lineArrival 0]
      (k.buffer.rows = [lineRow 0] ∧ ∀ row ∈ k.buffer.rows, lineBinding.Dates row) ∧
        ∃ shown window, view (some lineBinding) k.buffer.rows = .ok shown ∧
          timeWindow (some lineBinding) k.buffer.rows = .ok window ∧
          (∀ f, k.resolve.2 = .ok f →
            f.rows = shown ∧ f.domain = window ∧ c.labelForm window = .ok f.mask) ∧
          ((∃ f, k.resolve.2 = .ok f) ↔ c.labelFormat?.isSome = true ∨
            ∀ w ∈ window, InCalendar w.1 ∧ InCalendar w.2) ∧
          ((¬∃ f, k.resolve.2 = .ok f) → k.resolve.2 = fail .overflow) := by
  obtain ⟨lines, built, c, hbuild, hc, hasked, htemporal, hrows⟩ := exists_line
  obtain ⟨b, hb, -, -, hrun⟩ := Setup.resolve_built hbuild hc hasked
  obtain rfl : lineBinding = b := Option.some.inj (htemporal.symm.trans hb)
  refine ⟨lines, built, c, hbuild, hc, hasked, htemporal, ?_⟩
  intro k
  have hdates : ∀ row ∈ k.buffer.rows, lineBinding.Dates row := by
    rw [hrows 0]
    exact dates_lineRow (by decide +kernel)
  exact ⟨⟨hrows 0, hdates⟩, hrun built.buffer [lineArrival 0] hdates⟩

/-- A row that lies past the end of the calendar leaves a line without a frame. -/
theorem Setup.resolve_built_pastCalendar :
    ¬∀ (s : Setup) (lines : List Log.Line) (built : Controller), s.build = (lines, .ok built) →
      ∀ b, built.spec.temporal = some b → b.mode = .axis → ∀ steps,
        (∀ row ∈ (built.run steps).buffer.rows, b.Dates row) →
          ∃ f, (built.run steps).resolve.2 = .ok f := by
  intro h
  obtain ⟨lines, built, c, hbuild, -, -, htemporal, hrows⟩ := exists_line
  have hdates : ∀ row ∈ (built.run [lineArrival (10 ^ 15)]).buffer.rows,
      lineBinding.Dates row := by
    rw [hrows]
    exact dates_lineRow (by decide +kernel)
  obtain ⟨f, hf⟩ := h lineSetup lines built hbuild lineBinding htemporal rfl _ hdates
  have hnone : (lineSetup.build.2 >>= fun line =>
      (line.run [lineArrival (10 ^ 15)]).resolve.2).toOption.isNone = true := by decide +kernel
  rw [hbuild] at hnone
  change (built.run [lineArrival (10 ^ 15)]).resolve.2.toOption.isNone = true at hnone
  rw [hf] at hnone
  cases hnone

end LiveChart
