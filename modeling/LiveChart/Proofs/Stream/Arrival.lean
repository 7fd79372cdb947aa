import LiveChart.Proofs.Stream.Frames
import LiveChart.Proofs.Stream.Independence
import LiveChart.Proofs.Temporal.Chronicle
/-!
# Streams that arrive in order

A controller keeps the last rows of its stream only.  Where all rows have a time and arrive in order
of time, this loses nothing but the oldest rows of what would be shown of the whole stream.

* `Controller.arrivals` : the rows that a run takes in;
* `Core.rows_step_append` and `Core.rows_run_append` : a buffer holds the last of them;
* `Core.pairwise_deliveries_run` : deliveries are frames of the run, in order;
* `Setup.endsBy_run` : the windows of these frames do not go back;
* `Setup.view_run_inOrder` : the view of the buffer against the view of the whole stream.
-/

namespace LiveChart

namespace Controller

/-- Whether a step takes no rows away, when sources are taken in by a mode. -/
def Step.appendsOnly (mode : StreamingMode) : Step → Bool
  | .replace _ | .clear | .close => false
  | .ingest .. => mode = .append
  | _ => true

/-- The rows that a step takes in. -/
def Step.arrivals (columns : List Column) : Step → List Row
  | .append rows =>
    match rows.elements with
    | .ok items => accepted columns items
    | .error _ => []
  | .ingest given rows isLive =>
    match Source.ofValues given rows isLive with
    | .ok source => accepted source.columns source.rows
    | .error _ => []
  | _ => []

/-- The rows that a run takes in, one after another. -/
def arrivals (columns : List Column) (steps : List Step) : List Row :=
  steps.flatMap (Step.arrivals columns)

end Controller

/-! ## What a buffer keeps of the arrivals -/

namespace Core

variable {k : Core} {s : Controller.Step}

/-- A buffer that has room for its rows keeps them. -/
theorem lastN_rows (k : Core) : lastN k.buffer.capacity k.buffer.rows = k.buffer.rows :=
  lastN_of_length_le k.buffer.length_rows_le

/-- What a step that takes no rows away comes to: its arrivals are appended, if there are any. -/
theorem rowsAfter_of_appendsOnly (hopen : k.closed = false)
    (hs : s.appendsOnly k.spec.streaming.mode = true) :
    ((k.effect s).rowsAfter k.buffer).capacity = k.buffer.capacity ∧
      ((k.effect s).rowsAfter k.buffer).rows
        = lastN k.buffer.capacity (k.buffer.rows ++ s.arrivals k.columns) := by
  -- a step without arrivals keeps the last rows, which are all
  have hsame : ∀ rows : List Row, rows = [] → k.buffer.rows
      = lastN k.buffer.capacity (k.buffer.rows ++ rows) := by
    rintro _ rfl
    rw [List.append_nil, lastN_rows]
  cases s with
  | append rows =>
    cases hrows : rows.elements with
    | error e =>
      simp only [effect, hopen, hrows, Controller.Step.arrivals]
      exact ⟨rfl, hsame [] rfl⟩
    | ok items =>
      simp only [effect, hopen, hrows, Controller.Step.arrivals]
      exact ⟨rfl, Buffer.append_rows ..⟩
  | ingest given rows isLive =>
    have hmode : k.spec.streaming.mode = .append := of_decide_eq_true hs
    cases hsource : Source.ofValues given rows isLive with
    | error e =>
      simp only [effect, hopen, hsource, Controller.Step.arrivals]
      exact ⟨rfl, hsame [] rfl⟩
    | ok source =>
      simp only [effect, hopen, hsource, ingestEffect, hmode, Controller.Step.arrivals]
      exact ⟨rfl, Buffer.append_rows ..⟩
  | replace rows => cases hs
  | clear => cases hs
  | close => cases hs
  | _ => exact ⟨rfl, hsame [] rfl⟩

/-- **A step that takes no rows away appends its arrivals.** -/
theorem rows_step_append (hopen : k.closed = false)
    (hs : s.appendsOnly k.spec.streaming.mode = true) :
    (k.step s).buffer.capacity = k.buffer.capacity ∧ (k.step s).columns = k.columns ∧
      (k.step s).buffer.rows = lastN k.buffer.capacity (k.buffer.rows ++ s.arrivals k.columns) := by
  have hstore : (k.step s).store
      = { k.store with buffer := (k.effect s).rowsAfter k.buffer } := apply_store ..
  obtain ⟨hcolumns, -, hbuffer⟩ := Store.mk.inj hstore
  obtain ⟨hcapacity, hrows⟩ := rowsAfter_of_appendsOnly hopen hs
  rw [hbuffer]
  exact ⟨hcapacity, hcolumns, hrows⟩

/-- **After a run that takes no rows away a buffer holds the last of the arrivals.** -/
theorem rows_run_append {steps : List Controller.Step} {log : List Row} (hopen : k.closed = false)
    (hsteps : ∀ s ∈ steps, s.appendsOnly k.spec.streaming.mode = true)
    (hlog : k.buffer.rows = lastN k.buffer.capacity log) :
    (k.run steps).buffer.rows
      = lastN k.buffer.capacity (log ++ Controller.arrivals k.columns steps) := by
  induction steps generalizing k log with
  | nil =>
    rw [Controller.arrivals, List.flatMap_nil, List.append_nil]
    exact hlog
  | cons s steps ih =>
    obtain ⟨hs, hrest⟩ := List.forall_mem_cons.1 hsteps
    obtain ⟨hcapacity, hcolumns, hrows⟩ := rows_step_append hopen hs
    have hclose : s ≠ .close := by
      rintro rfl
      cases hs
    have hspec : (k.step s).spec = k.spec := apply_spec ..
    have hnext : (k.step s).buffer.rows
        = lastN (k.step s).buffer.capacity (log ++ s.arrivals k.columns) := by
      rw [hrows, hcapacity, hlog, lastN_append_lastN]
    have hrun := ih (step_closed hopen hclose) (by rw [hspec]; exact hrest) hnext
    rw [hcapacity, hcolumns, List.append_assoc] at hrun
    exact hrun

end Core

/-! ## Deliveries are frames of the run -/

namespace Core

variable {k : Core}

/-- A delivery is of the frame as it is now. -/
theorem frame_of_mem_handed {d : Delivery} (hd : d ∈ k.handed) : k.frame = .ok d.frame := by
  unfold handed at hd
  cases hframe : k.frame with
  | error e =>
    rw [hframe] at hd
    exact absurd hd List.not_mem_nil
  | ok f =>
    rw [hframe] at hd
    dsimp only at hd
    split_ifs at hd
    · rw [List.mem_singleton.1 hd]
    · exact absurd hd List.not_mem_nil

/-- A core with more deliveries than another, all of them of the frame that it has itself. -/
def Delivers (k k' : Core) : Prop :=
  ∃ new, k'.deliveries = k.deliveries ++ new ∧ ∀ d ∈ new, k'.frame = .ok d.frame

/-- To hand over a frame delivers it. -/
theorem Delivers.hand {k' : Core} (h : Delivers k k') : Delivers k k'.hand := by
  obtain ⟨new, hnew, hframe⟩ := h
  refine ⟨new ++ k'.handed, ?_, fun d hd => ?_⟩
  · show k'.deliveries ++ k'.handed = _
    rw [hnew, List.append_assoc]
  · show k'.frame = .ok d.frame
    rcases List.mem_append.1 hd with hd | hd
    · exact hframe d hd
    · exact frame_of_mem_handed hd

/-- An operation of the notifier delivers the frame, or nothing. -/
theorem delivers_move (step : NotifierStep) : Delivers k (k.move step) := by
  have hsame : Delivers k { k with notifier := (k.notifier.move step).1 } :=
    ⟨[], (List.append_nil _).symm, fun _ hd => absurd hd List.not_mem_nil⟩
  unfold move
  dsimp only
  split_ifs
  · exact hsame.hand
  · exact hsame

/-- **What a step delivers is the frame after it.** -/
theorem delivers_step (s : Controller.Step) : Delivers k (k.step s) := by
  unfold Core.step
  cases k.effect s with
  | nothing => exact ⟨[], (List.append_nil _).symm, fun _ hd => absurd hd List.not_mem_nil⟩
  | change buffer => exact delivers_move (k := { k with buffer }) .call
  | clear => exact (delivers_move (k := { k with buffer := k.buffer.clear }) .reset).hand
  | flush => exact (delivers_move .reset).hand
  | tick i => exact delivers_move (.tick i)
  | close => exact delivers_move (k := k) .cancel

/-- A run, less its last step. -/
theorem run_concat (steps : List Controller.Step) (s : Controller.Step) :
    k.run (steps ++ [s]) = (k.run steps).step s := List.foldl_concat ..

/-- **Every delivery of a run is of a frame of the run.** -/
theorem exists_frame_of_mem_deliveries (hstart : k.deliveries = [])
    {steps : List Controller.Step} {d : Delivery} (hd : d ∈ (k.run steps).deliveries) :
    ∃ before, before <+: steps ∧ (k.run before).frame = .ok d.frame := by
  induction steps using List.reverseRecOn with
  | nil =>
    rw [show k.run [] = k from rfl, hstart] at hd
    exact absurd hd List.not_mem_nil
  | append_singleton steps s ih =>
    obtain ⟨new, hnew, hframe⟩ := delivers_step (k := k.run steps) s
    rw [run_concat, hnew] at hd
    rcases List.mem_append.1 hd with hd | hd
    · obtain ⟨before, hbefore, hframe⟩ := ih hd
      exact ⟨before, hbefore.trans (List.prefix_append ..), hframe⟩
    · refine ⟨steps ++ [s], List.prefix_rfl, ?_⟩
      rw [run_concat]
      exact hframe d hd

/-- **What holds of any two frames of a run, one after the other, holds of its deliveries.** -/
theorem pairwise_deliveries_run {R : Frame → Frame → Prop} (hstart : k.deliveries = [])
    {steps : List Controller.Step}
    (h : ∀ before after, before <+: after → after <+: steps → ∀ f g,
      (k.run before).frame = .ok f → (k.run after).frame = .ok g → R f g) :
    (k.run steps).deliveries.Pairwise fun d e => R d.frame e.frame := by
  induction steps using List.reverseRecOn with
  | nil =>
    rw [show k.run [] = k from rfl, hstart]
    exact List.Pairwise.nil
  | append_singleton steps s ih =>
    have hearlier := ih fun before after hba hafter =>
      h before after hba (hafter.trans (List.prefix_append ..))
    obtain ⟨new, hnew, hframe⟩ := delivers_step (k := k.run steps) s
    rw [← run_concat] at hnew hframe
    rw [hnew]
    refine List.pairwise_append.2 ⟨hearlier, ?_, fun d hd e he => ?_⟩
    · exact List.pairwise_of_forall_mem_list fun d hd e he =>
        h _ _ List.prefix_rfl List.prefix_rfl _ _ (hframe d hd) (hframe e he)
    · obtain ⟨before, hbefore, hd⟩ := exists_frame_of_mem_deliveries hstart hd
      exact h before _ (hbefore.trans (List.prefix_append ..)) List.prefix_rfl _ _ hd (hframe e he)

end Core

/-! ## What is shown of the arrivals -/

/-- The window of a frame, if there is one, ends at no time after that of another. -/
def Frame.EndsBy (f g : Frame) : Prop :=
  ∀ lo hi lo' hi', f.domain = some (lo, hi) → g.domain = some (lo', hi') → hi.le hi' = true

/-- The window of a frame is the span of its rows. -/
theorem domain_frameOf {spec : Spec} {b : Binding} (hb : spec.temporal = some b)
    (hbound : b.isBound = true) {rows : List Row} (h : ∀ row ∈ rows, b.Dates row) {f : Frame}
    (hf : frameOf spec rows = .ok f) : f.domain = b.span b.timeOf rows := by
  rw [frameOf_eq hb hbound h] at hf
  cases hmask : frameMask spec (b.span b.timeOf rows) with
  | error e =>
    rw [hmask] at hf
    cases hf
  | ok mask =>
    rw [hmask] at hf
    obtain rfl := Except.ok.inj hf
    rfl

namespace Controller

/-- The rows that a run takes in come before those that a longer run takes in after them. -/
theorem arrivals_prefix (columns : List Column) {before steps : List Step}
    (h : before <+: steps) : arrivals columns before <+: arrivals columns steps := by
  obtain ⟨rest, rfl⟩ := h
  rw [arrivals, arrivals, List.flatMap_append]
  exact List.prefix_append ..

end Controller

namespace Setup

variable (setup : Setup) (columns : List Column) (spec : Spec)

/-- The rows of a run that takes no rows away. -/
theorem rows_run_append {steps : List Controller.Step}
    (hsteps : ∀ s ∈ steps, s.appendsOnly spec.streaming.mode = true) :
    ((setup.controller columns spec).run steps).buffer.rows
      = lastN spec.streaming.capacity (Controller.arrivals columns steps) := by
  have hrun := Core.rows_run_append (k := (setup.controller columns spec).core) rfl hsteps
    (lastN_nil _).symm
  rw [← Controller.core_run, List.nil_append] at hrun
  exact hrun

/-- The frame of a run that takes no rows away. -/
theorem frame_run_append {steps : List Controller.Step}
    (hsteps : ∀ s ∈ steps, s.appendsOnly spec.streaming.mode = true) :
    ((setup.controller columns spec).run steps).frame
      = frameOf spec (lastN spec.streaming.capacity (Controller.arrivals columns steps)) := by
  rw [Controller.frame_run, rows_run_append setup columns spec hsteps]
  rfl

variable {columns spec} {b : Binding} {steps : List Controller.Step}

/-- **The windows of a run do not go back** while rows arrive in order. -/
theorem endsBy_run (hb : spec.temporal = some b) (hbound : b.isBound = true)
    (hsteps : ∀ s ∈ steps, s.appendsOnly spec.streaming.mode = true)
    (horder : Chronological b.timeOf (Controller.arrivals columns steps))
    {before after : List Controller.Step} (hbefore : before <+: after) (hafter : after <+: steps)
    {f g : Frame} (hf : ((setup.controller columns spec).run before).frame = .ok f)
    (hg : ((setup.controller columns spec).run after).frame = .ok g) : f.EndsBy g := by
  have hlater := horder.sublist (Controller.arrivals_prefix columns hafter).sublist
  have hearlier := hlater.sublist (Controller.arrivals_prefix columns hbefore).sublist
  rw [frame_run_append setup columns spec fun s hs =>
    hsteps s ((hbefore.trans hafter).subset hs)] at hf
  rw [frame_run_append setup columns spec fun s hs => hsteps s (hafter.subset hs)] at hg
  intro lo hi lo' hi' hfirst hsecond
  rw [domain_frameOf hb hbound (hearlier.lastN _).dates hf] at hfirst
  rw [domain_frameOf hb hbound (hlater.lastN _).dates hg] at hsecond
  by_cases hmode : b.mode = .axis
  · rw [Binding.span_axis hmode] at hfirst hsecond
    exact hlater.windowOf_lastN_mono spec.streaming.capacity_pos
      (Controller.arrivals_prefix columns hbefore) hfirst hsecond
  · rw [Binding.span_of_ne_axis hmode] at hfirst
    cases hfirst

/-- The windows of the frames that a run delivers do not go back while rows arrive in order. -/
theorem pairwise_endsBy_run (hb : spec.temporal = some b) (hbound : b.isBound = true)
    (hsteps : ∀ s ∈ steps, s.appendsOnly spec.streaming.mode = true)
    (horder : Chronological b.timeOf (Controller.arrivals columns steps)) :
    ((setup.controller columns spec).run steps).deliveries.Pairwise fun d e =>
      d.frame.EndsBy e.frame := by
  show ((setup.controller columns spec).run steps).core.deliveries.Pairwise _
  rw [Controller.core_run]
  refine Core.pairwise_deliveries_run rfl fun before after hbefore hafter f g hf hg => ?_
  rw [← Controller.core_run] at hf hg
  exact endsBy_run setup hb hbound hsteps horder hbefore hafter hf hg

end Setup

/-- **A stream in order loses nothing but the oldest rows of its view.**  Where a run takes no rows
away and all rows that arrive have a time and arrive in order of time, the view of the buffer is the
last rows of the view of all that arrived, an end of the buffer as the rows arrived, and ends with
the last of them.  In axis mode the window ends at the time of this row, and no frame that is
resolved or delivered has a window that ends before that of an earlier one. -/
theorem Setup.view_run_inOrder (setup : Setup) (columns : List Column) (spec : Spec) {b : Binding}
    (hb : spec.temporal = some b) (hbound : b.isBound = true) (hmode : b.mode ≠ .key)
    (steps : List Controller.Step)
    (hsteps : ∀ s ∈ steps, s.appendsOnly spec.streaming.mode = true)
    (horder : Chronological b.timeOf (Controller.arrivals columns steps)) :
    let c := (setup.controller columns spec).run steps
    ∃ all shown window, view (some b) (Controller.arrivals columns steps) = .ok all ∧
      view (some b) c.buffer.rows = .ok shown ∧
      timeWindow (some b) c.buffer.rows = .ok window ∧
      c.frame = (frameMask spec window).map (fun mask => ⟨shown, window, mask⟩) ∧
      shown = lastN spec.streaming.capacity all ∧ shown <:+ c.buffer.rows ∧
      shown.getLast? = c.buffer.rows.getLast? ∧
      (b.mode = .axis → ∀ row, shown.getLast? = some row → ∃ lo hi t,
        window = some (lo, hi) ∧ b.timeOf row = some t ∧ hi.same t = true) ∧
      (∀ before, before <+: steps → ∀ f g,
        ((setup.controller columns spec).run before).frame = .ok f → c.frame = .ok g →
          f.EndsBy g) ∧
      c.deliveries.Pairwise fun d e => d.frame.EndsBy e.frame := by
  intro c
  -- the buffer holds the last of the arrivals, and these are in order too
  have hrows : c.buffer.rows = _ := rows_run_append setup columns spec hsteps
  have hframe : c.frame = _ := frame_run_append setup columns spec hsteps
  have hkept := horder.lastN spec.streaming.capacity
  have hlast : (b.select b.timeOf b.rowKey (lastN spec.streaming.capacity _)).getLast? = _ :=
    Binding.getLast?_select hmode hkept
  rw [hrows, hframe]
  refine ⟨_, _, _, viewOf_eq_ok hbound id horder.dates, viewOf_eq_ok hbound id hkept.dates,
    timeWindowOf_eq_ok hbound id hkept.dates, frameOf_eq hb hbound hkept.dates,
    Binding.select_lastN hmode horder spec.streaming.capacity_pos,
    Binding.select_suffix hmode hkept, hlast, fun haxis row hrow => ?_,
    fun before hbefore f g hf hg => ?_, ?_⟩
  · obtain ⟨lo, hi, t, hwindow, ht⟩ := hkept.windowOf_eq b.range (hlast.symm.trans hrow)
    exact ⟨lo, hi, t, (Binding.span_axis haxis ..).trans hwindow, ht⟩
  · exact endsBy_run setup hb hbound hsteps horder hbefore List.prefix_rfl hf (hframe.trans hg)
  · exact pairwise_endsBy_run setup hb hbound hsteps horder

/-- A window of the last minute. -/
def minuteBinding : Binding :=
  { mode := .axis, field := some (.name "v"), range := .minute }

/-- A chart of the last minute that keeps two rows. -/
def minuteSpec : Spec :=
  { marks := [], streaming := { capacity := 2 }, temporal := some minuteBinding }

/-- Three rows arrive in a minute, the last two at one time, and two are kept. -/
theorem Setup.view_run_inOrder_arrivals :
    let steps := [arrival 1, arrival 2, .resolve, arrival 2]
    let arrived := Controller.arrivals [] steps
    ((∀ s ∈ steps, s.appendsOnly minuteSpec.streaming.mode = true) ∧
      Chronological minuteBinding.timeOf arrived) ∧
    let c := (plainSetup.controller [] minuteSpec).run steps
    ∃ all shown window, view (some minuteBinding) arrived = .ok all ∧
      view (some minuteBinding) c.buffer.rows = .ok shown ∧
      timeWindow (some minuteBinding) c.buffer.rows = .ok window ∧
      c.frame = (frameMask minuteSpec window).map (fun mask => ⟨shown, window, mask⟩) ∧
      shown = lastN minuteSpec.streaming.capacity all ∧ shown <:+ c.buffer.rows ∧
      shown.getLast? = c.buffer.rows.getLast? ∧
      (minuteBinding.mode = .axis → ∀ row, shown.getLast? = some row → ∃ lo hi t,
        window = some (lo, hi) ∧ minuteBinding.timeOf row = some t ∧ hi.same t = true) ∧
      (∀ before, before <+: steps → ∀ f g,
        ((plainSetup.controller [] minuteSpec).run before).frame = .ok f → c.frame = .ok g →
          f.EndsBy g) ∧
      c.deliveries.Pairwise fun d e => d.frame.EndsBy e.frame := by
  intro steps arrived
  have hsteps : ∀ s ∈ steps, s.appendsOnly minuteSpec.streaming.mode = true := by
    simp [steps, arrival, Controller.Step.appendsOnly]
  have hordered : arrived.Pairwise fun row next => (minuteBinding.timeOf row).all fun t =>
      (minuteBinding.timeOf next).all fun u => t.le u := by decide +kernel
  have hchronological : Chronological minuteBinding.timeOf arrived := by
    refine ⟨by decide +kernel, hordered.imp fun {row next} hle t u ht hu => ?_⟩
    rw [ht, hu] at hle
    exact hle
  have htemporal : minuteSpec.temporal = some minuteBinding := rfl
  have hbound : minuteBinding.isBound = true := rfl
  have hmode : minuteBinding.mode ≠ .key := TemporalMode.noConfusion
  exact ⟨⟨hsteps, hchronological⟩, Setup.view_run_inOrder plainSetup [] minuteSpec htemporal hbound
    hmode steps hsteps hchronological⟩

end LiveChart
