import LiveChart.Proofs.Stream.Window
import LiveChart.Stream.Setup
/-!
# What the steps of a controller come to

Of a controller only its rows, its notifier and its deliveries matter for what is shown, and a step
does one of a few things with them: it changes the rows and calls the notifier, it delivers at once
in a fresh window, or it is the tick of a timer.

* `Core` : a controller less its clock and what it reported;
* `Effect` and `Core.effect` : what a step does to the core;
* `Controller.core_step` and `Controller.core_run` : the core moves by itself;
* `Core.effect_cases` : the effects of the steps of an open controller.
-/

namespace LiveChart

/-! ## The core of a controller -/

/-- A controller less its clock and what it reported. -/
structure Core where
  columns : List Column
  spec : Spec
  renders : Bool
  failing : List ℕ
  closed : Bool
  buffer : Buffer Row
  notifier : Notifier
  deliveries : List Delivery

namespace Core

/-- What the chart shows now. -/
def frame (k : Core) : Result Frame := frameOf k.spec k.buffer.rows

/-- The delivery that is made now: the frame, if it can be resolved and there is a renderer. -/
def handed (k : Core) : List Delivery :=
  match k.frame with
  | .ok f => if k.renders then [⟨f, !k.failing.contains k.deliveries.length⟩] else []
  | .error _ => []

/-- The core after a delivery. -/
def hand (k : Core) : Core := { k with deliveries := k.deliveries ++ k.handed }

/-- The core after an operation of its notifier, which delivers if it fires. -/
def move (k : Core) (step : NotifierStep) : Core :=
  let moved := k.notifier.move step
  let k := { k with notifier := moved.1 }
  if moved.2 then k.hand else k

end Core

/-- What a step comes to. -/
inductive Effect where
  | nothing
  /-- The rows change, and the notifier is called. -/
  | change (buffer : Buffer Row)
  /-- The rows leave, and a fresh window opens with a delivery. -/
  | clear
  /-- A fresh window opens with a delivery. -/
  | flush
  | tick (timer : Int)
  | close

/-- The operation of the notifier that an effect stands for. -/
def Effect.move? : Effect → Option NotifierStep
  | .nothing => none
  | .change _ => some .call
  | .clear | .flush => some .reset
  | .tick i => some (.tick i)
  | .close => some .cancel

namespace Core

/-- The core after an effect. -/
def apply (k : Core) : Effect → Core
  | .nothing => k
  | .change buffer => { k with buffer }.move .call
  | .clear => ({ k with buffer := k.buffer.clear }.move .reset).hand
  | .flush => (k.move .reset).hand
  | .tick i => k.move (.tick i)
  | .close => { k.move .cancel with closed := true }

/-- What taking in a source comes to. -/
def ingestEffect (k : Core) (source : Source) : Effect :=
  match k.spec.streaming.mode with
  | .append => .change (k.buffer.append (accepted source.columns source.rows))
  | .replace => .change (k.buffer.replace (accepted source.columns source.rows))

/-- What a step comes to. -/
def effect (k : Core) : Controller.Step → Effect
  | .append rows =>
    match k.closed, rows.elements with
    | false, .ok items => .change (k.buffer.append (accepted k.columns items))
    | _, _ => .nothing
  | .replace rows =>
    match k.closed, rows.elements with
    | false, .ok items => .change (k.buffer.replace (accepted k.columns items))
    | _, _ => .nothing
  | .ingest columns rows isLive =>
    match k.closed, Source.ofValues columns rows isLive with
    | false, .ok source => k.ingestEffect source
    | _, _ => .nothing
  | .clear => if k.closed then .nothing else .clear
  | .flush => .flush
  | .tick i => .tick i
  | .close => .close
  | _ => .nothing

/-- The core after a step. -/
def step (k : Core) (s : Controller.Step) : Core := k.apply (k.effect s)

/-- The core after some steps. -/
def run (k : Core) (steps : List Controller.Step) : Core := steps.foldl step k

/-- What appending comes to. -/
theorem effect_append (k : Core) {rows : Value} {items : List Value}
    (hrows : rows.elements = .ok items) :
    k.effect (.append rows)
      = if k.closed then .nothing else .change (k.buffer.append (accepted k.columns items)) := by
  cases hclosed : k.closed <;> simp [effect, hclosed, hrows]

/-- What replacing comes to. -/
theorem effect_replace (k : Core) {rows : Value} {items : List Value}
    (hrows : rows.elements = .ok items) :
    k.effect (.replace rows)
      = if k.closed then .nothing else .change (k.buffer.replace (accepted k.columns items)) := by
  cases hclosed : k.closed <;> simp [effect, hclosed, hrows]

/-- What taking in a source comes to. -/
theorem effect_ingest (k : Core) {columns rows isLive : Value} {source : Source}
    (hsource : Source.ofValues columns rows isLive = .ok source) :
    k.effect (.ingest columns rows isLive)
      = if k.closed then .nothing else k.ingestEffect source := by
  cases hclosed : k.closed <;> simp [effect, hclosed, hsource]

/-! ## What an effect keeps -/

variable (k : Core) (step : NotifierStep) (e : Effect)

/-- An operation of the notifier changes the notifier, and delivers if it fires. -/
theorem move_eq : k.move step = { k with
    notifier := (k.notifier.move step).1
    deliveries :=
      if (k.notifier.move step).2 then k.deliveries ++ k.handed else k.deliveries } := by
  unfold move
  dsimp only
  split_ifs <;> rfl

@[simp] theorem move_spec : (k.move step).spec = k.spec := by rw [move_eq]

@[simp] theorem move_renders : (k.move step).renders = k.renders := by rw [move_eq]

@[simp] theorem move_closed : (k.move step).closed = k.closed := by rw [move_eq]

@[simp] theorem move_notifier : (k.move step).notifier = (k.notifier.move step).1 := by rw [move_eq]

/-- A fire delivers, and nothing else does. -/
theorem move_deliveries : (k.move step).deliveries =
    if (k.notifier.move step).2 then k.deliveries ++ k.handed else k.deliveries := by
  rw [move_eq]

@[simp] theorem apply_spec : (k.apply e).spec = k.spec := by
  cases e <;> first | rfl | exact move_spec ..

@[simp] theorem apply_renders : (k.apply e).renders = k.renders := by
  cases e <;> first | rfl | exact move_renders ..

/-- A run keeps the specification. -/
theorem run_spec (steps : List Controller.Step) : (k.run steps).spec = k.spec := by
  induction steps generalizing k with
  | nil => rfl
  | cons s steps ih => exact (ih (k.step s)).trans (apply_spec k (k.effect s))

/-- Only to close changes whether a controller is closed. -/
theorem apply_closed (he : e ≠ .close) : (k.apply e).closed = k.closed := by
  cases e with
  | close => exact absurd rfl he
  | nothing => rfl
  | change => exact move_closed ..
  | clear => exact move_closed ..
  | flush => exact move_closed ..
  | tick => exact move_closed ..

/-- The notifier after an effect. -/
theorem apply_notifier : (k.apply e).notifier =
    match e.move? with
    | some step => (k.notifier.move step).1
    | none => k.notifier := by
  cases e with
  | nothing => rfl
  | change buffer => exact move_notifier { k with buffer } .call
  | clear => exact move_notifier { k with buffer := k.buffer.clear } .reset
  | flush => exact move_notifier k .reset
  | tick i => exact move_notifier k (.tick i)
  | close => exact move_notifier k .cancel

/-- Deliveries are never taken back. -/
theorem deliveries_prefix_move : k.deliveries <+: (k.move step).deliveries := by
  rw [move_deliveries]
  split_ifs
  · exact List.prefix_append ..
  · exact List.prefix_rfl

/-- Deliveries are never taken back. -/
theorem deliveries_prefix_apply : k.deliveries <+: (k.apply e).deliveries := by
  cases e with
  | nothing => exact List.prefix_rfl
  | change buffer => exact deliveries_prefix_move { k with buffer } .call
  | clear =>
    exact (deliveries_prefix_move { k with buffer := k.buffer.clear } .reset).trans
      (List.prefix_append ..)
  | flush => exact (deliveries_prefix_move k .reset).trans (List.prefix_append ..)
  | tick => exact deliveries_prefix_move ..
  | close => exact deliveries_prefix_move k .cancel

end Core

/-! ## The steps that change the rows -/

namespace Controller

/-- Whether a step changes the rows of an open controller: its arguments can be read. -/
def Step.changes : Step → Bool
  | .append rows | .replace rows => rows.elements.isOk
  | .ingest columns rows isLive => (Source.ofValues columns rows isLive).isOk
  | .clear => true
  | _ => false

end Controller

namespace Core

/-- **The effects of the steps of an open controller.** -/
theorem effect_cases {k : Core} (hopen : k.closed = false) (s : Controller.Step) :
    (k.effect s = .nothing ∧ s.changes = false ∧ ∀ i, s ≠ .tick i) ∨
      (∃ buffer, k.effect s = .change buffer ∧ s.changes = true ∧ ∀ i, s ≠ .tick i) ∨
      (s = .clear ∧ k.effect s = .clear) ∨ (s = .flush ∧ k.effect s = .flush) ∨
      (∃ i, s = .tick i ∧ k.effect s = .tick i) ∨ (s = .close ∧ k.effect s = .close) := by
  -- a step that brings rows changes nothing if they cannot be taken out of the value
  cases s with
  | append rows =>
    cases hrows : rows.elements with
    | error e =>
      refine .inl ⟨?_, by rw [Controller.Step.changes, hrows]; rfl, fun _ h => nomatch h⟩
      simp only [effect, hopen, hrows]
    | ok items =>
      refine .inr (.inl ⟨k.buffer.append (accepted k.columns items), ?_,
        by rw [Controller.Step.changes, hrows]; rfl, fun _ h => nomatch h⟩)
      simp only [effect, hopen, hrows]
  | replace rows =>
    cases hrows : rows.elements with
    | error e =>
      refine .inl ⟨?_, by rw [Controller.Step.changes, hrows]; rfl, fun _ h => nomatch h⟩
      simp only [effect, hopen, hrows]
    | ok items =>
      refine .inr (.inl ⟨k.buffer.replace (accepted k.columns items), ?_,
        by rw [Controller.Step.changes, hrows]; rfl, fun _ h => nomatch h⟩)
      simp only [effect, hopen, hrows]
  | ingest columns rows isLive =>
    cases hsource : Source.ofValues columns rows isLive with
    | error e =>
      refine .inl ⟨?_, by rw [Controller.Step.changes, hsource]; rfl, fun _ h => nomatch h⟩
      simp only [effect, hopen, hsource]
    | ok source =>
      have heffect : k.effect (.ingest columns rows isLive) = k.ingestEffect source := by
        simp only [effect, hopen, hsource]
      have hbuffer : ∃ buffer, k.ingestEffect source = .change buffer := by
        unfold ingestEffect
        cases k.spec.streaming.mode <;> exact ⟨_, rfl⟩
      obtain ⟨buffer, hbuffer⟩ := hbuffer
      exact .inr (.inl ⟨buffer, heffect.trans hbuffer,
        by rw [Controller.Step.changes, hsource]; rfl, fun _ h => nomatch h⟩)
  | clear =>
    refine .inr (.inr (.inl ⟨rfl, ?_⟩))
    simp only [effect, hopen, Bool.false_eq_true, if_false]
  | flush => exact .inr (.inr (.inr (.inl ⟨rfl, rfl⟩)))
  | tick i => exact .inr (.inr (.inr (.inr (.inl ⟨i, rfl, rfl⟩))))
  | close => exact .inr (.inr (.inr (.inr (.inr ⟨rfl, rfl⟩))))
  | resolve => exact .inl ⟨rfl, rfl, fun _ h => nomatch h⟩
  | snapshot => exact .inl ⟨rfl, rfl, fun _ h => nomatch h⟩
  | describe => exact .inl ⟨rfl, rfl, fun _ h => nomatch h⟩
  | sleep => exact .inl ⟨rfl, rfl, fun _ h => nomatch h⟩

/-- An open controller stays open until it is closed. -/
theorem step_closed {k : Core} {s : Controller.Step} (hopen : k.closed = false)
    (hclose : s ≠ .close) : (k.step s).closed = false := by
  have heffect : k.effect s ≠ .close := by
    intro heffect
    rcases effect_cases hopen s with ⟨he, -⟩ | ⟨_, he, -⟩ | ⟨-, he⟩ | ⟨-, he⟩ | ⟨_, -, he⟩ |
      ⟨rfl, -⟩ <;> first | exact hclose rfl | (rw [heffect] at he; cases he)
  rw [step, apply_closed _ _ heffect, hopen]

end Core

namespace Controller

/-- The core of a controller. -/
def core (c : Controller) : Core where
  columns := c.columns
  spec := c.spec
  renders := c.renders
  failing := c.failing
  closed := c.closed
  buffer := c.buffer
  notifier := c.notifier
  deliveries := c.deliveries

/-! ## Deliveries -/

@[simp] theorem core_report (c : Controller) (lines : List Log.Line) :
    (c.report lines).core = c.core := rfl

@[simp] theorem core_reportRender (c : Controller) (f : Frame) :
    (c.reportRender f).core = c.core := by
  unfold reportRender
  extract_lets informs informed debugs
  have hinformed : informed.core = c.core := by
    unfold informed
    split_ifs <;> rfl
  split_ifs
  · exact hinformed
  · exact hinformed

/-- A frame that is handed to the renderer is a delivery. -/
theorem core_deliver (c : Controller) {f : Frame} (h : c.core.frame = .ok f) :
    (c.deliver f).1.core = c.core.hand := by
  unfold deliver Core.hand Core.handed
  rw [h]
  dsimp only
  have hcore : c.core.renders = c.renders := rfl
  rw [hcore]
  by_cases hrenders : c.renders = true
  · rw [if_neg (by rw [hrenders]; decide), if_pos hrenders]
    rfl
  · rw [if_pos (by simpa using hrenders), if_neg hrenders, List.append_nil]
    rfl

/-- To emit is to deliver, unless no frame can be resolved. -/
theorem core_emit (c : Controller) : c.emit.1.core = c.core.hand := by
  have hresolve : c.resolve = (c.report c.frameLines, c.core.frame) := rfl
  unfold emit
  rw [hresolve]
  cases hframe : c.core.frame with
  | error e =>
    dsimp only
    rw [core_report, Core.hand, Core.handed, hframe, List.append_nil]
  | ok f =>
    dsimp only
    rw [core_deliver, core_reportRender, core_report]
    rw [core_reportRender, core_report]
    exact hframe

/-- A fire delivers, whatever becomes of the frame. -/
theorem core_fire (c : Controller) : c.fire.core = c.core.hand := by
  rw [← core_emit]
  unfold fire
  rcases c.emit with ⟨c', - | -⟩ <;> rfl

/-- The core after an operation of the notifier. -/
theorem core_afterNotifier (c : Controller) (step : NotifierStep) :
    (c.afterNotifier (c.notifier.move step)).core = c.core.move step := by
  unfold afterNotifier Core.move
  dsimp only
  rw [apply_ite core, core_fire]
  rfl

/-! ## Steps -/

theorem core_appendBatch (c : Controller) (columns : List Column) (rows : List Value) :
    (c.appendBatch columns rows).1.core
      = c.core.apply (.change (c.buffer.append (accepted columns rows))) := by
  unfold appendBatch
  exact core_afterNotifier _ .call

theorem core_replaceBatch (c : Controller) (columns : List Column) (rows : List Value) :
    (c.replaceBatch columns rows).1.core
      = c.core.apply (.change (c.buffer.replace (accepted columns rows))) := by
  unfold replaceBatch
  exact core_afterNotifier _ .call

theorem core_ingest (c : Controller) (source : Source) :
    (c.ingest source).1.core = c.core.apply (c.core.ingestEffect source) := by
  unfold ingest Core.ingestEffect
  have hspec : c.core.spec = c.spec := rfl
  rw [hspec]
  cases c.spec.streaming.mode with
  | append => exact core_appendBatch c _ _
  | replace => exact core_replaceBatch c _ _

/-- The core after an operation with the elements of a value, if there are any and the controller is
open. -/
theorem core_withElements (c : Controller) (rows : Value)
    {op : Controller → List Value → Controller × Counts} {buffer : List Value → Buffer Row}
    (hop : ∀ items, (op c items).1.core = c.core.apply (.change (buffer items))) :
    (c.whileOpen (withElements rows op)).1.core
      = c.core.apply (match c.core.closed, rows.elements with
          | false, .ok items => .change (buffer items)
          | _, _ => .nothing) := by
  have hcore : c.core.closed = c.closed := rfl
  rw [hcore]
  unfold whileOpen withElements
  cases c.closed with
  | true => rfl
  | false =>
    cases rows.elements with
    | error e => rfl
    | ok items => exact hop items

/-- **The core moves by itself.**  Every step has its effect on the core, whatever else there is. -/
theorem core_step (c : Controller) (s : Step) : (c.step s).1.core = c.core.step s := by
  unfold Core.step
  cases s with
  | append rows => exact c.core_withElements rows fun items => core_appendBatch c c.columns items
  | replace rows => exact c.core_withElements rows fun items => core_replaceBatch c c.columns items
  | ingest columns rows isLive =>
    cases hclosed : c.closed <;> cases hsource : Source.ofValues columns rows isLive <;>
      simp only [step, whileOpen, Core.effect, show c.core.closed = _ from hclosed, hclosed,
        hsource, if_true, Bool.false_eq_true, if_false]
    · rfl
    · exact core_ingest c _
    · rfl
    · rfl
  | clear =>
    cases hclosed : c.closed <;>
      simp only [step, whileOpen, Core.effect, show c.core.closed = _ from hclosed, hclosed,
        if_true, Bool.false_eq_true, if_false]
    · exact core_emit _
    · rfl
  | flush => exact core_emit _
  | tick i =>
    have heffect : c.core.apply (c.core.effect (.tick i)) = c.core.move (.tick i) := rfl
    rw [heffect, ← core_afterNotifier]
    -- a timer that was never started moves neither the controller nor its core
    cases ht : c.notifier.timerAt? i with
    | some t => simp only [step, Notifier.move, ht]
    | none =>
      simp only [step, Notifier.move, ht]
      rfl
  | close => rfl
  | resolve => rfl
  | snapshot => rfl
  | describe => rfl
  | sleep => rfl

/-- The controller after some steps. -/
def run (c : Controller) (steps : List Step) : Controller :=
  steps.foldl (fun c s => (c.step s).1) c

/-- The core of a run is the run of the core. -/
theorem core_run (c : Controller) (steps : List Step) : (c.run steps).core = c.core.run steps := by
  induction steps generalizing c with
  | nil => rfl
  | cons s steps ih =>
    show ((c.step s).1.run steps).core = (c.core.step s).run steps
    rw [ih, core_step]

end Controller

end LiveChart
