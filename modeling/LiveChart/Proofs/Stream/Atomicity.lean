import LiveChart.Proofs.Stream.Independence
/-!
# Changes take place as a whole or not at all

A change of the rows can be refused: the controller may be closed, or the rows that are given may
not be there to be read.  It is refused before anything happens, and what happens afterwards cannot
fail it, since a failure of the renderer does not reach the one who changes the rows.  To clear is
different: it delivers the empty view itself, and a renderer that fails then fails the clear, whose
changes have taken place.

* `Controller.AllOrNothing` : a step that is refused without effect, or gives back counts;
* `Controller.Clearing` : what becomes of a clear;
* `Controller.Atomic` : both, of every change of the rows;
* `Setup.atomic_run` : every controller is so after every run.
-/

namespace LiveChart

/-! ## Nothing is pending where windows do not last -/

namespace Notifier

variable {n : Notifier}

/-- Where every call fires, nothing becomes pending. -/
theorem move_pending_of_isImmediate (himmediate : n.isImmediate = true) (h : n.pending = false)
    (step : NotifierStep) : (n.move step).1.pending = false := by
  cases step with
  | call =>
    show n.call.1.pending = false
    rw [call, if_pos himmediate]
    exact h
  | cancel => exact cancel_pending n
  | reset =>
    show n.reset.pending = false
    rw [reset, if_pos himmediate]
    exact h
  | tick i =>
    cases hi : n.number? i with
    | none =>
      rw [move_tick_none hi]
      exact h
    | some k =>
      obtain ⟨t, ht⟩ := exists_of_number? hi
      rw [move_tick hi ht, tick_eq]
      split_ifs
      · exact h
      · rfl
      · rfl

/-- What holds of a notifier whose timers may tick at any time, however often: it is sound, and
nothing is pending where every call fires. -/
structure Settled (n : Notifier) : Prop extends n.Sound where
  immediate : n.isImmediate = true → n.pending = false

/-- A new notifier is settled. -/
theorem Settled.ofMillis (millis : Double) (cancellable : Bool) :
    (ofMillis millis cancellable).Settled :=
  ⟨Sound.ofMillis millis cancellable, fun _ => rfl⟩

/-- Every operation keeps a notifier settled. -/
theorem Settled.move (h : n.Settled) (step : NotifierStep) : (n.move step).1.Settled := by
  refine ⟨h.toSound.move step, fun himmediate => ?_⟩
  rw [move_isImmediate] at himmediate
  exact move_pending_of_isImmediate himmediate (h.immediate himmediate) step

/-- A window is fresh: its timer is a new one of the current generation and is not cancelled, and
nothing is pending. -/
structure FreshAfter (before after : Notifier) : Prop where
  current : after.current = some before.timers.length
  timer : after.timers[before.timers.length]?
    = some { delay := before.interval, cancelled := false, generation := after.generation }
  pending : after.pending = false

/-- **A reset opens a fresh window**, where windows last. -/
theorem Settled.freshAfter_reset (h : n.Settled) (himmediate : n.isImmediate = false) :
    FreshAfter n n.reset := by
  have hreset := reset_eq h.toSound himmediate
  refine ⟨?_, ?_, ?_⟩
  · rw [hreset, ← length_cancel n]
    rfl
  · rw [hreset, getElem?_openWindow, if_pos (length_cancel n).symm, cancel_interval]
    rfl
  · rw [hreset]
    exact cancel_pending n

/-- A reset leaves nothing pending. -/
theorem Settled.reset_pending (h : n.Settled) : n.reset.pending = false := by
  cases himmediate : n.isImmediate with
  | true => exact move_pending_of_isImmediate himmediate (h.immediate himmediate) .reset
  | false => exact (h.freshAfter_reset himmediate).pending

end Notifier

/-! ## The empty view -/

/-- There is a view of no rows. -/
theorem view_nil (binding : Option Binding) : view binding [] = .ok [] := by
  rcases binding with - | ⟨mode, - | field, range, orderField⟩ <;> rfl

/-- There is a frame of no rows. -/
theorem exists_frameOf_nil (spec : Spec) : ∃ f, frameOf spec [] = .ok f := by
  have hdomain : timeWindow spec.temporal [] = .ok none := by
    rcases spec.temporal with - | ⟨mode, - | field, range, orderField⟩
    · rfl
    · rfl
    · cases mode <;> rfl
  have hmask : ∃ mask, frameMask spec none = .ok mask := by
    unfold frameMask
    split
    · exact ⟨_, rfl⟩
    · exact ⟨_, rfl⟩
  obtain ⟨mask, hmask⟩ := hmask
  refine ⟨⟨[], none, mask⟩, ?_⟩
  rw [frameOf, view_nil, hdomain]
  dsimp only [bind, Except.bind]
  rw [hmask]
  rfl

namespace Controller

variable {c : Controller}

/-! ## Deliveries that fail -/

/-- Whether the renderer fails at the next frame. -/
def rendererFails (c : Controller) : Bool :=
  c.renders && c.failing.contains c.deliveries.length

/-- A delivery fails just if the renderer does. -/
theorem deliver_isOk (c : Controller) (f : Frame) : (c.deliver f).2.isOk = !c.rendererFails := by
  unfold deliver rendererFails
  cases c.renders with
  | false => rfl
  | true => cases c.failing.contains c.deliveries.length <;> rfl

/-- Whether the renderer fails is not changed by what is reported. -/
theorem rendererFails_congr {d : Controller} (h : c.core = d.core) :
    c.rendererFails = d.rendererFails := by
  have hrenders : c.renders = d.renders := congrArg Core.renders h
  have hfailing : c.failing = d.failing := congrArg Core.failing h
  have hdeliveries : c.deliveries = d.deliveries := congrArg Core.deliveries h
  rw [rendererFails, rendererFails, hrenders, hfailing, hdeliveries]

/-- To emit a frame fails just if the renderer does. -/
theorem emit_isOk {f : Frame} (h : c.frame = .ok f) : c.emit.2.isOk = !c.rendererFails := by
  have hresolve : c.resolve = (c.report c.frameLines, .ok f) := by rw [resolve, h]
  unfold emit
  rw [hresolve]
  dsimp only
  rw [deliver_isOk, rendererFails_congr ((core_reportRender _ f).trans (core_report ..))]

/-! ## Changes -/

/-- A step is refused just under a condition, and then nothing happens; otherwise it gives back
counts. -/
structure AllOrNothing (c : Controller) (s : Step) (refused : Prop) : Prop where
  fails_iff : (c.step s).2.isOk = false ↔ refused
  unchanged : (c.step s).2.isOk = false → (c.step s).1 = c
  counts : (c.step s).2.isOk = true → ∃ counts, (c.step s).2 = .ok (.counts counts)

/-- A clear fails if the controller is closed, and then nothing happens, or if the renderer fails.
An open controller loses its rows and what is pending, and where windows last it opens a fresh
one. -/
structure Clearing (c : Controller) : Prop where
  fails_iff : (c.step .clear).2.isOk = false ↔ c.closed = true ∨ c.rendererFails = true
  unchanged : c.closed = true → (c.step .clear).1 = c
  emptied : c.closed = false → (c.step .clear).1.buffer.rows = []
  dropped : c.closed = false → (c.step .clear).1.notifier.pending = false
  restarted : c.closed = false → c.notifier.isImmediate = false →
    Notifier.FreshAfter c.notifier (c.step .clear).1.notifier

/-- Changes of the rows take place as a whole or not at all. -/
structure Atomic (c : Controller) : Prop where
  append : ∀ rows, c.AllOrNothing (.append rows) (c.closed = true ∨ rows.elements.isOk = false)
  replace : ∀ rows, c.AllOrNothing (.replace rows) (c.closed = true ∨ rows.elements.isOk = false)
  ingest : ∀ columns rows isLive source, Source.ofValues columns rows isLive = .ok source →
    c.AllOrNothing (.ingest columns rows isLive) (c.closed = true)
  clear : c.Clearing

/-- A step that either fails and leaves the controller, or gives back counts. -/
theorem AllOrNothing.of_cases {s : Step} {refused : Prop}
    (hrefused : refused → ∃ e, c.step s = (c, .error e))
    (hdone : ¬refused → ∃ d counts, c.step s = (d, .ok (.counts counts))) :
    c.AllOrNothing s refused := by
  by_cases h : refused
  · obtain ⟨e, he⟩ := hrefused h
    refine ⟨?_, ?_, ?_⟩ <;> rw [he]
    · exact iff_of_true rfl h
    · exact fun _ => rfl
    · exact fun hok => nomatch hok
  · obtain ⟨d, counts, hd⟩ := hdone h
    refine ⟨?_, ?_, ?_⟩ <;> rw [hd]
    · exact iff_of_false (fun hok => nomatch hok) h
    · exact fun hok => nomatch hok
    · exact fun _ => ⟨counts, rfl⟩

/-- What is done with the elements of a value by an open controller gives back counts. -/
theorem allOrNothing_withElements {s : Step} {rows : Value}
    {op : Controller → List Value → Controller × Counts}
    (hs : c.step s = c.whileOpen (withElements rows op)) :
    c.AllOrNothing s (c.closed = true ∨ rows.elements.isOk = false) := by
  apply AllOrNothing.of_cases
  case hrefused =>
    intro hrefused
    rw [hs, whileOpen]
    split_ifs with hclosed
    · exact ⟨_, rfl⟩
    · rw [withElements]
      cases hrows : rows.elements with
      | error e => exact ⟨e, rfl⟩
      | ok items =>
        rw [hrows] at hrefused
        cases hrefused.resolve_left hclosed
  case hdone =>
    intro hdone
    obtain ⟨hopen, hrows⟩ := not_or.1 hdone
    rw [hs, whileOpen, if_neg hopen, withElements]
    cases helements : rows.elements with
    | error e =>
      rw [helements] at hrows
      exact absurd rfl hrows
    | ok items => exact ⟨_, _, rfl⟩

/-- A source that could be built is taken in by an open controller. -/
theorem allOrNothing_ingest {columns rows isLive : Value} {source : Source}
    (hsource : Source.ofValues columns rows isLive = .ok source) :
    c.AllOrNothing (.ingest columns rows isLive) (c.closed = true) := by
  apply AllOrNothing.of_cases
  case hrefused =>
    intro hclosed
    simp only [step, hsource, whileOpen, if_pos hclosed]
    exact ⟨_, rfl⟩
  case hdone =>
    intro hopen
    simp only [step, hsource, whileOpen, if_neg hopen]
    exact ⟨_, _, rfl⟩

/-- A clear delivers the empty view, after everything else took place. -/
theorem step_clear_isOk (c : Controller) :
    (c.step .clear).2.isOk = (!c.closed && !c.rendererFails) := by
  simp only [step, whileOpen]
  cases hclosed : c.closed with
  | true => rfl
  | false =>
    obtain ⟨f, hf⟩ := exists_frameOf_nil c.spec
    have hemit : c.clear.2.isOk = !c.rendererFails := emit_isOk hf
    rw [if_neg (by decide), Bool.not_false, Bool.true_and, ← hemit]
    cases c.clear.2 <;> rfl

/-- **What becomes of a clear.** -/
theorem clearing (h : c.notifier.Settled) : c.Clearing := by
  -- an open controller is cleared by the effect on its core, whatever the renderer does
  have hcore : c.closed = false → (c.step .clear).1.core = c.core.apply .clear := by
    intro hopen
    have heffect : c.core.effect .clear = .clear := by
      rw [Core.effect, show c.core.closed = _ from hopen]
      rfl
    rw [core_step, Core.step, heffect]
  have hnotifier : c.closed = false → (c.step .clear).1.notifier = c.notifier.reset := by
    intro hopen
    have happly := c.core.apply_notifier .clear
    rw [← hcore hopen] at happly
    exact happly
  constructor
  case fails_iff =>
    rw [step_clear_isOk]
    cases c.closed <;> cases c.rendererFails <;> decide
  case unchanged =>
    intro hclosed
    simp only [step, whileOpen, if_pos hclosed]
  case emptied =>
    intro hopen
    have hstore := c.core.apply_store .clear
    rw [← hcore hopen] at hstore
    exact congrArg (fun store => store.buffer.rows) hstore
  case dropped =>
    intro hopen
    rw [hnotifier hopen]
    exact h.reset_pending
  case restarted =>
    intro hopen himmediate
    rw [hnotifier hopen]
    exact h.freshAfter_reset himmediate

/-- **Changes of the rows take place as a whole or not at all**, where the notifier is settled. -/
theorem atomic (h : c.notifier.Settled) : c.Atomic where
  append _ := allOrNothing_withElements rfl
  replace _ := allOrNothing_withElements rfl
  ingest _ _ _ _ hsource := allOrNothing_ingest hsource
  clear := clearing h

/-! ## Runs -/

/-- A step keeps the notifier settled. -/
theorem settled_step (h : c.notifier.Settled) (s : Step) : (c.step s).1.notifier.Settled := by
  have hnotifier : (c.step s).1.notifier = (c.core.apply (c.core.effect s)).notifier :=
    congrArg Core.notifier (core_step c s)
  rw [hnotifier, Core.apply_notifier]
  split
  · exact h.move _
  · exact h

/-- A run keeps the notifier settled. -/
theorem settled_run (h : c.notifier.Settled) (steps : List Step) :
    (c.run steps).notifier.Settled := by
  induction steps generalizing c with
  | nil => exact h
  | cons s steps ih => exact ih (settled_step h s)

end Controller

/-- **Whatever a controller has been through, changes of its rows take place as a whole or not at
all.**  To append, to replace and to take in a source fail just if the controller is closed or the
given rows cannot be read; then the controller is as before, and otherwise they give back counts,
whatever becomes of the delivery.  To clear fails just if the controller is closed, which leaves it
as before, or the renderer fails, when the rows have left, nothing is pending and a fresh window is
open. -/
theorem Setup.atomic_run (setup : Setup) (columns : List Column) (spec : Spec)
    (steps : List Controller.Step) : ((setup.controller columns spec).run steps).Atomic := by
  have hnew : (setup.controller columns spec).notifier.Settled :=
    Notifier.Settled.ofMillis spec.streaming.throttle setup.cancellable
  exact Controller.atomic (Controller.settled_run hnew steps)

end LiveChart
