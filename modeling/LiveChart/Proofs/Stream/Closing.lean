import LiveChart.Proofs.Stream.Delivery
/-!
# Closed controllers

To close a controller drops its window with what is pending, and no later change reaches its rows or
its notifier.  So no timer of before fires any more, whenever it ticks.  A flush is the one step that
a closed controller still carries out: it hands over a frame of the rows as they were, and opens a
window where windows last.

* `Core.Shut` : a closed controller with nothing pending;
* `Core.effect_cases_of_closed` : what is left of the steps of a closed controller;
* `Core.Flushed` : what some flushes make of a controller, and nothing else;
* `Core.Shut.flushed_step` and `Core.Shut.flushed_run` : a closed controller is only flushed;
* `Controller.run_close` : what every run after a close comes to.
-/

namespace LiveChart

/-! ## Notifiers with nothing pending -/

namespace Notifier

variable {n : Notifier}

/-- While nothing is pending, no tick fires or starts a timer. -/
theorem tick_quiet (h : n.pending = false) (t : Timer) :
    (n.tick t).2 = false ∧ (n.tick t).1.pending = false ∧ (n.tick t).1.timers = n.timers := by
  have hnot : ¬n.pending = true := by rw [h]; decide
  rw [tick_eq, if_neg hnot]
  split_ifs with hgen
  · exact ⟨rfl, h, rfl⟩
  · exact ⟨rfl, rfl, rfl⟩

/-- While nothing is pending, no number of a timer, of one ever started or of none, makes a tick
that fires or starts a timer. -/
theorem move_tick_quiet (h : n.pending = false) (i : Int) :
    (n.move (.tick i)).2 = false ∧ (n.move (.tick i)).1.pending = false ∧
      (n.move (.tick i)).1.timers = n.timers := by
  cases hi : n.number? i with
  | none =>
    rw [move_tick_none hi]
    exact ⟨rfl, h, rfl⟩
  | some k =>
    obtain ⟨t, ht⟩ := exists_of_number? hi
    rw [move_tick hi ht]
    exact tick_quiet h t

/-- A reset leaves nothing pending where nothing was, and starts a timer where windows last. -/
theorem reset_quiet (h : n.pending = false) :
    n.reset.pending = false ∧
      n.reset.timers.length = n.timers.length + if n.isImmediate then 0 else 1 := by
  unfold reset
  split_ifs with himmediate
  · exact ⟨h, rfl⟩
  · refine ⟨by rw [cancelTimer_eq]; rfl, ?_⟩
    rw [length_cancelTimer]
    exact List.length_append

end Notifier

/-! ## What a closed controller still does -/

namespace Controller

/-- Whether a step is a flush. -/
def Step.isFlush : Step → Bool
  | .flush => true
  | _ => false

end Controller

namespace Core

variable {k l m : Core}

/-- A closed controller with nothing pending. -/
structure Shut (k : Core) : Prop where
  closed : k.closed = true
  quiet : k.notifier.pending = false

/-- To close a controller shuts it. -/
theorem shut_close (k : Core) : (k.step .close).Shut :=
  ⟨rfl, (congrArg Notifier.pending (move_notifier k .cancel)).trans k.notifier.cancel_pending⟩

/-- **Of the steps of a closed controller** only a flush, a tick and another close do anything. -/
theorem effect_cases_of_closed (h : k.closed = true) (s : Controller.Step) :
    (s.isFlush = false ∧ k.effect s = .nothing) ∨ (s.isFlush = true ∧ k.effect s = .flush) ∨
      (s.isFlush = false ∧ ∃ i, k.effect s = .tick i) ∨
      (s.isFlush = false ∧ k.effect s = .close) := by
  cases s with
  | append rows => exact .inl ⟨rfl, by simp only [effect, h]⟩
  | replace rows => exact .inl ⟨rfl, by simp only [effect, h]⟩
  | ingest columns rows isLive => exact .inl ⟨rfl, by simp only [effect, h]⟩
  | clear => exact .inl ⟨rfl, by simp only [effect, h, if_true]⟩
  | flush => exact .inr (.inl ⟨rfl, rfl⟩)
  | tick i => exact .inr (.inr (.inl ⟨rfl, i, rfl⟩))
  | close => exact .inr (.inr (.inr ⟨rfl, rfl⟩))
  | resolve => exact .inl ⟨rfl, rfl⟩
  | snapshot => exact .inl ⟨rfl, rfl⟩
  | describe => exact .inl ⟨rfl, rfl⟩
  | sleep seconds => exact .inl ⟨rfl, rfl⟩

/-- The frames that a delivery hands over now: the frame of the rows, if it can be resolved and
there is a renderer. -/
def shown (k : Core) : List Frame := k.handed.map Delivery.frame

/-- What is handed over depends on the specification, the rows and the renderer. -/
theorem shown_congr (hspec : k.spec = l.spec) (hbuffer : k.buffer = l.buffer)
    (hrenders : k.renders = l.renders) : k.shown = l.shown := by
  have hframe : k.frame = l.frame := by rw [frame, frame, hspec, hbuffer]
  unfold shown handed
  rw [hframe, hrenders]
  cases l.frame with
  | error e => rfl
  | ok f => cases l.renders <;> rfl

/-- What `n` flushes make of a controller, and nothing else: the rows are the same, every flush has
handed over what can be shown of them, and has started a timer where windows last. -/
structure Flushed (n : ℕ) (k l : Core) : Prop where
  buffer : l.buffer = k.buffer
  shown : l.shown = k.shown
  immediate : l.notifier.isImmediate = k.notifier.isImmediate
  kept : k.deliveries <+: l.deliveries
  frames : l.deliveries.map Delivery.frame
    = k.deliveries.map Delivery.frame ++ (List.replicate n k.shown).flatten
  timers : l.notifier.timers.length
    = k.notifier.timers.length + if k.notifier.isImmediate then 0 else n

/-- Flushes add up. -/
theorem Flushed.trans {a b : ℕ} (hkl : Flushed a k l) (hlm : Flushed b l m) :
    Flushed (a + b) k m where
  buffer := hlm.buffer.trans hkl.buffer
  shown := hlm.shown.trans hkl.shown
  immediate := hlm.immediate.trans hkl.immediate
  kept := hkl.kept.trans hlm.kept
  frames := by
    rw [hlm.frames, hkl.frames, hkl.shown, List.replicate_add, List.flatten_append,
      List.append_assoc]
  timers := by
    rw [hlm.timers, hkl.timers, hkl.immediate]
    split_ifs <;> omega

/-- What changes neither the rows nor the deliveries, and starts no timer, is no flush. -/
theorem Flushed.of_eq (hspec : l.spec = k.spec) (hrenders : l.renders = k.renders)
    (hbuffer : l.buffer = k.buffer) (himmediate : l.notifier.isImmediate = k.notifier.isImmediate)
    (hdeliveries : l.deliveries = k.deliveries)
    (htimers : l.notifier.timers.length = k.notifier.timers.length) : Flushed 0 k l where
  buffer := hbuffer
  shown := shown_congr hspec hbuffer hrenders
  immediate := himmediate
  kept := hdeliveries ▸ List.prefix_rfl
  frames := by rw [hdeliveries, List.replicate_zero, List.flatten_nil, List.append_nil]
  timers := by rw [htimers, ite_self, Nat.add_zero]

/-- To close a controller is no flush. -/
theorem flushed_close (k : Core) : Flushed 0 k (k.apply .close) := by
  refine Flushed.of_eq (apply_spec ..) (apply_renders ..) ?_ ?_ ?_ ?_
  · show (k.move .cancel).buffer = k.buffer
    rw [move_eq]
  · rw [apply_notifier]
    exact k.notifier.move_isImmediate .cancel
  · show (k.move .cancel).deliveries = k.deliveries
    rw [move_deliveries]
    rfl
  · rw [apply_notifier]
    exact k.notifier.length_cancel

namespace Shut

/-- The tick of a timer is no flush. -/
theorem flushed_tick (h : k.Shut) (i : Int) : Flushed 0 k (k.move (.tick i)) := by
  obtain ⟨hfires, -, htimers⟩ := Notifier.move_tick_quiet h.quiet i
  refine Flushed.of_eq (move_spec ..) (move_renders ..) (by rw [move_eq]) ?_ ?_ ?_
  · rw [move_notifier, Notifier.move_isImmediate]
  · rw [move_deliveries, hfires]
    rfl
  · rw [move_notifier, htimers]

/-- A flush of a closed controller counts as one. -/
theorem flushed_flush (h : k.Shut) : Flushed 1 k (k.apply .flush) := by
  have hbuffer : (k.move .reset).buffer = k.buffer := by rw [move_eq]
  have hshown : (k.move .reset).shown = k.shown :=
    shown_congr (move_spec ..) hbuffer (move_renders ..)
  have hdeliveries : (k.move .reset).deliveries = k.deliveries := by
    rw [move_deliveries]
    rfl
  refine
    { buffer := hbuffer
      shown := shown_congr (apply_spec ..) hbuffer (apply_renders ..)
      immediate := ?_, kept := deliveries_prefix_apply k .flush, frames := ?_, timers := ?_ }
  · rw [apply_notifier]
    exact k.notifier.move_isImmediate .reset
  · show ((k.move .reset).deliveries ++ (k.move .reset).handed).map Delivery.frame = _
    rw [List.map_append, hdeliveries, List.replicate_one, List.flatten_singleton]
    exact congrArg _ hshown
  · rw [apply_notifier]
    exact (Notifier.reset_quiet h.quiet).2

/-- **No step opens a closed controller, or makes anything pending.** -/
theorem step (h : k.Shut) (s : Controller.Step) : (k.step s).Shut := by
  unfold Core.step
  rcases effect_cases_of_closed h.closed s with ⟨-, heffect⟩ | ⟨-, heffect⟩ | ⟨-, i, heffect⟩ |
    ⟨-, heffect⟩ <;> rw [heffect]
  · exact h
  · refine ⟨(move_closed ..).trans h.closed, ?_⟩
    rw [apply_notifier]
    exact (Notifier.reset_quiet h.quiet).1
  · refine ⟨(move_closed ..).trans h.closed, ?_⟩
    rw [apply_notifier]
    exact (Notifier.move_tick_quiet h.quiet i).2.1
  · exact shut_close k

/-- **A closed controller is only flushed**, and only by a flush. -/
theorem flushed_step (h : k.Shut) (s : Controller.Step) :
    Flushed (if s.isFlush then 1 else 0) k (k.step s) := by
  unfold Core.step
  rcases effect_cases_of_closed h.closed s with ⟨hs, heffect⟩ | ⟨hs, heffect⟩ | ⟨hs, i, heffect⟩ |
    ⟨hs, heffect⟩ <;> rw [heffect, hs]
  · exact Flushed.of_eq rfl rfl rfl rfl rfl rfl
  · exact h.flushed_flush
  · exact h.flushed_tick i
  · exact flushed_close k

/-- **In a run a closed controller is flushed as often as the run says.** -/
theorem flushed_run (h : k.Shut) (steps : List Controller.Step) :
    Flushed (steps.countP Controller.Step.isFlush) k (k.run steps) := by
  induction steps generalizing k with
  | nil => exact Flushed.of_eq rfl rfl rfl rfl rfl rfl
  | cons s steps ih =>
    rw [List.countP_cons, Nat.add_comm]
    exact (h.flushed_step s).trans (ih (h.step s))

end Shut

end Core

namespace Controller

/-- **To close a controller stops its notifications for good.**  Whatever steps follow a close, ticks
of any timer among them, the rows stay as they are, and so do the frames that the renderer got and
the number of timers, unless a step is a flush: each flush hands over what can be shown of the rows
of before, and starts a timer where windows last. -/
theorem run_close (c : Controller) (steps : List Step) :
    let d := ((c.step .close).1.run steps)
    let flushes := steps.countP Step.isFlush
    d.buffer = c.buffer ∧ c.deliveries <+: d.deliveries ∧
      d.deliveries.map Delivery.frame
        = c.deliveries.map Delivery.frame ++ (List.replicate flushes c.core.shown).flatten ∧
      d.notifier.timers.length
        = c.notifier.timers.length + (if c.notifier.isImmediate then 0 else flushes) := by
  intro d flushes
  have hcore : d.core = (c.core.step .close).run steps := by
    rw [core_run, core_step]
  have h : Core.Flushed (0 + flushes) c.core d.core := by
    rw [hcore]
    exact (Core.flushed_close c.core).trans ((Core.shut_close c.core).flushed_run steps)
  rw [Nat.zero_add] at h
  exact ⟨h.buffer, h.kept, h.frames, h.timers⟩

/-- A closed controller can still deliver and start a timer: a flush does both. -/
theorem flush_after_close :
    ¬∀ (c : Controller) (steps : List Step),
      ((c.step .close).1.run steps).deliveries = c.deliveries ∧
      ((c.step .close).1.run steps).notifier.timers.length = c.notifier.timers.length := by
  intro h
  obtain ⟨hdeliveries, -⟩ := h (plainSetup.controller [] plainSpec) [.flush]
  exact List.cons_ne_nil _ _ hdeliveries

end Controller

end LiveChart
