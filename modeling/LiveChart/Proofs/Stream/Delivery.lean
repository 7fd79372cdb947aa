import LiveChart.Proofs.Stream.Effect
/-!
# No change goes unnoticed

After a change of the rows, a frame of just these rows is handed to the renderer, or else a fire is
pending, and the tick of the open window's timer hands over a frame of the rows as they are then.

* `Core.Covered` : the rows were delivered, or a fire is pending;
* `Core.covered_of_changes` and `Core.Covered.step` : a change is covered, and stays covered;
* `Setup.noticed_run` : in every run of an open controller the last change is covered.
-/

namespace LiveChart

namespace Notifier

/-- A call fires or leaves a fire pending. -/
theorem fires_or_pending_call (n : Notifier) :
    (n.move .call).2 = true ∨ (n.move .call).1.pending = true := by
  show n.call.2 = true ∨ n.call.1.pending = true
  unfold call
  split_ifs
  · exact .inl rfl
  · exact .inr rfl
  · exact .inl rfl

/-- A tick fires or leaves pending what was pending. -/
theorem fires_or_pending_tick (n : Notifier) (i : Int) :
    (n.move (.tick i)).2 = true ∨ (n.move (.tick i)).1.pending = n.pending := by
  cases hi : n.number? i with
  | none =>
    rw [move_tick_none hi]
    exact .inr rfl
  | some k =>
    obtain ⟨t, ht⟩ := exists_of_number? hi
    rw [move_tick hi ht]
    unfold tick
    split_ifs
    · exact .inr rfl
    · exact .inl rfl
    · exact .inr rfl

/-- **A pending fire has its timer**: the open window's, whose tick fires. -/
theorem Sound.fires {n : Notifier} (h : n.Sound) (hpending : n.pending = true) :
    ∃ k t, n.current = some k ∧ n.timers[k]? = some t ∧ t.cancelled = false ∧
      t.generation = n.generation ∧ (n.move (.tick k)).2 = true := by
  obtain ⟨k, hk⟩ := Option.isSome_iff_exists.1 (h.waits hpending)
  obtain ⟨t, ht, hcancelled, hgen⟩ := h.window k hk
  refine ⟨k, t, hk, ht, hcancelled, hgen, ?_⟩
  rw [move_tick (number?_natCast ht) ht, tick_eq, if_neg (not_not.2 hgen), if_pos hpending]

end Notifier

namespace Core

variable {k : Core} {n : ℕ} {s : Controller.Step}

/-- The rows were delivered after the first `n` deliveries, or a fire is pending. -/
def Covered (n : ℕ) (k : Core) : Prop :=
  ∀ f, k.frame = .ok f → (∃ d ∈ k.deliveries.drop n, d.frame = f) ∨ k.notifier.pending = true

/-- An open controller with a renderer and a sound notifier. -/
structure Ready (k : Core) : Prop where
  renders : k.renders = true
  opened : k.closed = false
  sound : k.notifier.Sound

/-- An effect keeps a notifier sound. -/
theorem sound_apply (h : k.notifier.Sound) (e : Effect) : (k.apply e).notifier.Sound := by
  rw [apply_notifier]
  cases e.move? with
  | none => exact h
  | some step => exact h.move step

/-- Steps keep a controller ready, until it is closed. -/
theorem Ready.step (h : k.Ready) (hclose : s ≠ .close) : (k.step s).Ready := by
  refine ⟨?_, step_closed h.opened hclose, sound_apply h.sound _⟩
  rw [Core.step, apply_renders, h.renders]

/-- The frame of a delivery that is made now. -/
theorem handed_eq (hrenders : k.renders = true) {f : Frame} (hf : k.frame = .ok f) :
    k.handed = [⟨f, !k.failing.contains k.deliveries.length⟩] := by
  unfold handed
  rw [hf]
  exact if_pos hrenders

/-- A delivery covers the rows. -/
theorem covered_hand (hrenders : k.renders = true) (hn : n ≤ k.deliveries.length) :
    Covered n k.hand := by
  intro f hf
  refine .inl ⟨⟨f, !k.failing.contains k.deliveries.length⟩, ?_, rfl⟩
  show _ ∈ (k.deliveries ++ k.handed).drop n
  rw [handed_eq hrenders hf, List.drop_append_of_le_length hn]
  exact List.mem_append_right _ (List.mem_singleton_self _)

/-- An operation of the notifier that fires covers the rows; one that does not may leave them
covered. -/
theorem covered_move (hrenders : k.renders = true) (hn : n ≤ k.deliveries.length)
    {step : NotifierStep} (h : (k.notifier.move step).2 = true ∨
      Covered n { k with notifier := (k.notifier.move step).1 }) : Covered n (k.move step) := by
  unfold move
  dsimp only
  split_ifs with hfires
  · exact covered_hand hrenders hn
  · exact h.resolve_left hfires

/-- A delivery in a fresh window covers the rows. -/
theorem covered_reset_hand (hrenders : k.renders = true) (hn : n ≤ k.deliveries.length) :
    Covered n (k.move .reset).hand := by
  refine covered_hand ?_ (Nat.le_trans hn (deliveries_prefix_move k .reset).length_le)
  rw [move_renders]
  exact hrenders

/-- **A step that changes the rows is covered.** -/
theorem covered_of_changes (h : k.Ready) (hs : s.changes = true) :
    Covered k.deliveries.length (k.step s) := by
  unfold Core.step
  rcases effect_cases h.opened s with ⟨-, hno, -⟩ | ⟨buffer, heffect, -⟩ | ⟨-, heffect⟩ | ⟨rfl, -⟩ |
    ⟨i, rfl, -⟩ | ⟨rfl, -⟩
  · rw [hs] at hno
    cases hno
  · rw [heffect]
    exact covered_move (k := { k with buffer }) h.renders (Nat.le_refl _)
      (k.notifier.fires_or_pending_call.imp_right fun hpending _ _ => .inr hpending)
  · rw [heffect]
    exact covered_reset_hand (k := { k with buffer := k.buffer.clear }) h.renders (Nat.le_refl _)
  · cases hs
  · cases hs
  · cases hs

/-- **What is covered stays covered** while the rows do not change. -/
theorem Covered.step (hcovered : Covered n k) (h : k.Ready) (hn : n ≤ k.deliveries.length)
    (hs : s.changes = false) (hclose : s ≠ .close) : Covered n (k.step s) := by
  unfold Core.step
  rcases effect_cases h.opened s with ⟨heffect, -⟩ | ⟨buffer, -, hyes, -⟩ | ⟨rfl, -⟩ |
    ⟨-, heffect⟩ | ⟨i, -, heffect⟩ | ⟨rfl, -⟩
  · rw [heffect]
    exact hcovered
  · rw [hs] at hyes
    cases hyes
  · cases hs
  · rw [heffect]
    exact covered_reset_hand h.renders hn
  · rw [heffect]
    exact covered_move h.renders hn ((k.notifier.fires_or_pending_tick i).imp_right
      fun hpending f hf => (hcovered f hf).imp_right hpending.trans)
  · exact absurd rfl hclose

/-- What is covered stays covered in a run that does not change the rows. -/
theorem Covered.run {steps : List Controller.Step} (hcovered : Covered n k) (h : k.Ready)
    (hn : n ≤ k.deliveries.length) (hsteps : ∀ s ∈ steps, s.changes = false ∧ s ≠ .close) :
    Covered n (k.run steps) := by
  induction steps generalizing k with
  | nil => exact hcovered
  | cons s steps ih =>
    obtain ⟨⟨hs, hclose⟩, hrest⟩ := List.forall_mem_cons.1 hsteps
    exact ih (hcovered.step h hn hs hclose) (h.step hclose)
      (Nat.le_trans hn (deliveries_prefix_apply k _).length_le) hrest

/-- Runs keep a controller ready, until it is closed. -/
theorem Ready.run {steps : List Controller.Step} (h : k.Ready) (hsteps : ∀ s ∈ steps, s ≠ .close) :
    (k.run steps).Ready := by
  induction steps generalizing k with
  | nil => exact h
  | cons s steps ih =>
    obtain ⟨hclose, hrest⟩ := List.forall_mem_cons.1 hsteps
    exact ih (h.step hclose) hrest

end Core

/-- **No change goes unnoticed.**  In every run of an open controller, after the last step that
changed the rows, the frame of the rows was handed to the renderer, or a fire is pending: then the
open window has a timer of the current generation that is not cancelled, and its tick hands over the
frame of the rows. -/
theorem Setup.noticed_run (setup : Setup) (hrenders : setup.renders = true) (columns : List Column)
    (spec : Spec) (before after : List Controller.Step) (change : Controller.Step)
    (hopen : ∀ s ∈ before ++ change :: after, s ≠ .close) (hchange : change.changes = true)
    (hafter : ∀ s ∈ after, s.changes = false) {f : Frame}
    (hframe : ((setup.controller columns spec).run (before ++ change :: after)).frame = .ok f) :
    let c := (setup.controller columns spec).run (before ++ change :: after)
    let n := ((setup.controller columns spec).run before).deliveries.length
    (∃ d ∈ c.deliveries.drop n, d.frame = f) ∨
      c.notifier.pending = true ∧ ∃ k t, c.notifier.current = some k ∧
        c.notifier.timers[k]? = some t ∧ t.cancelled = false ∧
        t.generation = c.notifier.generation ∧
        ∃ accepted, (c.step (.tick k)).1.deliveries = c.deliveries ++ [⟨f, accepted⟩] := by
  intro c n
  obtain ⟨hbefore, hopen⟩ := List.forall_mem_append.1 hopen
  obtain ⟨hclose, hopen⟩ := List.forall_mem_cons.1 hopen
  have hstart : (setup.controller columns spec).core.Ready :=
    ⟨hrenders, rfl, Notifier.Sound.ofMillis ..⟩
  have hready : ((setup.controller columns spec).run before).core.Ready := by
    rw [Controller.core_run]
    exact hstart.run hbefore
  have hcore : c.core
      = ((((setup.controller columns spec).run before).core).step change).run after := by
    have hrun : c = (((setup.controller columns spec).run before).step change).1.run after :=
      List.foldl_append ..
    rw [hrun, Controller.core_run, Controller.core_step]
  -- the change is covered, and what comes after it does not change the rows
  have hcovered : Core.Covered n c.core := by
    rw [hcore]
    exact (Core.covered_of_changes hready hchange).run (hready.step hclose)
      (Core.deliveries_prefix_apply ..).length_le fun s hs => ⟨hafter s hs, hopen s hs⟩
  have hreadyEnd : c.core.Ready := by
    rw [hcore]
    exact (hready.step hclose).run hopen
  refine (hcovered f hframe).imp_right fun hpending => ⟨hpending, ?_⟩
  obtain ⟨k, t, hk, ht, hcancelled, hgen, hfires⟩ := hreadyEnd.sound.fires hpending
  refine ⟨k, t, hk, ht, hcancelled, hgen, !c.core.failing.contains c.core.deliveries.length, ?_⟩
  calc (c.step (.tick k)).1.deliveries = (c.step (.tick k)).1.core.deliveries := rfl
    _ = (c.core.move (.tick k)).deliveries := by rw [Controller.core_step]; rfl
    _ = c.core.deliveries ++ c.core.handed := by rw [Core.move_deliveries, if_pos hfires]
    _ = c.deliveries ++ [⟨f, _⟩] := by rw [Core.handed_eq hreadyEnd.renders hframe]; rfl

/-- Without a binding and without a mask of its own, a chart shows its rows as they are. -/
theorem Controller.frame_run_of_unbound {c : Controller} (hbinding : c.spec.temporal = none)
    (hmask : Entries.field? "mask" (c.spec.scale "x") = none) (steps : List Step) :
    (c.run steps).frame = .ok ⟨(c.run steps).buffer.rows, none, .null⟩ := by
  have hspec : (c.run steps).spec = c.spec := by
    have hcore := c.core.run_spec steps
    rw [← core_run] at hcore
    exact hcore
  unfold frame frameOf frameMask
  rw [hspec, hbinding, hmask]
  rfl

/-- A chart without marks, notified at most twenty times a second. -/
def plainSpec : Spec := { marks := [], streaming := { throttle := .ofNat 50 } }

/-- A setup of which only the renderer matters. -/
def plainSetup : Setup := { columns := .null, config := .null, failing := [0] }

/-- The arrival of a row. -/
def arrival (n : Int) : Controller.Step := .append (.list [.dict [(.text "v", .int n)]])

/-- Of two arrivals, the second is noticed, though the renderer failed on the first. -/
theorem Setup.noticed_run_arrivals :
    let c := (plainSetup.controller [] plainSpec).run ([arrival 1] ++ arrival 2 :: [.resolve])
    (∃ d ∈ c.deliveries.drop
        ((plainSetup.controller [] plainSpec).run [arrival 1]).deliveries.length,
      d.frame = ⟨c.buffer.rows, none, .null⟩) ∨
      c.notifier.pending = true ∧ ∃ k t, c.notifier.current = some k ∧
        c.notifier.timers[k]? = some t ∧ t.cancelled = false ∧
        t.generation = c.notifier.generation ∧
        ∃ accepted, (c.step (.tick k)).1.deliveries
          = c.deliveries ++ [⟨⟨c.buffer.rows, none, .null⟩, accepted⟩] := by
  refine Setup.noticed_run plainSetup rfl [] plainSpec [arrival 1] [.resolve] (arrival 2) ?_ rfl
    ?_ ?_
  · intro s hs
    simp only [List.cons_append, List.nil_append, List.mem_cons, List.not_mem_nil, or_false] at hs
    rcases hs with rfl | rfl | rfl <;> exact fun h => nomatch h
  · intro s hs
    rw [List.mem_singleton.1 hs]
    rfl
  · exact Controller.frame_run_of_unbound rfl rfl _

end LiveChart
