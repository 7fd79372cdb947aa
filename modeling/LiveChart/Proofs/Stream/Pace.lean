import LiveChart.Proofs.Stream.Delivery
import Mathlib.Data.Real.Basic
import Mathlib.Tactic.Linarith
/-!
# The pace of deliveries

Let every timer tick at most once, and not before it is due.  Then whatever the notifier delivers
comes at least an interval after everything delivered before, also after what was delivered past the
notifier.  For the open window's timer was started no earlier than the last delivery, and a window
that closes leaves an interval behind it.

* `Timeline` : a controller in time, with the times of its timers and its deliveries;
* `Timeline.Allows` and `Timeline.Reachable` : the steps and the runs that are in time;
* `Clocked` : the open window is younger than the last delivery;
* `Timeline.Paced` : what holds of every run.
-/

namespace LiveChart

/-! ## A controller in time -/

/-- The number that a double stands for; an infinity stands for one beyond the finite doubles. -/
noncomputable def Double.value (x : Double) : ℝ := x.order / one

/-- The numbers of the timers that a step is the tick of: one at most. -/
def Controller.ticks (c : Controller) : Controller.Step → List ℕ
  | .tick i => c.notifier.ticks (.tick i)
  | _ => []

/-- A controller in time. -/
structure Timeline where
  controller : Controller
  /-- The time of the last step. -/
  now : ℝ
  /-- The time at which each timer was started. -/
  started : List ℝ := []
  /-- The numbers of the timers that ticked. -/
  ticked : List ℕ := []
  /-- The times of the deliveries. -/
  shown : List ℝ := []

namespace Timeline

/-- A step at a time. -/
def step (w : Timeline) (time : ℝ) (s : Controller.Step) : Timeline :=
  let c := (w.controller.step s).1
  { controller := c
    now := time
    started := w.started ++ List.replicate (c.notifier.timers.length - w.started.length) time
    ticked := w.ticked ++ w.controller.ticks s
    shown := w.shown ++ List.replicate (c.deliveries.length - w.shown.length) time }

/-- A step can take place at a time: time goes on, the controller stays open, and a timer that ticks
has not ticked before and is due. -/
structure Allows (w : Timeline) (time : ℝ) (s : Controller.Step) : Prop where
  forward : w.now ≤ time
  opened : s ≠ .close
  once : ∀ k ∈ w.controller.ticks s, k ∉ w.ticked
  due : ∀ k ∈ w.controller.ticks s, ∀ t x, w.controller.notifier.timers[k]? = some t →
    w.started[k]? = some x → x + t.delay.value ≤ time

/-- The timelines of a controller's runs. -/
inductive Reachable (c : Controller) : Timeline → Prop where
  | start (now : ℝ) : Reachable c { controller := c, now }
  | step {w : Timeline} {time : ℝ} {s : Controller.Step} :
      Reachable c w → w.Allows time s → Reachable c (w.step time s)

end Timeline

/-! ## Windows in time -/

/-- A notifier in time.  While a window is open, nothing was delivered after its timer was started;
while none is, everything was delivered an interval ago. -/
structure Clocked (n : Notifier) (now : ℝ) (started shown : List ℝ) : Prop where
  length : started.length = n.timers.length
  past : ∀ t ∈ shown, t ≤ now
  young : ∀ k x, n.current = some k → started[k]? = some x → ∀ t ∈ shown, t ≤ x
  idle : n.current = none → ∀ t ∈ shown, t + n.interval.value ≤ now

variable {n n' : Notifier} {now time : ℝ} {started shown : List ℝ} {ticked : List ℕ}

/-- A window of `n'` was opened after `n`. -/
def Opens (n n' : Notifier) : Prop :=
  n'.timers.length = n.timers.length + 1 ∧ n'.current = some n.timers.length

theorem Opens.openWindow (n : Notifier) : Opens n n.openWindow :=
  ⟨List.length_append, rfl⟩

theorem Opens.reset (hsound : n.Sound) (hn : n.isImmediate = false) : Opens n n.reset := by
  have hopens := Opens.openWindow n.cancel
  unfold Opens at hopens
  rw [Notifier.length_cancel] at hopens
  rw [Notifier.reset_eq hsound hn]
  exact hopens

/-- Time goes on. -/
theorem Clocked.later (h : Clocked n now started shown) (hnow : now ≤ time) :
    Clocked n time started shown where
  length := h.length
  past t ht := (h.past t ht).trans hnow
  young := h.young
  idle hnone t ht := (h.idle hnone t ht).trans hnow

/-- A window opens, perhaps with a delivery. -/
theorem Clocked.opened (h : Clocked n now started shown) (hnow : now ≤ time) (hopens : Opens n n')
    (m : ℕ) : Clocked n' time (started ++ [time]) (shown ++ List.replicate m time) := by
  have hpast : ∀ t ∈ shown ++ List.replicate m time, t ≤ time := by
    intro t ht
    rcases List.mem_append.1 ht with ht | ht
    · exact (h.past t ht).trans hnow
    · exact (List.eq_of_mem_replicate ht).le
  refine ⟨?_, hpast, fun k x hk hx => ?_, fun hnone => ?_⟩
  · rw [List.length_append, h.length, hopens.1]
    rfl
  · rw [hopens.2, Option.some.injEq, ← h.length] at hk
    rw [← hk, List.getElem?_concat_length, Option.some.injEq] at hx
    rw [← hx]
    exact hpast
  · rw [hopens.2] at hnone
    cases hnone

/-- **What an operation does in time.**  It opens a window, and fires only an interval after all
deliveries, or it is quiet. -/
theorem Clocked.move (h : Clocked n now started shown) (hnow : now ≤ time) (honce : n.Once ticked)
    (hn : n.isImmediate = false) {step : NotifierStep} (hstep : step ≠ .cancel)
    (hfresh : ∀ k ∈ n.ticks step, k ∉ ticked)
    (hdue : ∀ k ∈ n.ticks step, ∀ t x, n.timers[k]? = some t → started[k]? = some x →
      x + t.delay.value ≤ time) :
    (Opens n (n.move step).1 ∧
        ((n.move step).2 = true → ∀ t ∈ shown, t + n.interval.value ≤ time)) ∨
      (n.move step).2 = false ∧ Clocked (n.move step).1 time started shown := by
  cases step with
  | cancel => exact absurd rfl hstep
  | call =>
    show (Opens n n.call.1 ∧ (n.call.2 = true → _)) ∨ n.call.2 = false ∧ Clocked n.call.1 _ _ _
    rw [Notifier.call_eq hn]
    split_ifs with hcurrent
    · exact .inr ⟨rfl, (h.later hnow).length, (h.later hnow).past, (h.later hnow).young,
        (h.later hnow).idle⟩
    · exact .inl ⟨Opens.openWindow n, fun _ =>
        (h.later hnow).idle (Option.not_isSome_iff_eq_none.1 hcurrent)⟩
  | reset => exact .inl ⟨Opens.reset honce.toSound hn, fun hfires => Bool.noConfusion hfires⟩
  | tick i =>
    rw [honce.move_tick_eq hfresh]
    by_cases hcurrent : n.current.isSome ∧ n.number? i = n.current
    · obtain ⟨k, hk⟩ := Option.isSome_iff_exists.1 hcurrent.1
      obtain ⟨t, ht, -⟩ := honce.window k hk
      have hticks : k ∈ n.ticks (.tick i) := by
        rw [Notifier.ticks, hcurrent.2, hk]
        exact List.mem_singleton_self k
      obtain ⟨x, hx⟩ : ∃ x, started[k]? = some x := by
        have hlt : k < n.timers.length := (List.getElem?_eq_some_iff.1 ht).1
        rw [← h.length] at hlt
        exact ⟨_, List.getElem?_eq_getElem hlt⟩
      -- the timer of the open window was started after all deliveries, an interval ago
      have hrate : ∀ d ∈ shown, d + n.interval.value ≤ time := by
        intro d hd
        have hyoung := h.young k x hk hx d hd
        have hready := hdue k hticks t x ht hx
        rw [honce.delays k t ht] at hready
        linarith
      rw [if_pos hcurrent]
      split_ifs
      · exact .inl ⟨Opens.openWindow n.closeWindow, fun _ => hrate⟩
      · exact .inr ⟨rfl, h.length, (h.later hnow).past,
          fun k _ hnone => absurd hnone.symm (Option.some_ne_none k), fun _ => hrate⟩
    · rw [if_neg hcurrent]
      exact .inr ⟨rfl, h.later hnow⟩

/-! ## Runs in time -/

/-- A step that is no tick ticks no timer. -/
theorem Controller.ticks_eq_nil (c : Controller) {s : Controller.Step} (hs : ∀ i, s ≠ .tick i) :
    c.ticks s = [] := by
  cases s with
  | tick i => exact absurd rfl (hs i)
  | _ => rfl

/-- A step ticks the timers that its effect ticks. -/
theorem Controller.ticks_eq {c : Controller} (hopen : c.closed = false) (s : Controller.Step) :
    c.ticks s = match (c.core.effect s).move? with
      | some step => c.notifier.ticks step
      | none => [] := by
  rcases Core.effect_cases (k := c.core) hopen s with ⟨he, -, hs⟩ | ⟨buffer, he, -, hs⟩ |
    ⟨rfl, he⟩ | ⟨rfl, he⟩ | ⟨i, rfl, he⟩ | ⟨rfl, he⟩
  · rw [he]
    exact c.ticks_eq_nil hs
  · rw [he]
    exact c.ticks_eq_nil hs
  · rw [he]
    rfl
  · rfl
  · rfl
  · rfl

namespace Timeline

/-- What holds of a timeline: the controller is open, its windows last, its timers tick once, and
its deliveries are in time. -/
structure Paced (w : Timeline) : Prop where
  opened : w.controller.closed = false
  windowed : w.controller.notifier.isImmediate = false
  once : w.controller.notifier.Once w.ticked
  clocked : Clocked w.controller.notifier w.now w.started w.shown
  shown_length : w.shown.length = w.controller.deliveries.length

variable {w : Timeline} {s : Controller.Step}

/-- A step that leaves the deliveries as they are shows nothing. -/
theorem shown_step_of_eq (h : w.Paced)
    (hsame : (w.controller.step s).1.deliveries = w.controller.deliveries) :
    (w.step time s).shown = w.shown := by
  show w.shown ++ List.replicate _ time = w.shown
  rw [hsame, h.shown_length, Nat.sub_self]
  exact List.append_nil _

/-- A step shows as many frames as it delivers. -/
theorem shown_length_step (h : w.Paced) :
    (w.step time s).shown.length = (w.step time s).controller.deliveries.length := by
  have hle : w.controller.deliveries.length ≤ (w.controller.step s).1.deliveries.length := by
    have hcore := congrArg Core.deliveries (w.controller.core_step s)
    have hprefix := Core.deliveries_prefix_apply w.controller.core (w.controller.core.effect s)
    exact (hcore ▸ hprefix).length_le
  show (w.shown ++ List.replicate _ time).length = (w.controller.step s).1.deliveries.length
  rw [List.length_append, List.length_replicate, h.shown_length]
  omega

/-- A step that delivers shows something. -/
theorem shown_step_ne (h : w.Paced)
    (hne : (w.controller.step s).1.deliveries.length ≠ w.controller.deliveries.length) :
    (w.step time s).shown ≠ w.shown := by
  intro hshown
  have hlength := congrArg List.length hshown
  rw [shown_length_step h, h.shown_length] at hlength
  exact hne hlength

/-- A step that leaves the number of timers as it is starts none. -/
theorem started_step_of_eq (h : w.Paced) (hsame : (w.controller.step s).1.notifier.timers.length
    = w.controller.notifier.timers.length) : (w.step time s).started = w.started := by
  show w.started ++ List.replicate _ time = w.started
  rw [hsame, h.clocked.length, Nat.sub_self]
  exact List.append_nil _

/-- A step that opens a window keeps the timeline in time. -/
theorem clocked_step_of_opens (h : w.Paced) (hnow : w.now ≤ time)
    (hopens : Opens w.controller.notifier (w.controller.step s).1.notifier) :
    Clocked (w.step time s).controller.notifier time (w.step time s).started
      (w.step time s).shown := by
  have hstarted : (w.step time s).started = w.started ++ [time] := by
    show w.started ++ List.replicate _ time = _
    rw [hopens.1, h.clocked.length, Nat.add_sub_cancel_left]
    rfl
  rw [hstarted]
  exact h.clocked.opened hnow hopens _

/-- A step that only moves the notifier keeps the timeline in time, and delivers at its pace. -/
theorem clocked_step_of_move (h : w.Paced) (hs : w.Allows time s) {k : Core}
    (hnotifier : k.notifier = w.controller.notifier)
    (hdeliveries : k.deliveries = w.controller.deliveries) {step : NotifierStep}
    (hstep : step ≠ .cancel) (hcore : (w.controller.step s).1.core = k.move step)
    (hticks : w.controller.ticks s = w.controller.notifier.ticks step) :
    Clocked (w.step time s).controller.notifier time (w.step time s).started
        (w.step time s).shown ∧
      ((w.step time s).shown ≠ w.shown →
        ∀ t ∈ w.shown, t + w.controller.notifier.interval.value ≤ time) := by
  have hmoved : (w.controller.step s).1.notifier = (w.controller.notifier.move step).1 := by
    rw [← hnotifier, ← Core.move_notifier, ← hcore]
    rfl
  have hquiet : (w.controller.notifier.move step).2 = false →
      (w.step time s).shown = w.shown := by
    intro hfires
    refine shown_step_of_eq h ?_
    show (w.controller.step s).1.core.deliveries = _
    rw [hcore, Core.move_deliveries, hnotifier, hfires]
    exact hdeliveries
  rcases h.clocked.move hs.forward h.once h.windowed hstep (hticks ▸ hs.once) (hticks ▸ hs.due) with
    ⟨hopens, hrate⟩ | ⟨hfires, hclocked⟩
  · refine ⟨clocked_step_of_opens h hs.forward (hmoved ▸ hopens), fun hshown => hrate ?_⟩
    by_contra hfires
    exact hshown (hquiet (by simpa using hfires))
  · refine ⟨?_, fun hshown => absurd (hquiet hfires) hshown⟩
    have hstarted : (w.step time s).started = w.started := by
      refine started_step_of_eq h ?_
      rw [hmoved, ← hclocked.length, h.clocked.length]
    rw [hquiet hfires, hstarted]
    show Clocked (w.controller.step s).1.notifier _ _ _
    rw [hmoved]
    exact hclocked

/-- A step in time keeps the notifier's windows, and its timers tick once. -/
theorem once_step (h : w.Paced) (hs : w.Allows time s) :
    (w.step time s).controller.notifier.isImmediate = false ∧
      (w.step time s).controller.notifier.Once (w.step time s).ticked := by
  have hnotifier : (w.step time s).controller.notifier
      = (w.controller.core.apply (w.controller.core.effect s)).notifier :=
    congrArg Core.notifier (w.controller.core_step s)
  have hticks := Controller.ticks_eq h.opened s
  have honce := hs.once
  show _ ∧ Notifier.Once _ (w.ticked ++ w.controller.ticks s)
  rw [hnotifier, Core.apply_notifier]
  rw [hticks] at honce ⊢
  cases hmove : (w.controller.core.effect s).move? with
  | none =>
    rw [List.append_nil]
    exact ⟨h.windowed, h.once⟩
  | some step =>
    rw [hmove] at honce
    refine ⟨?_, h.once.move h.windowed honce⟩
    rw [Notifier.move_isImmediate]
    exact h.windowed

/-- **A step in time keeps a timeline in time**, and what the notifier delivers comes at its
pace. -/
theorem Paced.step (h : w.Paced) (hs : w.Allows time s) :
    (w.step time s).Paced ∧ (s ≠ .flush → s ≠ .clear → (w.step time s).shown ≠ w.shown →
      ∀ t ∈ w.shown, t + w.controller.notifier.interval.value ≤ time) := by
  have hcore := w.controller.core_step s
  have hopened : (w.step time s).controller.closed = false := by
    show (w.controller.step s).1.core.closed = false
    rw [hcore]
    exact Core.step_closed h.opened hs.opened
  obtain ⟨hwindowed, honce⟩ := once_step h hs
  suffices hclocked : Clocked (w.step time s).controller.notifier time (w.step time s).started
      (w.step time s).shown ∧ (s ≠ .flush → s ≠ .clear → (w.step time s).shown ≠ w.shown →
        ∀ t ∈ w.shown, t + w.controller.notifier.interval.value ≤ time) from
    ⟨⟨hopened, hwindowed, honce, hclocked.1, shown_length_step h⟩, hclocked.2⟩
  -- to clear and to flush deliver at once, into a window that they open
  have hreset : (w.controller.step s).1.notifier = w.controller.notifier.reset →
      Clocked (w.step time s).controller.notifier time (w.step time s).started
        (w.step time s).shown := by
    intro hnotifier
    refine clocked_step_of_opens h hs.forward ?_
    rw [hnotifier]
    exact Opens.reset h.once.toSound h.windowed
  unfold Core.step at hcore
  rcases Core.effect_cases (k := w.controller.core) h.opened s with ⟨he, -, hno⟩ |
    ⟨buffer, he, -, hno⟩ | ⟨rfl, he⟩ | ⟨rfl, he⟩ | ⟨i, rfl, he⟩ | ⟨rfl, -⟩
  · rw [he] at hcore
    have hnotifier : (w.controller.step s).1.notifier = w.controller.notifier :=
      congrArg Core.notifier hcore
    have hshown : (w.step time s).shown = w.shown :=
      shown_step_of_eq h (congrArg Core.deliveries hcore)
    have hstarted : (w.step time s).started = w.started :=
      started_step_of_eq h (congrArg (fun n => n.timers.length) hnotifier)
    refine ⟨?_, fun _ _ hne => absurd hshown hne⟩
    rw [hshown, hstarted]
    show Clocked (w.controller.step s).1.notifier _ _ _
    rw [hnotifier]
    exact h.clocked.later hs.forward
  · rw [he] at hcore
    have hmoved : (w.controller.step s).1.core
        = { w.controller.core with buffer }.move .call := hcore
    have hmove := clocked_step_of_move h hs rfl rfl (by nofun) hmoved
      (w.controller.ticks_eq_nil hno)
    exact ⟨hmove.1, fun _ _ => hmove.2⟩
  · refine ⟨hreset ?_, fun _ hclear => absurd rfl hclear⟩
    rw [he] at hcore
    exact (congrArg Core.notifier hcore).trans (Core.move_notifier { w.controller.core with
      buffer := w.controller.buffer.clear } .reset)
  · refine ⟨hreset ?_, fun hflush => absurd rfl hflush⟩
    rw [he] at hcore
    exact (congrArg Core.notifier hcore).trans (Core.move_notifier w.controller.core .reset)
  · rw [he] at hcore
    have hmoved : (w.controller.step (.tick i)).1.core = w.controller.core.move (.tick i) := hcore
    have hmove := clocked_step_of_move h hs rfl rfl (by nofun) hmoved rfl
    exact ⟨hmove.1, fun _ _ => hmove.2⟩
  · exact absurd rfl hs.opened

/-- The interval is the same all the time. -/
theorem interval_step (w : Timeline) (time : ℝ) (s : Controller.Step) :
    (w.step time s).controller.notifier.interval = w.controller.notifier.interval := by
  have hnotifier := congrArg Core.notifier (w.controller.core_step s)
  have hinterval := congrArg Notifier.interval hnotifier
  refine hinterval.trans ?_
  show (Core.apply _ _).notifier.interval = _
  rw [Core.apply_notifier]
  cases (w.controller.core.effect s).move? with
  | none => rfl
  | some step => exact (Notifier.move_settings ..).1

/-- Every run in time is paced, and keeps its interval. -/
theorem Reachable.paced {c : Controller} (h : Reachable c w) (hopen : c.closed = false)
    (hn : c.notifier.isImmediate = false) (honce : c.notifier.Once [])
    (htimers : c.notifier.timers = []) (hdeliveries : c.deliveries = []) :
    w.Paced ∧ w.controller.notifier.interval = c.notifier.interval := by
  induction h with
  | start now =>
    refine ⟨⟨hopen, hn, honce, ?_, ?_⟩, rfl⟩
    · refine ⟨?_, fun _ ht => (nomatch ht), fun _ _ _ _ _ ht => (nomatch ht),
        fun _ _ ht => nomatch ht⟩
      rw [htimers]
      rfl
    · rw [hdeliveries]
      rfl
  | step hw hs ih =>
    obtain ⟨hpaced, hinterval⟩ := ih
    exact ⟨(hpaced.step hs).1, (interval_step ..).trans hinterval⟩

end Timeline

/-- A double that stands for a number above zero is not zero. -/
theorem Double.isZero_of_value_pos {x : Double} (h : 0 < x.value) : x.isZero = false := by
  cases x with
  | infinite => rfl
  | nan => rfl
  | finite negative u fits =>
    refine beq_false_of_ne ?_
    rintro rfl
    have horder : (finite negative 0 fits).order = 0 := by cases negative <;> rfl
    rw [value, horder, Int.cast_zero, zero_div] at h
    exact lt_irrefl _ h

/-- **The pace of deliveries.**  Take any run of an open controller in which every timer ticks at
most once, and not before it is due.  What the notifier delivers, on a change of the rows or on a
tick, comes at least an interval after every delivery before. -/
theorem Setup.paced_run (setup : Setup) (columns : List Column) (spec : Spec)
    (hinterval : 0 < (setup.controller columns spec).notifier.interval.value) {w : Timeline}
    (hw : Timeline.Reachable (setup.controller columns spec) w) {time : ℝ} {s : Controller.Step}
    (hs : w.Allows time s) (hflush : s ≠ .flush) (hclear : s ≠ .clear)
    (hshown : (w.step time s).shown ≠ w.shown) :
    ∀ t ∈ w.shown, t + (setup.controller columns spec).notifier.interval.value ≤ time := by
  obtain ⟨hpaced, hsame⟩ := hw.paced rfl (Double.isZero_of_value_pos hinterval)
    (Notifier.Once.ofMillis ..) rfl rfl
  rw [← hsame]
  exact (hpaced.step hs).2 hflush hclear hshown

/-- Two rows arrive at once, and the second is shown when the window closes. -/
theorem Setup.paced_run_arrivals :
    let c := plainSetup.controller [] plainSpec
    let w := (Timeline.step { controller := c, now := 0 } 0 (arrival 1)).step 0 (arrival 2)
    w.Allows c.notifier.interval.value (.tick 0) ∧
      ∀ t ∈ w.shown, t + c.notifier.interval.value ≤ c.notifier.interval.value := by
  intro c w
  have hinterval : 0 < c.notifier.interval.value := by
    have horder : 0 < c.notifier.interval.order := by decide +kernel
    have hone : 0 < one := Nat.two_pow_pos _
    exact div_pos (Int.cast_pos.2 horder) (Nat.cast_pos.2 hone)
  have hw : Timeline.Reachable c w := by
    have harrival : ∀ (v : Timeline) (n : Int), v.now = 0 → v.Allows 0 (arrival n) := fun v n hv =>
      ⟨hv.le, by nofun, fun k hk => (nomatch hk), fun k hk => nomatch hk⟩
    exact .step (.step (.start 0) (harrival _ 1 rfl)) (harrival _ 2 rfl)
  obtain ⟨hpaced, hsame⟩ := hw.paced rfl (Double.isZero_of_value_pos hinterval)
    (Notifier.Once.ofMillis ..) rfl rfl
  have hallows : w.Allows c.notifier.interval.value (.tick 0) := by
    have hnow : w.now = 0 := rfl
    have hticked : w.ticked = [] := rfl
    refine ⟨?_, by nofun, ?_, fun k _ t x ht hx => ?_⟩
    · rw [hnow]
      exact hinterval.le
    · rw [hticked]
      intro k _
      exact List.not_mem_nil
    · rw [hpaced.once.delays k t ht, hsame]
      -- both arrivals are at zero, and so is the start of every timer
      have hx0 : x = 0 := by
        have hmem : x ∈ w.started := List.mem_of_getElem? hx
        have hstarted : w.started = ([] ++ List.replicate _ 0) ++ List.replicate _ 0 := rfl
        rw [hstarted, List.nil_append] at hmem
        rcases List.mem_append.1 hmem with hmem | hmem <;> exact List.eq_of_mem_replicate hmem
      rw [hx0, zero_add]
  have hcount : ((c.run [arrival 1, arrival 2]).step (.tick 0)).1.deliveries.length
      ≠ (c.run [arrival 1, arrival 2]).deliveries.length := by decide +kernel
  have hrun : ∀ (d : Controller) (s s' : Controller.Step),
      d.run [s, s'] = ((Timeline.step { controller := d, now := 0 } 0 s).step 0 s').controller :=
    fun _ _ _ => rfl
  have hw' : (Timeline.step { controller := c, now := 0 } 0 (arrival 1)).step 0 (arrival 2) = w :=
    rfl
  rw [hrun, hw'] at hcount
  clear_value w
  exact ⟨hallows, Setup.paced_run plainSetup [] plainSpec hinterval hw hallows (by nofun)
    (by nofun) (Timeline.shown_step_ne hpaced hcount)⟩

end LiveChart
