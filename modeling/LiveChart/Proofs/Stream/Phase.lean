import LiveChart.Proofs.Stream.Reentry
/-!
# The phases of a notifier

A notifier whose windows last is in one of three phases: it is idle, or a window is open, or a fire
is pending as well.  The operations lead from phase to phase, also those of callbacks, as long as
every timer ticks at most once.  A timer whose window was dropped ticks without effect, and all
other timers have ticked, but the open window's.

* `Phase.next` : the phases and the fires of a notifier;
* `Notifier.Once.phase_move` : an operation does what its signal does to the phase;
* `Notifier.Traced` : the timers that ticked, those whose window was dropped, and the open window's;
* `Machine.Phased` : what holds at any point of a run.
-/

namespace LiveChart

/-! ## The phases -/

/-- Where a notifier stands. -/
inductive Phase where
  | idle
  /-- A window is open. -/
  | opened
  /-- A window is open, and a fire is pending. -/
  | waiting
  deriving DecidableEq

/-- What an operation is to the phase. -/
inductive Signal where
  | call
  | cancel
  | reset
  /-- The tick of the open window's timer. -/
  | tick
  /-- Any other tick. -/
  | stale
  deriving DecidableEq

/-- The next phase, and whether the signal fires. -/
def Phase.next : Phase → Signal → Phase × Bool
  | .idle, .call => (.opened, true)
  | _, .call => (.waiting, false)
  | _, .cancel => (.idle, false)
  | _, .reset => (.opened, false)
  | .waiting, .tick => (.opened, true)
  | _, .tick => (.idle, false)
  | phase, .stale => (phase, false)

namespace Notifier

variable {n : Notifier} {ticked dropped : List ℕ} {step : NotifierStep}

/-- The phase of a notifier. -/
def phase (n : Notifier) : Phase :=
  if n.current.isNone then .idle else if n.pending then .waiting else .opened

/-- What an operation is to the phase of a notifier. -/
def signal (n : Notifier) : NotifierStep → Signal
  | .call => .call
  | .cancel => .cancel
  | .reset => .reset
  | .tick i => if n.current.isSome ∧ n.number? i = n.current then .tick else .stale

theorem phase_of_none (h : n.current = none) : n.phase = .idle := by
  rw [phase, h]
  rfl

theorem phase_of_some {k : ℕ} (h : n.current = some k) :
    n.phase = if n.pending then .waiting else .opened := by
  rw [phase, h]
  rfl

theorem phase_openWindow (n : Notifier) :
    n.openWindow.phase = if n.pending then .waiting else .opened :=
  phase_of_some rfl

theorem phase_ne_idle : n.phase ≠ .idle ↔ ∃ k, n.current = some k := by
  cases h : n.current with
  | none => simp [phase_of_none h]
  | some k =>
    rw [phase_of_some h]
    refine ⟨fun _ => ⟨k, rfl⟩, fun _ => ?_⟩
    split_ifs <;> decide

/-- The first tick of any timer but the open window's does nothing. -/
theorem Once.move_stale (h : n.Once ticked) (hstep : ∀ k ∈ n.ticks step, k ∉ ticked)
    (hstale : n.signal step = .stale) : n.move step = (n, false) := by
  cases step with
  | tick i =>
    have hother : ¬(n.current.isSome ∧ n.number? i = n.current) := by
      intro hcurrent
      rw [signal, if_pos hcurrent] at hstale
      cases hstale
    rw [h.move_tick_eq hstep, if_neg hother]
  | _ => cases hstale

/-- **An operation does what its signal does**: it leads to the next phase, and fires just if that
does. -/
theorem Once.phase_move (h : n.Once ticked) (hn : n.isImmediate = false)
    (hstep : ∀ k ∈ n.ticks step, k ∉ ticked) :
    ((n.move step).1.phase, (n.move step).2) = n.phase.next (n.signal step) := by
  cases step with
  | call =>
    show (n.call.1.phase, n.call.2) = n.phase.next .call
    rw [call_eq hn]
    by_cases hopen : n.current.isSome = true
    · obtain ⟨k, hk⟩ := Option.isSome_iff_exists.1 hopen
      have hwaiting : ({ n with pending := true } : Notifier).phase = .waiting := by
        show (if n.current.isNone then Phase.idle else .waiting) = .waiting
        rw [hk]
        rfl
      rw [if_pos hopen, hwaiting, phase_of_some hk]
      split_ifs <;> rfl
    · -- only in an open window can a fire be pending
      have hpending : ¬n.pending = true := fun hpending => hopen (h.waits hpending)
      rw [if_neg hopen, phase_openWindow, if_neg hpending,
        phase_of_none (Option.not_isSome_iff_eq_none.1 hopen)]
      rfl
  | cancel =>
    show (n.cancel.phase, false) = n.phase.next .cancel
    rw [phase_of_none (cancel_current n)]
    cases n.phase <;> rfl
  | reset =>
    show (n.reset.phase, false) = n.phase.next .reset
    -- in the window that a reset opens nothing is pending, whatever was before
    rw [reset_eq h.toSound hn, phase_openWindow, cancel_pending]
    cases n.phase <;> rfl
  | tick i =>
    by_cases hsignal : n.current.isSome ∧ n.number? i = n.current
    · obtain ⟨k, hk⟩ := Option.isSome_iff_exists.1 hsignal.1
      rw [h.move_tick_eq hstep, if_pos hsignal, signal, if_pos hsignal, phase_of_some hk]
      split_ifs <;> rfl
    · have hstale : n.signal (.tick i) = .stale := if_neg hsignal
      rw [h.move_stale hstep hstale, hstale]
      cases n.phase <;> rfl

/-! ## The timers of a run -/

/-- The timers of a notifier, some of which have ticked, each once, and of some of which the window
was dropped.  These belong to earlier generations, and they are the cancelled ones, if timers can be
cancelled.  A timer that has not ticked and was not dropped is the open window's. -/
structure Traced (n : Notifier) (ticked dropped : List ℕ) : Prop extends Once n ticked where
  earlier : ∀ k ∈ dropped, ∃ t, n.timers[k]? = some t ∧ t.generation < n.generation
  accounted : ∀ (k : ℕ) (t : Timer), n.timers[k]? = some t → k ∉ ticked → k ∉ dropped →
    n.current = some k
  marked : n.cancellable = true → ∀ (k : ℕ) (t : Timer), n.timers[k]? = some t →
    (t.cancelled = true ↔ k ∈ dropped)

/-- Of a new notifier no timer was dropped. -/
theorem Traced.ofMillis (millis : Double) (cancellable : Bool) :
    (ofMillis millis cancellable).Traced [] [] where
  toOnce := Once.ofMillis millis cancellable
  earlier _ hk := nomatch hk
  accounted _ _ ht := nomatch ht
  marked _ _ _ ht := nomatch ht

/-- A window that opens drops no timer. -/
theorem Traced.openWindow (h : n.Traced ticked dropped) (hnone : n.current = none) :
    n.openWindow.Traced ticked dropped := by
  have hold : ∀ {k}, n.current ≠ some k := by simp [hnone]
  refine { toOnce := h.toOnce.openWindow hnone, earlier := ?_, accounted := ?_, marked := ?_ }
  · intro k hk
    obtain ⟨t, ht, hgen⟩ := h.earlier k hk
    have hlt : k < n.timers.length := (List.getElem?_eq_some_iff.1 ht).1
    exact ⟨t, by rw [getElem?_openWindow, if_neg (Nat.ne_of_lt hlt), ht], hgen⟩
  · intro k t ht hticked hdropped
    rcases timer_openWindow ht with ⟨rfl, -⟩ | ht
    · rfl
    · exact absurd (h.accounted k t ht hticked hdropped) hold
  · intro hcancellable k t ht
    rcases timer_openWindow ht with ⟨rfl, rfl⟩ | ht
    · -- the new timer is not cancelled, and it comes after those that were dropped
      refine ⟨fun hcancelled => (nomatch hcancelled), fun hdropped => ?_⟩
      obtain ⟨u, hu, -⟩ := h.earlier _ hdropped
      exact absurd (List.getElem?_eq_some_iff.1 hu).1 (Nat.lt_irrefl _)
    · exact h.marked hcancellable k t ht

/-- A cancel drops the open window's timer. -/
theorem Traced.cancel (h : n.Traced ticked dropped) :
    n.cancel.Traced ticked (dropped ++ n.current.toList) := by
  refine { toOnce := h.toOnce.cancel, earlier := ?_, accounted := ?_, marked := ?_ }
  · -- no timer is of a later generation than the one that the cancel ends
    intro k hk
    obtain ⟨t, ht⟩ : ∃ t, n.timers[k]? = some t := by
      rcases List.mem_append.1 hk with hk | hk
      · obtain ⟨t, ht, -⟩ := h.earlier k hk
        exact ⟨t, ht⟩
      · obtain ⟨t, ht, -⟩ := h.window k (Option.mem_toList.1 hk)
        exact ⟨t, ht⟩
    have hlt : k < n.cancel.timers.length := by
      rw [length_cancel]
      exact (List.getElem?_eq_some_iff.1 ht).1
    have hu := List.getElem?_eq_getElem hlt
    obtain ⟨t', ht', hgen, -⟩ := timer_cancel hu
    have holder := h.older k t' ht'
    refine ⟨_, hu, ?_⟩
    rw [hgen, cancel_generation]
    exact Nat.lt_succ_of_le holder
  · -- the open window's timer is dropped now, and no other was left
    intro k t ht hticked hdropped
    rw [List.mem_append, Option.mem_toList, not_or] at hdropped
    obtain ⟨u, hu, -⟩ := timer_cancel ht
    exact absurd (h.accounted k u hu hticked hdropped.1) hdropped.2
  · intro hcancellable k t ht
    rw [cancel_cancellable] at hcancellable
    obtain ⟨u, hu, -, -, hmark⟩ := timer_cancel ht
    rw [hmark hcancellable, h.marked hcancellable k u hu, List.mem_append, Option.mem_toList]

/-- A window that closes drops no timer. -/
theorem Traced.closeWindow (h : n.Traced ticked dropped) {k : ℕ} (hk : n.current = some k) :
    n.closeWindow.Traced (ticked ++ [k]) dropped := by
  refine { toOnce := h.toOnce.closeWindow hk, earlier := h.earlier, accounted := ?_,
           marked := h.marked }
  intro j t ht hticked hdropped
  rw [List.mem_append, List.mem_singleton, not_or] at hticked
  have hcurrent := h.accounted j t ht hticked.1 hdropped
  exact absurd (Option.some.inj (hcurrent.symm.trans hk)) hticked.2

/-- Timers may tick without effect. -/
theorem Traced.tick_stale (h : n.Traced ticked dropped) {more : List ℕ}
    (honce : n.Once (ticked ++ more)) : n.Traced (ticked ++ more) dropped where
  toOnce := honce
  earlier := h.earlier
  accounted k t ht hticked := h.accounted k t ht fun hk => hticked (List.mem_append_left _ hk)
  marked := h.marked

/-- **Every operation keeps the account of the timers.** -/
theorem Traced.move (h : n.Traced ticked dropped) (hn : n.isImmediate = false)
    (hstep : ∀ k ∈ n.ticks step, k ∉ ticked) :
    (n.move step).1.Traced (ticked ++ n.ticks step) (dropped ++ n.drops step) := by
  cases step with
  | call =>
    have honce : n.call.1.Once (ticked ++ []) := h.toOnce.move hn hstep
    show n.call.1.Traced (ticked ++ []) (dropped ++ [])
    rw [List.append_nil, call_eq hn] at honce
    rw [List.append_nil, List.append_nil, call_eq hn]
    split_ifs at honce ⊢ with hopen
    · exact { toOnce := honce, earlier := h.earlier, accounted := h.accounted, marked := h.marked }
    · exact h.openWindow (Option.not_isSome_iff_eq_none.1 hopen)
  | cancel =>
    show n.cancel.Traced (ticked ++ []) _
    rw [List.append_nil]
    exact h.cancel
  | reset =>
    show n.reset.Traced (ticked ++ []) _
    rw [List.append_nil, reset_eq h.toSound hn]
    exact h.cancel.openWindow (cancel_current n)
  | tick i =>
    have honce := h.toOnce.move hn hstep
    show (n.move (.tick i)).1.Traced _ (dropped ++ [])
    rw [List.append_nil]
    rw [h.move_tick_eq hstep] at honce ⊢
    -- the open window's tick closes it, and opens another if a call is pending
    split_ifs at honce ⊢ with hcurrent
    · obtain ⟨k, hk⟩ := Option.isSome_iff_exists.1 hcurrent.1
      rw [ticks, hcurrent.2, hk]
      exact (h.closeWindow hk).openWindow rfl
    · obtain ⟨k, hk⟩ := Option.isSome_iff_exists.1 hcurrent.1
      rw [ticks, hcurrent.2, hk]
      exact h.closeWindow hk
    · exact h.tick_stale honce

end Notifier

/-! ## Runs -/

namespace Machine

variable {callback : Callback} {m m' : Machine}

/-- A timer stands if it has not ticked and its window was not dropped. -/
def Standing (m : Machine) (k : ℕ) : Prop :=
  k < m.session.notifier.timers.length ∧ k ∉ m.ticked ∧ k ∉ m.dropped

/-- What holds at any point of a run in which no timer ticks twice. -/
structure Phased (m : Machine) : Prop where
  /-- An operation leads to the next phase, and fires just if its signal does. -/
  moves : ∀ step, (∀ k ∈ m.session.notifier.ticks step, k ∉ m.ticked) →
    ((m.session.notifier.move step).1.phase, (m.session.notifier.move step).2)
      = m.session.notifier.phase.next (m.session.notifier.signal step)
  /-- A tick of any timer but the open window's changes nothing, and does not fire. -/
  stale : ∀ step, (∀ k ∈ m.session.notifier.ticks step, k ∉ m.ticked) →
    m.session.notifier.signal step = .stale →
    m.session.notifier.move step = (m.session.notifier, false)
  /-- A tick of a timer whose window was dropped, be it the first or not, changes nothing, and does
  not fire. -/
  dropped : ∀ k ∈ m.dropped, m.session.notifier.move (.tick k) = (m.session.notifier, false)
  /-- One timer stands at most. -/
  alone : ∀ j k, m.Standing j → m.Standing k → j = k
  /-- A timer stands just if the notifier is not idle: the open window's. -/
  standing : m.session.notifier.phase ≠ .idle ↔ ∃ k, m.Standing k
  /-- The timers that were cancelled, if timers can be, are those whose window was dropped. -/
  cancelled : m.session.notifier.cancellable = true → ∀ (k : ℕ) (t : Timer),
    m.session.notifier.timers[k]? = some t → (t.cancelled = true ↔ k ∈ m.dropped)

/-- The timer that stands is the open window's. -/
theorem standing_iff (h : m.session.notifier.Traced m.ticked m.dropped) (k : ℕ) :
    m.Standing k ↔ m.session.notifier.current = some k := by
  constructor
  · rintro ⟨hlt, hticked, hdropped⟩
    exact h.accounted k _ (List.getElem?_eq_getElem hlt) hticked hdropped
  · intro hk
    obtain ⟨t, ht, -, hgen⟩ := h.window k hk
    refine ⟨(List.getElem?_eq_some_iff.1 ht).1, h.fresh k hk, fun hdropped => ?_⟩
    obtain ⟨u, hu, hless⟩ := h.earlier k hdropped
    rw [ht, Option.some.injEq] at hu
    rw [← hu, hgen] at hless
    exact Nat.lt_irrefl _ hless

/-- A machine whose timers are accounted for is in its phase. -/
theorem Phased.of_traced (hn : m.session.notifier.isImmediate = false)
    (h : m.session.notifier.Traced m.ticked m.dropped) : m.Phased where
  moves _ hstep := h.phase_move hn hstep
  stale _ hstep hstale := h.move_stale hstep hstale
  dropped k hk := by
    obtain ⟨t, ht, hgen⟩ := h.earlier k hk
    rw [Notifier.move_tick (Notifier.number?_natCast ht) ht, Notifier.tick_eq,
      if_pos (Nat.ne_of_lt hgen)]
  alone j k hj hk := by
    rw [standing_iff h] at hj hk
    exact Option.some.inj (hj.symm.trans hk)
  standing := by
    rw [Notifier.phase_ne_idle]
    exact exists_congr fun k => (standing_iff h k).symm
  cancelled := h.marked

/-- What the machine does next is an operation, or it leaves the notifier as it is. -/
theorem advance_cases (h : m.advance callback = some m') :
    (m'.session.notifier = m.session.notifier ∧ m'.ticked = m.ticked ∧ m'.dropped = m.dropped) ∨
      ∃ step, m'.session.notifier = (m.session.notifier.move step).1 ∧
        m'.ticked = m.ticked ++ m.session.notifier.ticks step ∧
        m'.dropped = m.dropped ++ m.session.notifier.drops step := by
  unfold advance at h
  split at h
  · cases h
  · obtain rfl := Option.some.inj h
    exact .inl ⟨rfl, rfl, rfl⟩
  · obtain rfl := Option.some.inj h
    exact .inl ⟨rfl, rfl, rfl⟩
  · obtain rfl := Option.some.inj h
    exact .inr ⟨_, rfl, rfl, rfl⟩

/-- The timers stay accounted for while none ticks twice. -/
theorem traced_advance (h : m.advance callback = some m')
    (hn : m.session.notifier.isImmediate = false)
    (htraced : m.session.notifier.Traced m.ticked m.dropped) (honce : m'.ticked.Nodup) :
    m'.session.notifier.isImmediate = false ∧
      m'.session.notifier.Traced m'.ticked m'.dropped := by
  rcases advance_cases h with ⟨hnotifier, hticked, hdropped⟩ | ⟨step, hnotifier, hticked, hdropped⟩
  · rw [hnotifier, hticked, hdropped]
    exact ⟨hn, htraced⟩
  · rw [hticked, List.nodup_append] at honce
    rw [hnotifier, hticked, hdropped]
    refine ⟨?_, htraced.move hn fun k hk hmem => honce.2.2 k hmem k hk rfl⟩
    rw [Notifier.move_isImmediate]
    exact hn

/-- If no timer ticked twice by now, none had one step before. -/
theorem ticked_advance (h : m.advance callback = some m') (honce : m'.ticked.Nodup) :
    m.ticked.Nodup := by
  rcases advance_cases h with ⟨-, hticked, -⟩ | ⟨step, -, hticked, -⟩
  · rw [← hticked]
    exact honce
  · rw [hticked, List.nodup_append] at honce
    exact honce.1

/-- A run of a notifier whose windows last keeps account of its timers. -/
theorem Reaches.traced (h : Reaches callback m m') (hn : m.session.notifier.isImmediate = false)
    (htraced : m.session.notifier.Traced m.ticked m.dropped) (honce : m'.ticked.Nodup) :
    m'.session.notifier.isImmediate = false ∧
      m'.session.notifier.Traced m'.ticked m'.dropped := by
  induction h with
  | refl => exact ⟨hn, htraced⟩
  | tail _ hadvance ih =>
    obtain ⟨hn', htraced'⟩ := ih (ticked_advance hadvance honce)
    exact traced_advance hadvance hn' htraced' honce

/-- A run keeps whether timers can be cancelled. -/
theorem Reaches.cancellable (h : Reaches callback m m') :
    m'.session.notifier.cancellable = m.session.notifier.cancellable := by
  induction h with
  | refl => rfl
  | tail _ hadvance ih =>
    rw [← ih]
    rcases advance_cases hadvance with ⟨hnotifier, -⟩ | ⟨step, hnotifier, -⟩
    · rw [hnotifier]
    · rw [hnotifier, (Notifier.move_settings _ step).2]

/-- **The phases of a notifier.**  Take a new notifier whose windows last, and any operations, with
a callback that operates it again or fails.  As long as no timer ticks twice, the notifier is in its
phase at every point of the run, also in the middle of fires.  And with a scripted callback, the run
ends where the session does. -/
theorem phased_run (millis : Double) (cancellable : Bool)
    (hlasting : (Notifier.ofMillis millis cancellable).isImmediate = false)
    (steps : List NotifierStep) :
    (∀ (callback : Callback) (m : Machine),
      Reaches callback (start (.ofMillis millis cancellable) steps) m → m.ticked.Nodup →
        m.Phased ∧ m.session.notifier.cancellable = cancellable) ∧
    ∀ script : Script, (start (.ofMillis millis cancellable) steps).Ends script.callback []
      (steps.foldl (fun s step => s.perform script step)
        { notifier := .ofMillis millis cancellable }) := by
  refine ⟨fun callback m hm honce => ?_, fun script => ends_session script _ steps⟩
  obtain ⟨hn, htraced⟩ := hm.traced hlasting (Notifier.Traced.ofMillis ..) honce
  exact ⟨Phased.of_traced hn htraced, hm.cancellable⟩

/-- A callback calls the notifier while its first fire runs, and so leaves a fire pending. -/
theorem phased_run_calling :
    let n := Notifier.ofMillis (.ofNat 50) true
    let script : Script := [(0, [.step .call, .raise]), (1, [.step .reset])]
    ∃ m, Reaches script.callback (start n [.call, .tick 0]) m ∧
      m.session.notifier.phase = .waiting ∧ m.Phased := by
  intro n script
  have hcalls : ∀ (n : Notifier), (n.move .call).2 = true →
      ∃ m, Reaches script.callback (start n [.call, .tick 0]) m ∧
        m.session.notifier = ((n.move .call).1.move .call).1 ∧ m.ticked = [] := by
    intro n hfires
    have hwaiting : ((start n [.call, .tick 0]).operate script.callback .call
        [[.step (.tick 0)]]).waiting = [.step .call, .raise] :: [[.step (.tick 0)]] :=
      if_pos hfires
    exact ⟨_, .tail (.single (advance_step rfl)) (advance_step hwaiting), rfl, rfl⟩
  obtain ⟨m, hreaches, hnotifier, hticked⟩ := hcalls n (by decide +kernel)
  have honce : m.ticked.Nodup := by
    rw [hticked]
    exact List.nodup_nil
  have hrun := phased_run (.ofNat 50) true (by decide +kernel) [.call, .tick 0]
  refine ⟨m, hreaches, ?_, (hrun.1 script.callback m hreaches honce).1⟩
  rw [hnotifier]
  decide +kernel

end Machine

end LiveChart
