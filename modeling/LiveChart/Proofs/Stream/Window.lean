import LiveChart.Stream.Notifier
import Mathlib.Data.List.Basic
import Mathlib.Order.Basic
/-!
# Windows of a notifier

An open window has a timer, which belongs to the current generation and is not cancelled.  If every
timer ticks at most once, the open window's timer is the only one of its generation that has not
ticked, so no other tick has an effect.

* `Notifier.number?` : the number of the timer that a tick is of;
* `Notifier.Sound` : a window has its timer, and only an open window has a pending fire;
* `Notifier.Once` : the state of a notifier of whose timers some have ticked, each once;
* `Once.move_tick_eq` : a tick does something only if it is the open window's timer's;
* `Sound.move` and `Once.move` : the operations keep both.
-/

namespace LiveChart

namespace Notifier

variable {n : Notifier} {ticked : List ℕ}

/-! ## Timers by number -/

/-- The number of the timer at an index, which may count from the end. -/
def number? (n : Notifier) (i : Int) : Option ℕ :=
  Value.atIndex (List.range n.timers.length) i

/-- The timer at an index is the timer with its number. -/
theorem timerAt?_eq (n : Notifier) (i : Int) :
    n.timerAt? i = (n.number? i).bind fun k => n.timers[k]? := by
  unfold timerAt? number? Value.atIndex
  rw [List.length_range]
  dsimp only
  generalize (if i < 0 then i + (n.timers.length : Int) else i) = k
  by_cases hk : k < 0
  · rw [if_pos hk, if_pos hk]
    rfl
  · rw [if_neg hk, if_neg hk]
    by_cases hlt : k.toNat < n.timers.length
    · rw [List.getElem?_range hlt]
      rfl
    · rw [List.getElem?_eq_none (Nat.le_of_not_lt hlt),
        List.getElem?_eq_none (by rw [List.length_range]; exact Nat.le_of_not_lt hlt)]
      rfl

/-- There is a timer of every number. -/
theorem exists_of_number? {i : Int} {k : ℕ} (h : n.number? i = some k) :
    ∃ t, n.timers[k]? = some t := by
  have hmem : k ∈ List.range n.timers.length := by
    unfold number? Value.atIndex at h
    dsimp only at h
    split_ifs at h <;> exact List.mem_of_getElem? h
  exact ⟨_, List.getElem?_eq_getElem (List.mem_range.1 hmem)⟩

/-- The index of a timer may be its number. -/
theorem number?_natCast {k : ℕ} {t : Timer} (ht : n.timers[k]? = some t) :
    n.number? k = some k := by
  have hk : k < n.timers.length := (List.getElem?_eq_some_iff.1 ht).1
  have hneg : ¬(k : Int) < 0 := by omega
  unfold number? Value.atIndex
  simp only [if_neg hneg]
  exact List.getElem?_range hk

/-- A tick by the number of its timer. -/
theorem move_tick {i : Int} {k : ℕ} {t : Timer} (hk : n.number? i = some k)
    (ht : n.timers[k]? = some t) : n.move (.tick i) = n.tick t := by
  have hat : n.timerAt? i = some t := by rw [timerAt?_eq, hk, Option.bind_some, ht]
  simp only [move, hat]

/-- The tick of no timer does nothing. -/
theorem move_tick_none {i : Int} (hk : n.number? i = none) : n.move (.tick i) = (n, false) := by
  have hat : n.timerAt? i = none := by rw [timerAt?_eq, hk, Option.bind_none]
  simp only [move, hat]

/-! ## Windows and their timers -/

/-- An open window has a timer of the current generation that is not cancelled, and only an open
window has a pending fire. -/
structure Sound (n : Notifier) : Prop where
  window : ∀ k, n.current = some k →
    ∃ t, n.timers[k]? = some t ∧ t.cancelled = false ∧ t.generation = n.generation
  waits : n.pending = true → n.current.isSome = true

/-- The state after the open window is closed, with nothing pending. -/
def closeWindow (n : Notifier) : Notifier := { n with current := none, pending := false }

/-- The timer of a new window comes after the others. -/
theorem getElem?_openWindow (n : Notifier) (k : ℕ) :
    n.openWindow.timers[k]? =
      if k = n.timers.length then some { delay := n.interval, generation := n.generation }
      else n.timers[k]? := by
  show (n.timers ++ [_])[k]? = _
  split_ifs with h
  · rw [h, List.getElem?_concat_length]
  · rcases Nat.lt_or_gt_of_ne h with hlt | hgt
    · exact List.getElem?_append_left hlt
    · rw [List.getElem?_eq_none (by rw [List.length_append]; exact hgt),
        List.getElem?_eq_none (Nat.le_of_lt hgt)]

/-- A timer after a window was opened is the new one or one from before. -/
theorem timer_openWindow {k : ℕ} {t : Timer} (ht : n.openWindow.timers[k]? = some t) :
    (k = n.timers.length ∧ t = { delay := n.interval, generation := n.generation }) ∨
      n.timers[k]? = some t := by
  rw [getElem?_openWindow] at ht
  split_ifs at ht with hk
  · exact .inl ⟨hk, (Option.some.inj ht).symm⟩
  · exact .inr ht

/-- A tick by what it does: nothing in an earlier generation, and else it closes the window, and
fires into a new one if a call is pending. -/
theorem tick_eq (n : Notifier) (t : Timer) :
    n.tick t =
      if t.generation ≠ n.generation then (n, false)
      else if n.pending then (n.closeWindow.openWindow, true)
      else (n.closeWindow, false) := by
  unfold tick
  split_ifs with hgen hpending
  · rfl
  · rfl
  · have : n.pending = false := by simpa using hpending
    rw [closeWindow, this]

/-- A call where windows last: it is pending while one is open, and else it opens one and fires. -/
theorem call_eq (h : n.isImmediate = false) :
    n.call = if n.current.isSome then ({ n with pending := true }, false)
      else (n.openWindow, true) := by
  rw [call, if_neg (by rw [h]; decide)]

/-- Timers that were there before a new one can be changed first. -/
theorem modify_concat {α : Type} {l : List α} {k : ℕ} (h : k < l.length) (f : α → α) (a : α) :
    (l ++ [a]).modify k f = l.modify k f ++ [a] := by
  refine List.ext_getElem? fun j => ?_
  rw [List.getElem?_modify]
  by_cases hj : j < l.length
  · rw [List.getElem?_append_left hj,
      List.getElem?_append_left (by rw [List.length_modify]; exact hj), List.getElem?_modify]
  · have hkj : k ≠ j := by omega
    simp only [if_neg hkj]
    rw [List.getElem?_append_right (Nat.le_of_not_lt hj), List.getElem?_append_right
      (by rw [List.length_modify]; exact Nat.le_of_not_lt hj), List.length_modify]
    exact id_map _

/-- A reset cancels, and opens a new window. -/
theorem reset_eq (hn : n.Sound) (h : n.isImmediate = false) : n.reset = n.cancel.openWindow := by
  unfold reset cancel
  rw [if_neg (by rw [h]; decide)]
  cases hcurrent : n.current with
  | none => rfl
  | some k =>
    obtain ⟨t, ht, -⟩ := hn.window k hcurrent
    have hk : k < n.timers.length := (List.getElem?_eq_some_iff.1 ht).1
    unfold cancelTimer openWindow dropWindow
    dsimp only
    split_ifs with hcancellable
    · rw [modify_concat hk, List.length_modify]
    · rfl

/-- The cancelling of a timer changes nothing but the timers. -/
theorem cancelTimer_eq (n : Notifier) (timer : Option ℕ) :
    n.cancelTimer timer = { n with timers := (n.cancelTimer timer).timers } := by
  unfold cancelTimer
  cases timer with
  | none => rfl
  | some i =>
    dsimp only
    split_ifs <;> rfl

/-- A cancel drops the window, and changes nothing else but the timers. -/
theorem cancel_eq (n : Notifier) : n.cancel = { n.dropWindow with timers := n.cancel.timers } :=
  cancelTimer_eq ..

@[simp] theorem cancel_current (n : Notifier) : n.cancel.current = none := by
  rw [cancel_eq]
  rfl

@[simp] theorem cancel_pending (n : Notifier) : n.cancel.pending = false := by
  rw [cancel_eq]
  rfl

@[simp] theorem cancel_generation (n : Notifier) : n.cancel.generation = n.generation + 1 := by
  rw [cancel_eq]
  rfl

@[simp] theorem cancel_interval (n : Notifier) : n.cancel.interval = n.interval := by
  rw [cancel_eq]
  rfl

@[simp] theorem cancel_cancellable (n : Notifier) : n.cancel.cancellable = n.cancellable := by
  rw [cancel_eq]
  rfl

/-- A cancelled window's timer is cancelled, if it can be. -/
theorem getElem?_cancel (n : Notifier) (k : ℕ) :
    n.cancel.timers[k]? = (n.timers[k]?).map fun t =>
      if n.cancellable = true ∧ n.current = some k then { t with cancelled := true } else t := by
  unfold cancel cancelTimer dropWindow
  cases hcurrent : n.current with
  | none => simp
  | some i =>
    dsimp only
    by_cases hcancellable : n.cancellable = true
    · rw [if_pos hcancellable, List.getElem?_modify]
      simp only [hcancellable, true_and, Option.some.injEq]
      rfl
    · rw [if_neg hcancellable]
      simp [hcancellable]

/-- A timer after a cancel is one from before, and it is cancelled if it was or if its window was
open, and it can be. -/
theorem timer_cancel {k : ℕ} {t : Timer} (ht : n.cancel.timers[k]? = some t) :
    ∃ u, n.timers[k]? = some u ∧ t.generation = u.generation ∧ t.delay = u.delay ∧
      (n.cancellable = true →
        (t.cancelled = true ↔ u.cancelled = true ∨ n.current = some k)) := by
  rw [getElem?_cancel] at ht
  obtain ⟨u, hu, rfl⟩ := Option.map_eq_some_iff.1 ht
  refine ⟨u, hu, ?_⟩
  split_ifs with hdropped
  · exact ⟨rfl, rfl, fun _ => ⟨fun _ => .inr hdropped.2, fun _ => rfl⟩⟩
  · refine ⟨rfl, rfl, fun hcancellable => ⟨.inl, fun h => h.resolve_right fun hcurrent => ?_⟩⟩
    exact hdropped ⟨hcancellable, hcurrent⟩

@[simp] theorem length_cancelTimer (n : Notifier) (timer : Option ℕ) :
    (n.cancelTimer timer).timers.length = n.timers.length := by
  unfold cancelTimer
  cases timer with
  | none => rfl
  | some i =>
    dsimp only
    split_ifs
    · exact List.length_modify ..
    · rfl

@[simp] theorem length_cancel (n : Notifier) : n.cancel.timers.length = n.timers.length :=
  length_cancelTimer ..

/-- No operation changes the interval, or whether timers can be cancelled. -/
theorem move_settings (n : Notifier) (step : NotifierStep) :
    (n.move step).1.interval = n.interval ∧ (n.move step).1.cancellable = n.cancellable := by
  cases step with
  | call =>
    show n.call.1.interval = _ ∧ n.call.1.cancellable = _
    unfold call
    split_ifs <;> exact ⟨rfl, rfl⟩
  | cancel => exact ⟨cancel_interval n, cancel_cancellable n⟩
  | reset =>
    show n.reset.interval = _ ∧ n.reset.cancellable = _
    unfold reset
    split_ifs
    · exact ⟨rfl, rfl⟩
    · rw [cancelTimer_eq]
      exact ⟨rfl, rfl⟩
  | tick i =>
    unfold move
    dsimp only
    cases n.timerAt? i with
    | none => exact ⟨rfl, rfl⟩
    | some t =>
      dsimp only
      unfold tick
      split_ifs <;> exact ⟨rfl, rfl⟩

/-- No operation changes whether every call fires. -/
theorem move_isImmediate (n : Notifier) (step : NotifierStep) :
    (n.move step).1.isImmediate = n.isImmediate := by
  rw [isImmediate, (n.move_settings step).1]
  rfl

/-! ## Soundness -/

/-- A new notifier is sound. -/
theorem Sound.ofMillis (millis : Double) (cancellable : Bool) :
    (ofMillis millis cancellable).Sound :=
  ⟨fun _ h => (nomatch h), fun h => nomatch h⟩

/-- A closed window is sound. -/
theorem Sound.closeWindow (n : Notifier) : n.closeWindow.Sound :=
  ⟨fun _ h => (nomatch h), fun h => nomatch h⟩

/-- A cancelled window is sound. -/
theorem Sound.cancel (n : Notifier) : n.cancel.Sound := by
  refine ⟨fun k hk => ?_, fun h => ?_⟩
  · rw [cancel_current] at hk
    cases hk
  · rw [cancel_pending] at h
    cases h

/-- An opened window is sound. -/
theorem Sound.openWindow (n : Notifier) : n.openWindow.Sound := by
  refine ⟨fun k hk => ?_, fun _ => rfl⟩
  obtain rfl : n.timers.length = k := Option.some.inj hk
  exact ⟨_, by rw [getElem?_openWindow, if_pos rfl], rfl, rfl⟩

/-- **Every operation keeps a notifier sound.** -/
theorem Sound.move (hn : n.Sound) (step : NotifierStep) : (n.move step).1.Sound := by
  cases step with
  | call =>
    show n.call.1.Sound
    unfold Notifier.call
    split_ifs with himmediate hcurrent
    · exact hn
    · -- a call is left pending only where a window is open
      exact ⟨hn.window, fun _ => hcurrent⟩
    · exact Sound.openWindow n
  | cancel => exact Sound.cancel n
  | reset =>
    show n.reset.Sound
    by_cases himmediate : n.isImmediate = true
    · rw [reset, if_pos himmediate]
      exact hn
    · rw [reset_eq hn (by simpa using himmediate)]
      exact Sound.openWindow _
  | tick i =>
    cases hi : n.number? i with
    | none =>
      rw [move_tick_none hi]
      exact hn
    | some k =>
      obtain ⟨t, ht⟩ := exists_of_number? hi
      rw [move_tick hi ht, tick_eq]
      split_ifs
      · exact hn
      · exact Sound.openWindow _
      · exact Sound.closeWindow n

/-! ## Timers that tick once -/

/-- The numbers of the timers that an operation is the tick of: one at most. -/
def ticks (n : Notifier) : NotifierStep → List ℕ
  | .tick i => (n.number? i).toList
  | _ => []

/-- The state of a notifier of whose timers some have ticked, each once.  The open window's timer
has not ticked, and it is the only such timer of its generation. -/
structure Once (n : Notifier) (ticked : List ℕ) : Prop extends Sound n where
  fresh : ∀ k, n.current = some k → k ∉ ticked
  only : ∀ (k : ℕ) (t : Timer), n.timers[k]? = some t → t.generation = n.generation →
    k ∉ ticked → n.current = some k
  older : ∀ (k : ℕ) (t : Timer), n.timers[k]? = some t → t.generation ≤ n.generation
  delays : ∀ (k : ℕ) (t : Timer), n.timers[k]? = some t → t.delay = n.interval
  known : ∀ k ∈ ticked, k < n.timers.length

/-- Of a new notifier no timer has ticked. -/
theorem Once.ofMillis (millis : Double) (cancellable : Bool) :
    (ofMillis millis cancellable).Once [] where
  toSound := Sound.ofMillis millis cancellable
  fresh _ hk := nomatch hk
  only _ _ ht := nomatch ht
  older _ _ ht := nomatch ht
  delays _ _ ht := nomatch ht
  known _ hk := nomatch hk

/-- While no window is open, one can be opened. -/
theorem Once.openWindow (h : n.Once ticked) (hnone : n.current = none) :
    n.openWindow.Once ticked := by
  have hold : ∀ {k}, n.current ≠ some k := by simp [hnone]
  refine
    { toSound := Sound.openWindow n
      fresh := ?_, only := ?_, older := ?_, delays := ?_, known := ?_ }
  · rintro k hk hticked
    obtain rfl : n.timers.length = k := Option.some.inj hk
    exact Nat.lt_irrefl _ (h.known _ hticked)
  · -- an older timer of this generation that has not ticked would be an open window's
    intro k t ht hgen hk
    rcases timer_openWindow ht with ⟨rfl, -⟩ | ht
    · rfl
    · exact absurd (h.only k t ht hgen hk) hold
  · intro k t ht
    rcases timer_openWindow ht with ⟨-, rfl⟩ | ht
    · exact Nat.le_refl _
    · exact h.older k t ht
  · intro k t ht
    rcases timer_openWindow ht with ⟨-, rfl⟩ | ht
    · rfl
    · exact h.delays k t ht
  · intro k hk
    show k < (n.timers ++ [_]).length
    rw [List.length_append]
    exact Nat.lt_add_right _ (h.known k hk)

/-- The open window can be cancelled. -/
theorem Once.cancel (h : n.Once ticked) : n.cancel.Once ticked := by
  refine
    { toSound := Sound.cancel n
      fresh := ?_, only := ?_, older := ?_, delays := ?_, known := ?_ }
  · intro k hk
    rw [cancel_current] at hk
    cases hk
  · -- the cancel begins a generation that no timer is of
    intro k t ht hgen
    obtain ⟨u, hu, htu, -⟩ := timer_cancel ht
    have := h.older k u hu
    rw [cancel_generation] at hgen
    omega
  · intro k t ht
    obtain ⟨u, hu, htu, -⟩ := timer_cancel ht
    have := h.older k u hu
    rw [cancel_generation]
    omega
  · intro k t ht
    obtain ⟨u, hu, -, hdelay, -⟩ := timer_cancel ht
    rw [hdelay, cancel_interval]
    exact h.delays k u hu
  · intro k hk
    rw [length_cancel]
    exact h.known k hk

/-- The tick of the timer of the open window can close it. -/
theorem Once.closeWindow (h : n.Once ticked) {k : ℕ} (hk : n.current = some k) :
    n.closeWindow.Once (ticked ++ [k]) := by
  have hother : ∀ {j}, j ∉ ticked ++ [k] → j ∉ ticked ∧ n.current ≠ some j := by
    intro j hj
    rw [List.mem_append, List.mem_singleton, not_or] at hj
    refine ⟨hj.1, fun hcurrent => hj.2 ?_⟩
    exact Option.some.inj (hcurrent.symm.trans hk)
  obtain ⟨t, ht, -⟩ := h.window k hk
  refine
    { toSound := Sound.closeWindow n
      fresh := fun j hj => nomatch hj
      only := fun j u hu hgen hj => ?_
      older := h.older
      delays := h.delays
      known := fun j hj => ?_ }
  · exact absurd (h.only j u hu hgen (hother hj).1) (hother hj).2
  · rcases List.mem_append.1 hj with hj | hj
    · exact h.known j hj
    · obtain rfl := List.mem_singleton.1 hj
      exact (List.getElem?_eq_some_iff.1 ht).1

/-- A timer of an earlier generation can tick. -/
theorem Once.tick_earlier (h : n.Once ticked) {k : ℕ} {t : Timer} (ht : n.timers[k]? = some t)
    (hgen : t.generation ≠ n.generation) : n.Once (ticked ++ [k]) := by
  have hold : ∀ {j}, j ∉ ticked ++ [k] → j ∉ ticked := fun hj hmem =>
    hj (List.mem_append_left _ hmem)
  refine
    { toSound := h.toSound
      fresh := fun j hj => ?_
      only := fun j u hu hgen hj => h.only j u hu hgen (hold hj)
      older := h.older
      delays := h.delays
      known := fun j hj => ?_ }
  · -- the open window's timer is of the current generation, so it is not the one that ticks
    rw [List.mem_append, List.mem_singleton, not_or]
    refine ⟨h.fresh j hj, ?_⟩
    rintro rfl
    obtain ⟨u, hu, -, hgenu⟩ := h.window j hj
    rw [ht] at hu
    exact hgen (Option.some.inj hu ▸ hgenu)
  · rcases List.mem_append.1 hj with hj | hj
    · exact h.known j hj
    · obtain rfl := List.mem_singleton.1 hj
      exact (List.getElem?_eq_some_iff.1 ht).1

/-- The tick of a timer that has not ticked, by what it does. -/
theorem Once.tick_eq (h : n.Once ticked) {k : ℕ} {t : Timer} (ht : n.timers[k]? = some t)
    (hk : k ∉ ticked) :
    n.tick t =
      if n.current ≠ some k then (n, false)
      else if n.pending then (n.closeWindow.openWindow, true)
      else (n.closeWindow, false) := by
  -- of the timers that have not ticked, only the open window's is of the current generation
  have hiff : t.generation ≠ n.generation ↔ n.current ≠ some k := by
    rw [not_iff_not]
    refine ⟨fun hgen => h.only k t ht hgen hk, fun hcurrent => ?_⟩
    obtain ⟨u, hu, -, hgen⟩ := h.window k hcurrent
    rw [ht] at hu
    exact Option.some.inj hu ▸ hgen
  rw [Notifier.tick_eq]
  simp only [hiff]

/-- A tick, of a timer that has not ticked, by what it does: nothing, unless it is the open
window's, and then it closes the window, and fires into a new one if a call is pending. -/
theorem Once.move_tick_eq (h : n.Once ticked) {i : Int}
    (hstep : ∀ k ∈ n.ticks (.tick i), k ∉ ticked) :
    n.move (.tick i) =
      if n.current.isSome ∧ n.number? i = n.current then
        if n.pending then (n.closeWindow.openWindow, true) else (n.closeWindow, false)
      else (n, false) := by
  cases hi : n.number? i with
  | none =>
    have hnone : ¬(n.current.isSome = true ∧ none = n.current) := by
      rintro ⟨hsome, hcurrent⟩
      rw [← hcurrent] at hsome
      cases hsome
    rw [move_tick_none hi, if_neg hnone]
  | some k =>
    obtain ⟨t, ht⟩ := exists_of_number? hi
    have hk : k ∉ ticked := hstep k (by rw [ticks, hi]; exact List.mem_singleton_self k)
    rw [move_tick hi ht, h.tick_eq ht hk]
    by_cases hcurrent : n.current = some k
    · have hand : n.current.isSome = true ∧ some k = n.current :=
        ⟨Option.isSome_of_eq_some hcurrent, hcurrent.symm⟩
      rw [if_neg (not_not.2 hcurrent), if_pos hand]
    · have hnot : ¬(n.current.isSome = true ∧ some k = n.current) := fun hand =>
        hcurrent hand.2.symm
      rw [if_pos hcurrent, if_neg hnot]

/-- **Every operation keeps what holds while each timer ticks at most once.** -/
theorem Once.move (h : n.Once ticked) (hn : n.isImmediate = false) {step : NotifierStep}
    (hstep : ∀ k ∈ n.ticks step, k ∉ ticked) : (n.move step).1.Once (ticked ++ n.ticks step) := by
  cases step with
  | call =>
    show n.call.1.Once (ticked ++ [])
    rw [List.append_nil, call_eq hn]
    split_ifs with hcurrent
    · exact
        { toSound := ⟨h.window, fun _ => hcurrent⟩
          fresh := h.fresh
          only := h.only
          older := h.older
          delays := h.delays
          known := h.known }
    · exact h.openWindow (Option.not_isSome_iff_eq_none.1 hcurrent)
  | cancel =>
    show n.cancel.Once (ticked ++ [])
    rw [List.append_nil]
    exact h.cancel
  | reset =>
    show n.reset.Once (ticked ++ [])
    -- a reset is a cancel and a window that opens
    rw [List.append_nil, reset_eq h.toSound hn]
    exact h.cancel.openWindow (cancel_current n)
  | tick i =>
    cases hi : n.number? i with
    | none =>
      rw [move_tick_none hi, ticks, hi]
      exact (List.append_nil ticked).symm ▸ h
    | some k =>
      obtain ⟨t, ht⟩ := exists_of_number? hi
      have hticks : n.ticks (.tick i) = [k] := by rw [ticks, hi]; rfl
      have hk : k ∉ ticked := hstep k (by rw [hticks]; exact List.mem_singleton_self k)
      -- the timer is of an earlier generation, or it is the open window's
      rw [move_tick hi ht, hticks, Notifier.tick_eq]
      split_ifs with hgen hpending
      · exact h.tick_earlier ht hgen
      · exact (h.closeWindow (h.only k t ht (not_not.1 hgen) hk)).openWindow rfl
      · exact h.closeWindow (h.only k t ht (not_not.1 hgen) hk)

end Notifier

end LiveChart
