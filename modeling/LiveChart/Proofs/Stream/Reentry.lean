import LiveChart.Proofs.Stream.Window
import Mathlib.Logic.Relation
/-!
# Callbacks that call back, one step at a time

A callback runs after the notifier has changed, and may operate it again.  Here a run is taken one
operation at a time, with the actions of the callbacks that have not ended on a stack, so that the
notifier is seen in the middle of its fires.

* `Machine.advance` : the next operation, failure or end of a callback;
* `Machine.ends_session` : run to its end, the machine is where the session is.
-/

namespace LiveChart

/-- What a callback does on each of its fires, by their number. -/
abbrev Callback : Type := ℕ → List CallbackAction

/-! ## Scripts -/

namespace Script

variable {script : Script} {fire : ℕ}

/-- The callback that acts as a script says. -/
def callback (script : Script) : Callback := fun fire => (script.lookup fire).getD []

/-- The number of entries that a script has for a fire or a later one. -/
def remaining (script : Script) (fire : ℕ) : ℕ := script.countP fun entry => fire ≤ entry.1

/-- A script has no more entries for later fires. -/
theorem remaining_anti (script : Script) {later : ℕ} (h : fire ≤ later) :
    script.remaining later ≤ script.remaining fire := by
  refine List.countP_mono_left fun entry _ hentry => ?_
  rw [decide_eq_true_iff] at hentry ⊢
  exact Nat.le_trans h hentry

/-- After a fire that a script has an entry for, fewer entries remain. -/
theorem remaining_succ_lt {actions : List CallbackAction} (h : script.lookup fire = some actions) :
    script.remaining (fire + 1) < script.remaining fire := by
  induction script with
  | nil => cases h
  | cons entry script ih =>
    have hrest : remaining script (fire + 1) ≤ remaining script fire :=
      remaining_anti script (Nat.le_succ fire)
    unfold remaining at ih hrest ⊢
    rw [List.countP_cons, List.countP_cons]
    by_cases hkey : fire = entry.1
    · -- the entry is for this fire, and not for a later one
      rw [if_neg (by rw [decide_eq_true_iff]; omega), if_pos (by rw [decide_eq_true_iff]; omega)]
      omega
    · have hlookup : List.lookup fire script = some actions := by
        rw [List.lookup_cons, beq_false_of_ne hkey] at h
        exact h
      have hless := ih hlookup
      split_ifs with hafter hfrom
      · omega
      · rw [decide_eq_true_iff] at hafter hfrom
        omega
      · omega
      · omega

end Script

/-! ## The machine -/

/-- The numbers of the timers whose window an operation drops: one at most. -/
def Notifier.drops (n : Notifier) : NotifierStep → List ℕ
  | .cancel | .reset => n.current.toList
  | _ => []

/-- A notifier in the middle of a run. -/
structure Machine where
  /-- What remains to be done: for each callback that runs, the innermost first, and at the end what
  remains of the run itself. -/
  waiting : List (List CallbackAction)
  session : Session
  /-- The numbers of the timers that ticked. -/
  ticked : List ℕ := []
  /-- The numbers of the timers whose window was dropped. -/
  dropped : List ℕ := []

namespace Machine

variable {callback : Callback} {script : Script} {m m' : Machine} {s : Session}
  {rest : List (List CallbackAction)} {actions : List CallbackAction} {step : NotifierStep}

/-- A run of operations on a notifier. -/
def start (n : Notifier) (steps : List NotifierStep) : Machine :=
  { waiting := [steps.map .step], session := { notifier := n } }

/-- Perform an operation.  If it fires, the callback's actions come before the rest. -/
def operate (callback : Callback) (step : NotifierStep) (rest : List (List CallbackAction))
    (m : Machine) : Machine :=
  let moved := m.session.notifier.move step
  { waiting := if moved.2 then callback m.session.fired :: rest else rest
    session := { m.session with
      notifier := moved.1
      fired := if moved.2 then m.session.fired + 1 else m.session.fired }
    ticked := m.ticked ++ m.session.notifier.ticks step
    dropped := m.dropped ++ m.session.notifier.drops step }

/-- What comes next: an operation, a failure, which ends a callback and is reported, or the end of a
callback. -/
def advance (callback : Callback) (m : Machine) : Option Machine :=
  match m.waiting with
  | [] => none
  | [] :: rest => some { m with waiting := rest }
  | (.raise :: _) :: rest =>
    some { m with
      waiting := rest
      session := { m.session with lines := m.session.lines ++ [Session.failureLine] } }
  | (.step step :: actions) :: rest => some (m.operate callback step (actions :: rest))

/-- A machine comes to be another one. -/
def Reaches (callback : Callback) : Machine → Machine → Prop :=
  Relation.ReflTransGen fun m m' => m.advance callback = some m'

/-- A machine comes to a session with the rest to be done. -/
def Ends (callback : Callback) (m : Machine) (rest : List (List CallbackAction)) (s : Session) :
    Prop :=
  ∃ m', Reaches callback m m' ∧ m'.waiting = rest ∧ m'.session = s

theorem Ends.of_advance (h : m.advance callback = some m') (hends : m'.Ends callback rest s) :
    m.Ends callback rest s := by
  obtain ⟨m'', hreaches, hend⟩ := hends
  exact ⟨m'', .head h hreaches, hend⟩

/-- When nothing is left to do, a callback ends. -/
theorem ends_of_nil (h : m.waiting = [] :: rest) : m.Ends callback rest m.session := by
  have hadvance : m.advance callback = some { m with waiting := rest } := by rw [advance, h]
  exact .of_advance hadvance ⟨_, .refl, rfl, rfl⟩

theorem advance_step (h : m.waiting = (.step step :: actions) :: rest) :
    m.advance callback = some (m.operate callback step (actions :: rest)) := by
  rw [advance, h]

/-! ## Sessions -/

/-- Sessions whose callbacks nest this deep follow the machine, as long as the script has no more
entries for what comes: an operation, with all that its callback does, ends in the same session. -/
def Follows (script : Script) (depth : ℕ) : Prop :=
  ∀ (m : Machine) (step : NotifierStep) (actions : List CallbackAction)
    (rest : List (List CallbackAction)), m.waiting = (.step step :: actions) :: rest →
    script.remaining m.session.fired ≤ depth →
    m.Ends script.callback (actions :: rest) (m.session.performWithin script depth step) ∧
      m.session.fired ≤ (m.session.performWithin script depth step).fired

/-- The actions of a callback end in the same session. -/
theorem Follows.act {depth : ℕ} (hfollows : Follows script depth) (h : m.waiting = actions :: rest)
    (hdepth : script.remaining m.session.fired ≤ depth) :
    m.Ends script.callback rest (m.session.actWithin script depth actions) ∧
      m.session.fired ≤ (m.session.actWithin script depth actions).fired := by
  induction actions generalizing m with
  | nil =>
    rw [Session.actWithin]
    exact ⟨ends_of_nil h, Nat.le_refl _⟩
  | cons action actions ih =>
    cases action with
    | raise =>
      rw [Session.actWithin]
      have hadvance : m.advance script.callback = some { m with
          waiting := rest
          session := { m.session with lines := m.session.lines ++ [Session.failureLine] } } := by
        rw [advance, h]
      exact ⟨.of_advance hadvance ⟨_, .refl, rfl, rfl⟩, Nat.le_refl _⟩
    | step step =>
      obtain ⟨⟨m', hreaches, hwaiting, hsession⟩, hfired⟩ := hfollows m step actions rest h hdepth
      -- fires only get more, so the script has no more entries for what comes
      rw [Session.actWithin, ← hsession]
      rw [← hsession] at hfired
      have hdepth' := Nat.le_trans (script.remaining_anti hfired) hdepth
      obtain ⟨⟨m'', hreaches', hend⟩, hfired'⟩ := ih hwaiting hdepth'
      exact ⟨⟨m'', hreaches.trans hreaches', hend⟩, Nat.le_trans hfired hfired'⟩

/-- A fire ends in the same session. -/
theorem ends_fireWithin {depth fire : ℕ} (hfollows : ∀ d, d + 1 = depth → Follows script d)
    (h : m.waiting = script.callback fire :: rest) (hfired : m.session.fired = fire + 1)
    (hdepth : script.remaining fire ≤ depth) :
    m.Ends script.callback rest ({ m.session with fired := fire }.fireWithin script depth) ∧
      fire ≤ ({ m.session with fired := fire }.fireWithin script depth).fired := by
  have hsession : { m.session with fired := fire + 1 } = m.session := by rw [← hfired]
  cases hlookup : script.lookup fire with
  | none =>
    have hnil : script.callback fire = [] := by rw [Script.callback, hlookup]; rfl
    have hfire : { m.session with fired := fire }.fireWithin script depth = m.session := by
      cases depth with
      | zero =>
        rw [Session.fireWithin]
        exact hsession
      | succ d =>
        rw [Session.fireWithin, hlookup]
        show Session.actWithin script d [] _ = _
        rw [Session.actWithin]
        exact hsession
    rw [hnil] at h
    rw [hfire, hfired]
    exact ⟨ends_of_nil h, Nat.le_succ fire⟩
  | some actions =>
    have hactions : script.callback fire = actions := by rw [Script.callback, hlookup]; rfl
    -- the script has an entry for this fire, so its actions may nest one less deep
    have hless := Script.remaining_succ_lt hlookup
    obtain ⟨d, rfl⟩ := Nat.exists_eq_succ_of_ne_zero (Nat.ne_of_gt (Nat.lt_of_lt_of_le
      (Nat.zero_lt_of_lt hless) hdepth))
    have hfire : { m.session with fired := fire }.fireWithin script (d + 1)
        = m.session.actWithin script d actions := by
      rw [Session.fireWithin, hlookup]
      exact congrArg _ hsession
    rw [hactions] at h
    rw [hfire]
    obtain ⟨hends, hle⟩ := (hfollows d rfl).act h (by rw [hfired]; omega)
    exact ⟨hends, by omega⟩

/-- Sessions follow the machine if those whose callbacks nest one less deep do. -/
theorem Follows.of_below {depth : ℕ} (hfollows : ∀ d, d + 1 = depth → Follows script d) :
    Follows script depth := by
  intro m step actions rest h hdepth
  have hadvance : m.advance script.callback = _ := advance_step h
  rw [Session.performWithin]
  by_cases hfires : (m.session.notifier.move step).2 = true
  · rw [if_pos hfires]
    have hwaiting : (m.operate script.callback step (actions :: rest)).waiting
        = script.callback m.session.fired :: actions :: rest := if_pos hfires
    have hfired : (m.operate script.callback step (actions :: rest)).session.fired
        = m.session.fired + 1 := if_pos hfires
    obtain ⟨hends, hle⟩ := ends_fireWithin hfollows hwaiting hfired hdepth
    exact ⟨.of_advance hadvance hends, hle⟩
  · rw [if_neg hfires]
    have hwaiting : (m.operate script.callback step (actions :: rest)).waiting
        = actions :: rest := if_neg hfires
    have hsession : (m.operate script.callback step (actions :: rest)).session
        = { m.session with notifier := (m.session.notifier.move step).1 } := by
      unfold operate
      dsimp only
      rw [if_neg hfires]
    exact ⟨.of_advance hadvance ⟨_, .refl, hwaiting, hsession⟩, Nat.le_refl _⟩

/-- **Sessions follow the machine**, however deep their callbacks nest. -/
theorem follows (script : Script) (depth : ℕ) : Follows script depth := by
  induction depth with
  | zero => exact .of_below fun d hd => nomatch hd
  | succ depth ih =>
    refine .of_below fun d hd => ?_
    obtain rfl : d = depth := Nat.succ.inj hd
    exact ih

/-- The operations of a run end in the same session. -/
theorem ends_steps (script : Script) {steps : List NotifierStep}
    (h : m.waiting = steps.map .step :: rest) :
    m.Ends script.callback rest (steps.foldl (fun s step => s.perform script step) m.session) := by
  induction steps generalizing m with
  | nil => exact ends_of_nil h
  | cons step steps ih =>
    have hdepth : script.remaining m.session.fired ≤ script.length + 1 :=
      Nat.le_succ_of_le List.countP_le_length
    obtain ⟨m', hreaches, hwaiting, hsession⟩ :=
      (follows script (script.length + 1) m step (steps.map .step) rest h hdepth).1
    obtain ⟨m'', hreaches', hend⟩ := ih hwaiting
    rw [hsession] at hend
    exact ⟨m'', hreaches.trans hreaches', hend⟩

/-- **Run to its end, the machine is where the session is.** -/
theorem ends_session (script : Script) (n : Notifier) (steps : List NotifierStep) :
    (start n steps).Ends script.callback []
      (steps.foldl (fun s step => s.perform script step) { notifier := n }) :=
  ends_steps script rfl

end Machine

end LiveChart
