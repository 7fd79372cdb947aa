import LiveChart.Proofs.Stream.Delivery
/-!
# The data do not depend on delivery

How often frames are shown, of what rows, and whether the renderer takes them, makes no difference
to the rows that are kept and to the counts that are given back.  Of two controllers that take in
rows the same way, two runs with the same changes of the rows give the same account of them,
whatever else takes place in either.

* `Store` : the part of a controller that its data depend on;
* `Core.store_step_of_not_mutates` : other steps leave the store as it is;
* `Core.store_step_congr` and `Controller.given_congr` : a change of the rows sees only the store;
* `Controller.account` : what a run shows of the data;
* `Controller.account_filter` : a run shows no more than its changes do by themselves.
-/

namespace LiveChart

/-- The rows of a controller, and what decides how others are taken in. -/
structure Store where
  columns : List Column
  mode : StreamingMode
  buffer : Buffer Row

namespace Controller

/-- Whether a step is one of those that take in rows or remove them. -/
def Step.mutates : Step → Bool
  | .append _ | .replace _ | .ingest .. | .clear => true
  | _ => false

end Controller

/-! ## What a step does to the store -/

/-- The rows after an effect. -/
def Effect.rowsAfter (e : Effect) (buffer : Buffer Row) : Buffer Row :=
  match e with
  | .change changed => changed
  | .clear => buffer.clear
  | _ => buffer

namespace Core

variable {k l : Core} {s : Controller.Step}

/-- The store of a controller. -/
def store (k : Core) : Store := ⟨k.columns, k.spec.streaming.mode, k.buffer⟩

/-- An operation of the notifier keeps the store. -/
@[simp] theorem move_store (k : Core) (step : NotifierStep) : (k.move step).store = k.store := by
  rw [move_eq]
  rfl

/-- An effect changes nothing of the store but the rows. -/
theorem apply_store (k : Core) (e : Effect) :
    (k.apply e).store = { k.store with buffer := e.rowsAfter k.buffer } := by
  cases e with
  | nothing => rfl
  | change buffer => exact move_store { k with buffer } .call
  | clear => exact move_store { k with buffer := k.buffer.clear } .reset
  | flush => exact move_store k .reset
  | tick i => exact move_store k (.tick i)
  | close => exact move_store k .cancel

/-- **A step that is no change of the rows leaves the store as it is.** -/
theorem store_step_of_not_mutates (k : Core) (hs : s.mutates = false) :
    (k.step s).store = k.store := by
  have hrows : (k.effect s).rowsAfter k.buffer = k.buffer := by
    cases s with
    | append rows => cases hs
    | replace rows => cases hs
    | ingest columns rows isLive => cases hs
    | clear => cases hs
    | _ => rfl
  rw [step, apply_store, hrows]
  rfl

/-- **What a step comes to depends on the store alone**, while the controller is open. -/
theorem effect_congr (hk : k.closed = false) (hl : l.closed = false) (h : k.store = l.store) :
    k.effect s = l.effect s := by
  obtain ⟨hcolumns, hmode, hbuffer⟩ := Store.mk.inj h
  cases s with
  | append rows => simp only [effect, hk, hl, hcolumns, hbuffer]
  | replace rows => simp only [effect, hk, hl, hcolumns, hbuffer]
  | ingest columns rows isLive => simp only [effect, ingestEffect, hk, hl, hmode, hbuffer]
  | clear => simp only [effect, hk, hl]
  | _ => rfl

/-- **The store after a step depends on the store before it alone**, while the controller is
open. -/
theorem store_step_congr (hk : k.closed = false) (hl : l.closed = false) (h : k.store = l.store) :
    (k.step s).store = (l.step s).store := by
  have hbuffer : k.buffer = l.buffer := (Store.mk.inj h).2.2
  rw [step, step, apply_store, apply_store, effect_congr hk hl h, h, hbuffer]

end Core

/-! ## What a step gives back -/

namespace Controller

variable {c d : Controller} {s : Step}

/-- What a step gives back of the data: nothing for a clear, whose result tells of its delivery. -/
def given (c : Controller) (s : Step) : Option (Result StepResult) :=
  match s with
  | .clear => none
  | s => some (c.step s).2

/-- The counts of a batch that is appended. -/
theorem counts_appendBatch (c : Controller) (columns : List Column) (rows : List Value) :
    (c.appendBatch columns rows).2 = ⟨(accepted columns rows).length, rejected columns rows,
      c.buffer.appendEvicts (accepted columns rows)⟩ := rfl

/-- The counts of a batch that replaces the rows. -/
theorem counts_replaceBatch (c : Controller) (columns : List Column) (rows : List Value) :
    (c.replaceBatch columns rows).2 =
      ⟨(accepted columns rows).length - c.buffer.replaceDrops (accepted columns rows),
        rejected columns rows, c.buffer.replaceDrops (accepted columns rows)⟩ := rfl

/-- The counts of a source that is taken in. -/
theorem counts_ingest (c : Controller) (source : Source) :
    (c.ingest source).2 =
      match c.spec.streaming.mode with
      | .append => (c.appendBatch source.columns source.rows).2
      | .replace => (c.replaceBatch source.columns source.rows).2 := by
  unfold ingest
  cases c.spec.streaming.mode <;> rfl

/-- What appending gives back. -/
theorem result_append (c : Controller) {rows : Value} {items : List Value}
    (hrows : rows.elements = .ok items) :
    (c.step (.append rows)).2
      = if c.closed then .error .closed else .ok (.counts (c.appendBatch c.columns items).2) := by
  cases hclosed : c.closed <;> simp [step, whileOpen, withElements, hclosed, hrows]

/-- What replacing gives back. -/
theorem result_replace (c : Controller) {rows : Value} {items : List Value}
    (hrows : rows.elements = .ok items) :
    (c.step (.replace rows)).2
      = if c.closed then .error .closed else .ok (.counts (c.replaceBatch c.columns items).2) := by
  cases hclosed : c.closed <;> simp [step, whileOpen, withElements, hclosed, hrows]

/-- What taking in a source gives back. -/
theorem result_ingest (c : Controller) {columns rows isLive : Value} {source : Source}
    (hsource : Source.ofValues columns rows isLive = .ok source) :
    (c.step (.ingest columns rows isLive)).2
      = if c.closed then .error .closed else .ok (.counts (c.ingest source).2) := by
  cases hclosed : c.closed <;> simp [step, whileOpen, hclosed, hsource]

/-- **What a change of the rows gives back depends on the store alone.** -/
theorem given_congr (hc : c.closed = false) (hd : d.closed = false)
    (h : c.core.store = d.core.store) (hs : s.mutates = true) : c.given s = d.given s := by
  obtain ⟨hcolumns, hmode, hbuffer⟩ := Store.mk.inj h
  replace hcolumns : c.columns = d.columns := hcolumns
  replace hmode : c.spec.streaming.mode = d.spec.streaming.mode := hmode
  replace hbuffer : c.buffer = d.buffer := hbuffer
  cases s with
  | append rows =>
    cases hrows : rows.elements with
    | error e => simp [given, step, whileOpen, withElements, hc, hd, hrows]
    | ok items =>
      simp [given, step, whileOpen, withElements, hc, hd, hrows, counts_appendBatch, hcolumns,
        hbuffer]
  | replace rows =>
    cases hrows : rows.elements with
    | error e => simp [given, step, whileOpen, withElements, hc, hd, hrows]
    | ok items =>
      simp [given, step, whileOpen, withElements, hc, hd, hrows, counts_replaceBatch, hcolumns,
        hbuffer]
  | ingest columns rows isLive =>
    cases hsource : Source.ofValues columns rows isLive with
    | error e => simp [given, step, hsource]
    | ok source =>
      simp [given, step, whileOpen, hc, hd, hsource, counts_ingest, counts_appendBatch,
        counts_replaceBatch, hmode, hbuffer]
  | clear => rfl
  | _ => cases hs

/-! ## Runs -/

/-- What a run shows of the data: for every step that takes in rows or removes them, what it gives
back, and the rows after it. -/
def account (c : Controller) : List Step → List (Option (Result StepResult) × List Row)
  | [] => []
  | s :: steps =>
    let after := (c.step s).1
    if s.mutates then (c.given s, after.buffer.rows) :: after.account steps
    else after.account steps

/-- The account of a run that begins with a change of the rows. -/
theorem account_cons_of_mutates (hs : s.mutates = true) (c : Controller) (steps : List Step) :
    c.account (s :: steps)
      = (c.given s, (c.step s).1.buffer.rows) :: (c.step s).1.account steps :=
  if_pos hs

/-- The account of a run that begins with another step. -/
theorem account_cons_of_not_mutates (hs : s.mutates = false) (c : Controller)
    (steps : List Step) : c.account (s :: steps) = (c.step s).1.account steps :=
  if_neg (by rw [hs]; decide)

/-- An open controller stays open until it is closed. -/
theorem step_open (hc : c.closed = false) (hs : s ≠ .close) : (c.step s).1.closed = false := by
  show (c.step s).1.core.closed = false
  rw [core_step]
  exact Core.step_closed hc hs

/-- The store after a step. -/
theorem store_step (c : Controller) (s : Step) :
    (c.step s).1.core.store = (c.core.step s).store := by
  rw [core_step]

/-- The rows after a step are those that its effect leaves. -/
theorem buffer_step (c : Controller) (s : Step) :
    (c.step s).1.buffer = (c.core.effect s).rowsAfter c.buffer := by
  show (c.step s).1.core.store.buffer = _
  rw [core_step, Core.step, Core.apply_store]
  rfl

/-- **Controllers with one store give one account of a run.** -/
theorem account_congr {steps : List Step} (hsteps : ∀ s ∈ steps, s ≠ .close)
    (hc : c.closed = false) (hd : d.closed = false) (h : c.core.store = d.core.store) :
    c.account steps = d.account steps := by
  induction steps generalizing c d with
  | nil => rfl
  | cons s steps ih =>
    obtain ⟨hclose, hrest⟩ := List.forall_mem_cons.1 hsteps
    have hstore : (c.step s).1.core.store = (d.step s).1.core.store := by
      rw [store_step, store_step]
      exact Core.store_step_congr hc hd h
    have hnext := ih hrest (step_open hc hclose) (step_open hd hclose) hstore
    cases hs : s.mutates with
    | false => rw [account_cons_of_not_mutates hs, account_cons_of_not_mutates hs, hnext]
    | true =>
      have hrows : (c.step s).1.buffer.rows = (d.step s).1.buffer.rows :=
        congrArg (fun store => store.buffer.rows) hstore
      rw [account_cons_of_mutates hs, account_cons_of_mutates hs, hnext,
        given_congr hc hd h hs, hrows]

/-- **A run shows no more of the data than its changes of the rows do by themselves.** -/
theorem account_filter {steps : List Step} (hsteps : ∀ s ∈ steps, s ≠ .close)
    (hc : c.closed = false) : c.account steps = c.account (steps.filter Step.mutates) := by
  induction steps generalizing c with
  | nil => rfl
  | cons s steps ih =>
    obtain ⟨hclose, hrest⟩ := List.forall_mem_cons.1 hsteps
    have hnext := ih hrest (step_open hc hclose)
    cases hs : s.mutates with
    | false =>
      have hstore : (c.step s).1.core.store = c.core.store := by
        rw [store_step]
        exact c.core.store_step_of_not_mutates hs
      have hchanges : ∀ t ∈ steps.filter Step.mutates, t ≠ .close := fun t ht =>
        hrest t (List.mem_of_mem_filter ht)
      rw [account_cons_of_not_mutates hs, hnext, List.filter_cons_of_neg (by rw [hs]; decide)]
      exact account_congr hchanges (step_open hc hclose) hc hstore
    | true =>
      rw [List.filter_cons_of_pos hs, account_cons_of_mutates hs, account_cons_of_mutates hs,
        hnext]

end Controller

/-- **The data do not depend on delivery.**  Take two controllers with the same columns, capacity
and mode, and two runs that close neither, with the same changes of the rows in the same order.
Whatever their intervals, bindings and renderers, and whatever else takes place in the runs, each
change gives back the same in both, and leaves the same rows. -/
theorem Setup.account_eq (setup setup' : Setup) (columns : List Column) (spec spec' : Spec)
    (hcapacity : spec.streaming.capacity = spec'.streaming.capacity)
    (hmode : spec.streaming.mode = spec'.streaming.mode) (steps steps' : List Controller.Step)
    (hopen : ∀ s ∈ steps ++ steps', s ≠ .close)
    (hsame : steps.filter Controller.Step.mutates = steps'.filter Controller.Step.mutates) :
    (setup.controller columns spec).account steps
      = (setup'.controller columns spec').account steps' := by
  obtain ⟨hsteps, hsteps'⟩ := List.forall_mem_append.1 hopen
  have hbuffer : (Buffer.empty spec.streaming.capacity spec.streaming.capacity_pos : Buffer Row)
      = .empty spec'.streaming.capacity spec'.streaming.capacity_pos := by
    simp only [Buffer.empty, hcapacity]
  have hstore : (setup.controller columns spec).core.store
      = (setup'.controller columns spec').core.store := by
    show (⟨columns, spec.streaming.mode, .empty ..⟩ : Store)
      = ⟨columns, spec'.streaming.mode, .empty ..⟩
    rw [hmode, hbuffer]
  have hchanges : ∀ s ∈ steps.filter Controller.Step.mutates, s ≠ .close := fun s hs =>
    hsteps s (List.mem_of_mem_filter hs)
  calc (setup.controller columns spec).account steps
      = (setup.controller columns spec).account (steps.filter Controller.Step.mutates) :=
        Controller.account_filter hsteps rfl
    _ = (setup'.controller columns spec').account (steps.filter Controller.Step.mutates) :=
        Controller.account_congr hchanges rfl rfl hstore
    _ = (setup'.controller columns spec').account steps' := by
        rw [hsame, ← Controller.account_filter hsteps' rfl]

/-- A chart with a window of time that is notified of every change. -/
def windowedSpec : Spec :=
  { marks := [], temporal := some { mode := .axis, field := some (.name "v") } }

/-- Two rows arrive around a clear, under a renderer that fails and under none. -/
theorem Setup.account_eq_arrivals :
    ((∀ s ∈ [arrival 1, .resolve, .clear, .tick 0, arrival 2] ++
        [.flush, arrival 1, .clear, .sleep (.ofNat 1), arrival 2], s ≠ .close) ∧
      [arrival 1, .resolve, .clear, .tick 0, arrival 2].filter Controller.Step.mutates
        = [.flush, arrival 1, .clear, .sleep (.ofNat 1), arrival 2].filter
            Controller.Step.mutates) ∧
      (plainSetup.controller [] plainSpec).account
          [arrival 1, .resolve, .clear, .tick 0, arrival 2]
        = ({ plainSetup with renders := false }.controller [] windowedSpec).account
            [.flush, arrival 1, .clear, .sleep (.ofNat 1), arrival 2] := by
  have hopen : ∀ s ∈ [arrival 1, .resolve, .clear, .tick 0, arrival 2] ++
      [.flush, arrival 1, .clear, .sleep (.ofNat 1), arrival 2], s ≠ .close := by
    simp [arrival]
  exact ⟨⟨hopen, rfl⟩, Setup.account_eq plainSetup { plainSetup with renders := false } []
    plainSpec windowedSpec rfl rfl _ _ hopen rfl⟩

end LiveChart
