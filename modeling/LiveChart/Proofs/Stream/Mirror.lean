import LiveChart.Proofs.Stream.Atomicity
import LiveChart.Proofs.Temporal.SameFields
/-!
# Controllers that differ in the order of fields

Rows that are equal as mappings may hold their fields in different orders.  Controllers whose rows
are one by one equal as mappings show frames of equal rows, and every step keeps them so and gives
back the same on either.

* `SameBatch` : batches whose accepted rows are equal, with as many rows rejected;
* `frameOf_sameFields` : snapshots of equal rows have frames of equal rows;
* `Core.Mirrors` : controllers that differ in the order of fields only;
* `Core.Mirrors.apply` and `Core.Mirrors.effect` : effects keep them so;
* `Controller.result_mirrors` : a step gives back the same on either.
-/

namespace LiveChart

/-! ## Batches of equal rows -/

/-- Two batches of rows under their columns come to the same: the accepted rows are equal one by one,
and as many are rejected. -/
structure SameBatch (columns : List Column) (items : List Value) (columns' : List Column)
    (items' : List Value) : Prop where
  accepted : List.Forall₂ Row.SameFields (accepted columns items) (accepted columns' items')
  rejected : rejected columns items = rejected columns' items'

/-- A batch comes to the same as itself. -/
theorem SameBatch.refl (columns : List Column) (items : List Value) :
    SameBatch columns items columns items :=
  ⟨List.forall₂_same.2 fun row _ => .refl row, rfl⟩

/-! ## Frames of equal rows -/

/-- Frames of equal rows, with one window and one form of labels. -/
structure Frame.Same (f g : Frame) : Prop where
  rows : List.Forall₂ Row.SameFields f.rows g.rows
  domain : f.domain = g.domain
  mask : f.mask = g.mask

/-- Deliveries of frames of equal rows, taken alike. -/
structure Delivery.Same (d e : Delivery) : Prop where
  frame : d.frame.Same e.frame
  accepted : d.accepted = e.accepted

/-- **Snapshots of equal rows have frames of equal rows**, or none. -/
theorem frameOf_sameFields (spec : Spec) {rows others : List Row}
    (h : List.Forall₂ Row.SameFields rows others) :
    Result.Rel Frame.Same (frameOf spec rows) (frameOf spec others) := by
  unfold frameOf
  refine (view_sameFields spec.temporal h).bind ?_
  intro shown shown' hshown
  refine (Result.Rel.of_eq (timeWindow_sameFields spec.temporal h)).bind ?_
  rintro domain _ rfl
  refine (Result.Rel.of_eq rfl).bind ?_
  rintro mask _ rfl
  exact .ok ⟨hshown, rfl, rfl⟩

/-! ## Buffers of equal rows -/

/-- Buffers of one capacity and of rows that are equal one by one. -/
structure Buffer.Mirrors (a b : Buffer Row) : Prop where
  capacity : a.capacity = b.capacity
  rows : List.Forall₂ Row.SameFields a.rows b.rows

namespace Buffer.Mirrors

variable {a b : Buffer Row} {batch batch' : List Row}

/-- Buffers whose rows are equal one by one have such rows after equal rows are appended. -/
theorem append (h : a.Mirrors b) (hbatch : List.Forall₂ Row.SameFields batch batch') :
    (a.append batch).Mirrors (b.append batch') := by
  have hall := List.rel_append h.rows hbatch
  refine ⟨h.capacity, ?_⟩
  rw [append_rows, append_rows, lastN, lastN, hall.length_eq, h.capacity]
  exact List.forall₂_drop _ hall

/-- Buffers whose rows are equal one by one have such rows after these are replaced by equal
ones. -/
theorem replace (h : a.Mirrors b) (hbatch : List.Forall₂ Row.SameFields batch batch') :
    (a.replace batch).Mirrors (b.replace batch') := by
  refine ⟨h.capacity, ?_⟩
  rw [replace_rows, replace_rows, lastN, lastN, hbatch.length_eq, h.capacity]
  exact List.forall₂_drop _ hbatch

/-- Buffers of one capacity have equal rows after all are removed. -/
theorem clear (h : a.Mirrors b) : a.clear.Mirrors b.clear := ⟨h.capacity, .nil⟩

end Buffer.Mirrors

/-! ## Cores of equal rows -/

/-- Cores that differ in the order of fields only. -/
structure Core.Mirrors (k l : Core) : Prop where
  columns : k.columns = l.columns
  spec : k.spec = l.spec
  renders : k.renders = l.renders
  failing : k.failing = l.failing
  closed : k.closed = l.closed
  notifier : k.notifier = l.notifier
  buffer : k.buffer.Mirrors l.buffer
  deliveries : List.Forall₂ Delivery.Same k.deliveries l.deliveries

/-- Effects that differ in the order of fields only. -/
inductive Effect.Mirrors : Effect → Effect → Prop where
  | nothing : Mirrors .nothing .nothing
  | change {a b : Buffer Row} (h : a.Mirrors b) : Mirrors (.change a) (.change b)
  | clear : Mirrors .clear .clear
  | flush : Mirrors .flush .flush
  | tick (i : Int) : Mirrors (.tick i) (.tick i)
  | close : Mirrors .close .close

namespace Core.Mirrors

variable {k l : Core}

/-- A core differs from itself in nothing. -/
theorem refl (k : Core) : k.Mirrors k where
  columns := rfl
  spec := rfl
  renders := rfl
  failing := rfl
  closed := rfl
  notifier := rfl
  buffer := ⟨rfl, List.forall₂_same.2 fun row _ => .refl row⟩
  deliveries := List.forall₂_same.2 fun _ _ =>
    ⟨⟨List.forall₂_same.2 fun row _ => .refl row, rfl, rfl⟩, rfl⟩

/-- Cores that differ in the order of fields only show frames of equal rows. -/
theorem frame (h : k.Mirrors l) : Result.Rel Frame.Same k.frame l.frame := by
  unfold Core.frame
  rw [h.spec]
  exact frameOf_sameFields l.spec h.buffer.rows

/-- Cores that differ in the order of fields only do so after a delivery. -/
theorem hand (h : k.Mirrors l) : k.hand.Mirrors l.hand := by
  have hhanded : List.Forall₂ Delivery.Same k.handed l.handed := by
    unfold Core.handed
    rw [h.renders, h.failing, h.deliveries.length_eq]
    -- a frame is handed over on both sides or on neither
    rcases h.frame.eq_ok_or with ⟨f, g, hf, hg, hsame⟩ | ⟨e, hf, hg⟩
    · rw [hf, hg]
      dsimp only
      split_ifs
      · exact .cons ⟨hsame, rfl⟩ .nil
      · exact .nil
    · rw [hf, hg]
      exact .nil
  exact { h with deliveries := List.rel_append h.deliveries hhanded }

/-- Cores that differ in the order of fields only do so after an operation of the notifier. -/
theorem move (h : k.Mirrors l) (step : NotifierStep) : (k.move step).Mirrors (l.move step) := by
  have hmoved : { k with notifier := (k.notifier.move step).1 }.Mirrors
      { l with notifier := (l.notifier.move step).1 } := { h with notifier := by rw [h.notifier] }
  have hfires : (k.notifier.move step).2 = (l.notifier.move step).2 := by rw [h.notifier]
  unfold Core.move
  dsimp only
  rw [hfires]
  split_ifs
  · exact hmoved.hand
  · exact hmoved

/-- **Cores that differ in the order of fields only do so after effects that do.** -/
theorem apply (h : k.Mirrors l) {e e' : Effect} (he : e.Mirrors e') :
    (k.apply e).Mirrors (l.apply e') := by
  cases he with
  | nothing => exact h
  | @change a b hbuffer =>
    have hchanged : { k with buffer := a }.Mirrors { l with buffer := b } :=
      { h with buffer := hbuffer }
    exact hchanged.move .call
  | clear =>
    have hcleared : { k with buffer := k.buffer.clear }.Mirrors { l with buffer := l.buffer.clear } :=
      { h with buffer := h.buffer.clear }
    exact (hcleared.move .reset).hand
  | flush => exact (h.move .reset).hand
  | tick i => exact h.move (.tick i)
  | close => exact { h.move .cancel with closed := rfl }

/-- To take in batches that come to the same. -/
theorem ingestEffect (h : k.Mirrors l) {source source' : Source}
    (hbatch : SameBatch source.columns source.rows source'.columns source'.rows) :
    (k.ingestEffect source).Mirrors (l.ingestEffect source') := by
  unfold Core.ingestEffect
  rw [h.spec]
  cases l.spec.streaming.mode with
  | append => exact .change (h.buffer.append hbatch.accepted)
  | replace => exact .change (h.buffer.replace hbatch.accepted)

/-- A step has effects that differ in the order of fields only on cores that do. -/
theorem effect (h : k.Mirrors l) (s : Controller.Step) : (k.effect s).Mirrors (l.effect s) := by
  cases s with
  | append rows =>
    simp only [Core.effect, h.columns, h.closed]
    cases l.closed with
    | true => exact .nothing
    | false =>
      cases rows.elements with
      | error e => exact .nothing
      | ok items => exact .change (h.buffer.append (SameBatch.refl ..).accepted)
  | replace rows =>
    simp only [Core.effect, h.columns, h.closed]
    cases l.closed with
    | true => exact .nothing
    | false =>
      cases rows.elements with
      | error e => exact .nothing
      | ok items => exact .change (h.buffer.replace (SameBatch.refl ..).accepted)
  | ingest columns rows isLive =>
    simp only [Core.effect, h.closed]
    cases l.closed with
    | true => exact .nothing
    | false =>
      cases Source.ofValues columns rows isLive with
      | error e => exact .nothing
      | ok source => exact h.ingestEffect (.refl ..)
  | clear =>
    simp only [Core.effect, h.closed]
    cases l.closed with
    | true => exact .nothing
    | false => exact .clear
  | flush => exact .flush
  | tick i => exact .tick i
  | close => exact .close
  | resolve => exact .nothing
  | snapshot => exact .nothing
  | describe => exact .nothing
  | sleep => exact .nothing

end Core.Mirrors

namespace Controller

variable {c d : Controller}

/-! ## Results -/

/-- Results that differ in the order of fields only. -/
inductive StepResult.Same : StepResult → StepResult → Prop where
  | nothing : Same .nothing .nothing
  | counts (n : Counts) : Same (.counts n) (.counts n)
  | frame {f g : Frame} (h : f.Same g) : Same (.frame f) (.frame g)
  | rows {rows others : List Row} (h : List.Forall₂ Row.SameFields rows others) :
      Same (.rows rows) (.rows others)
  | text (s : String) : Same (.text s) (.text s)
  | noTimer : Same .noTimer .noTimer

/-- A frame that is emitted is the one shown, unless the renderer fails. -/
theorem emit_result (c : Controller) :
    c.emit.2 = c.core.frame >>= fun f => if c.rendererFails then .error .render else .ok f := by
  have hresolve : c.resolve = (c.report c.frameLines, c.core.frame) := rfl
  unfold emit
  rw [hresolve]
  cases c.core.frame with
  | error e => rfl
  | ok f =>
    -- the log is no part of what decides on the delivery
    have hcore : ((c.report c.frameLines).reportRender f).core = c.core :=
      (core_reportRender _ f).trans (core_report ..)
    dsimp only [bind, Except.bind]
    rw [← rendererFails_congr hcore]
    unfold deliver rendererFails
    generalize (c.report c.frameLines).reportRender f = reported
    cases reported.renders with
    | false => rfl
    | true => cases reported.failing.contains reported.deliveries.length <;> rfl

/-- Frames that are emitted are of equal rows. -/
theorem emit_mirrors (h : c.core.Mirrors d.core) : Result.Rel Frame.Same c.emit.2 d.emit.2 := by
  have hfails : c.rendererFails = d.rendererFails := by
    have hrenders : c.renders = d.renders := h.renders
    have hfailing : c.failing = d.failing := h.failing
    have hlength : c.deliveries.length = d.deliveries.length := h.deliveries.length_eq
    rw [rendererFails, rendererFails, hrenders, hfailing, hlength]
  rw [emit_result, emit_result, hfails]
  refine h.frame.bind ?_
  intro f g hsame
  split_ifs
  · exact .error _
  · exact .ok hsame

/-- The counts of batches that come to the same. -/
theorem counts_appendBatch_eq (h : c.core.Mirrors d.core) {columns columns' : List Column}
    {items items' : List Value} (hbatch : SameBatch columns items columns' items') :
    (c.appendBatch columns items).2 = (d.appendBatch columns' items').2 := by
  have hcapacity : c.buffer.capacity = d.buffer.capacity := h.buffer.capacity
  have hlength : c.buffer.rows.length = d.buffer.rows.length := h.buffer.rows.length_eq
  rw [counts_appendBatch, counts_appendBatch, Buffer.appendEvicts_eq, Buffer.appendEvicts_eq,
    hbatch.accepted.length_eq, hbatch.rejected, hcapacity, hlength]

/-- The counts of batches that come to the same. -/
theorem counts_replaceBatch_eq (h : c.core.Mirrors d.core) {columns columns' : List Column}
    {items items' : List Value} (hbatch : SameBatch columns items columns' items') :
    (c.replaceBatch columns items).2 = (d.replaceBatch columns' items').2 := by
  have hcapacity : c.buffer.capacity = d.buffer.capacity := h.buffer.capacity
  rw [counts_replaceBatch, counts_replaceBatch, Buffer.replaceDrops, Buffer.replaceDrops,
    hbatch.accepted.length_eq, hbatch.rejected, hcapacity]

/-- The counts of sources that come to the same. -/
theorem counts_ingest_eq (h : c.core.Mirrors d.core) {source source' : Source}
    (hbatch : SameBatch source.columns source.rows source'.columns source'.rows) :
    (c.ingest source).2 = (d.ingest source').2 := by
  have hspec : c.spec = d.spec := h.spec
  rw [counts_ingest, counts_ingest, hspec]
  cases d.spec.streaming.mode with
  | append => exact counts_appendBatch_eq h hbatch
  | replace => exact counts_replaceBatch_eq h hbatch

/-- Operations with the elements of a value give back the same if they count the same. -/
theorem withElements_mirrors (hclosed : c.closed = d.closed) (rows : Value)
    {op op' : Controller → List Value → Controller × Counts}
    (hcounts : ∀ items, (op c items).2 = (op' d items).2) :
    Result.Rel StepResult.Same (c.whileOpen (withElements rows op)).2
      (d.whileOpen (withElements rows op')).2 := by
  unfold whileOpen withElements
  rw [hclosed]
  split_ifs
  · exact .error _
  · cases rows.elements with
    | error e => exact .error e
    | ok items =>
      dsimp only
      rw [hcounts items]
      exact .ok (.counts _)

/-- A step gives back the same on controllers that differ in the order of fields only. -/
theorem result_mirrors (h : c.core.Mirrors d.core) (s : Step) :
    Result.Rel StepResult.Same (c.step s).2 (d.step s).2 := by
  have hclosed : c.closed = d.closed := h.closed
  have hcolumns : c.columns = d.columns := h.columns
  have hnotifier : c.notifier = d.notifier := h.notifier
  cases s with
  | append rows =>
    refine withElements_mirrors hclosed rows fun items => ?_
    rw [hcolumns]
    exact counts_appendBatch_eq h (.refl d.columns items)
  | replace rows =>
    refine withElements_mirrors hclosed rows fun items => ?_
    rw [hcolumns]
    exact counts_replaceBatch_eq h (.refl d.columns items)
  | ingest columns rows isLive =>
    cases hsource : Source.ofValues columns rows isLive with
    | error e =>
      simp only [step, hsource]
      exact .error e
    | ok source =>
      rw [result_ingest c hsource, result_ingest d hsource, hclosed,
        counts_ingest_eq h (.refl source.columns source.rows)]
      split_ifs
      · exact .error _
      · exact .ok (.counts _)
  | resolve => exact h.frame.map fun _ _ => .frame
  | flush =>
    -- a flush emits the frame of the core after the reset
    have hreset : { c with notifier := c.notifier.reset }.core.Mirrors
        { d with notifier := d.notifier.reset }.core :=
      { h with notifier := congrArg Notifier.reset hnotifier }
    exact (emit_mirrors hreset).map fun _ _ => .frame
  | snapshot => exact .ok (.rows h.buffer.rows)
  | clear =>
    have hcleared : { c with buffer := c.buffer.clear, notifier := c.notifier.reset }.core.Mirrors
        { d with buffer := d.buffer.clear, notifier := d.notifier.reset }.core :=
      { h with
        buffer := h.buffer.clear
        notifier := congrArg Notifier.reset hnotifier }
    simp only [step, whileOpen, hclosed]
    split_ifs
    · exact .error _
    · exact (emit_mirrors hcleared).map fun _ _ _ => .nothing
  | close => exact .ok .nothing
  | describe =>
    have hspec : c.spec = d.spec := h.spec
    have hlength : c.buffer.rows.length = d.buffer.rows.length := h.buffer.rows.length_eq
    have hwords : c.describe = d.describe := by
      unfold Controller.describe
      rw [hspec, hlength]
    exact .ok (hwords ▸ .text c.describe)
  | tick i =>
    simp only [step, hnotifier]
    cases d.notifier.timerAt? i with
    | none => exact .ok .noTimer
    | some timer => exact .ok .nothing
  | sleep seconds => exact .ok .nothing

end Controller

end LiveChart
