import LiveChart.Chart.Compile
import LiveChart.Stream.Normalize
import LiveChart.Stream.Notifier
import LiveChart.Temporal.Window
/-!
# Controllers

A controller owns the rows of one chart.  It brings arriving rows into canonical form, keeps the
last of them, and notifies a renderer, at most once per interval, with a frame of the rows as they
are at that moment.

* `Controller.frame` : what a chart shows now;
* `Controller.emit` : a frame is resolved and handed to the renderer;
* `Controller.step` : one operation of a controller's user.
-/

namespace LiveChart

/-! ## Frames -/

/-- What a chart shows. -/
structure Frame where
  rows : List Row
  domain : Option (Double × Double)
  mask : Value

/-- The form of time labels: the one that the scale of x sets, or else one that suits the window. -/
def frameMask (spec : Spec) (domain : Option (Double × Double)) : Result Value :=
  match Value.ofOption (Entries.field? "mask" (spec.scale "x")) with
  | .null =>
    match domain with
    | some w => do return .text (← maskOfWindow w).pattern
    | none => .ok .null
  | mask => .ok mask

/-- The frame of a snapshot. -/
def frameOf (spec : Spec) (snapshot : List Row) : Result Frame := do
  let rows ← view spec.temporal snapshot
  let domain ← timeWindow spec.temporal snapshot
  let mask ← frameMask spec domain
  return { rows, domain, mask }

/-- A frame that was handed to the renderer, and whether the renderer took it. -/
structure Delivery where
  frame : Frame
  accepted : Bool

/-- The counts of a change. -/
structure Counts where
  accepted : Nat
  rejected : Nat
  evicted : Nat
  deriving DecidableEq, Repr

/-! ## State -/

/-- A controller with its surroundings: the renderer, the clock, and what was reported. -/
structure Controller where
  columns : List Column
  spec : Spec
  buffer : Buffer Row
  notifier : Notifier
  closed : Bool := false
  /-- Whether there is a renderer. -/
  renders : Bool := true
  /-- The numbers of the deliveries at which the renderer fails. -/
  failing : List Nat := []
  /-- Every frame handed to the renderer, in order. -/
  deliveries : List Delivery := []
  /-- The level from which on lines are seen. -/
  threshold : Log.Level := .warning
  /-- Everything reported, in order. -/
  lines : List Log.Line := []
  /-- The seconds that the clock shows. -/
  clock : Double := .ofNat 1000
  /-- When a frame was last reported at the level of information. -/
  informedAt : Double := .zero
  /-- When a frame was last reported at the level of debugging. -/
  debuggedAt : Double := .zero

namespace Controller

/-- A controller of a compiled chart. -/
def ofSpec (columns : List Column) (spec : Spec) (cancellable : Bool) : Controller :=
  { columns
    spec
    buffer := .empty spec.streaming.capacity spec.streaming.capacity_pos
    notifier := .ofMillis spec.streaming.throttle cancellable }

/-- The policy of a given override: none, a mapping, or something that is no policy. -/
def overridePolicy (spec : Spec) (policy : Value) : Result Spec :=
  match policy with
  | .null => .ok spec
  | .dict _ => do return { spec with streaming := ← Policy.ofMapping policy }
  | _ => fail .attribute

/-- The controller with more reported. -/
def report (c : Controller) (lines : List Log.Line) : Controller :=
  { c with lines := c.lines ++ lines }

/-- A controller's chart, size and capacity, in words. -/
def describe (c : Controller) : String :=
  "StreamingController(spec=" ++ c.spec.describe ++ ", rows=" ++ toString c.buffer.rows.length ++
    ", max_items=" ++ toString c.spec.streaming.capacity ++ ")"

/-! ## Rendering -/

/-- What the chart shows now. -/
def frame (c : Controller) : Result Frame := frameOf c.spec c.buffer.rows

/-- What is reported while a frame is resolved. -/
def frameLines (c : Controller) : List Log.Line :=
  viewLines c.spec.temporal c.buffer.rows.isEmpty

/-- The quoted text of a window. -/
def domainText : Option (Double × Double) → String
  | none => "None"
  | some (first, last) => tupleText [first.text, last.text]

/-- Report a frame, at most once a second at one level and twice a second at the other. -/
def reportRender (c : Controller) (f : Frame) : Controller :=
  let informs := c.threshold.shows .info && (Double.ofNat 1).lt (c.clock.sub c.informedAt)
  let c :=
    if informs then
      { c with informedAt := c.clock }.report
        [⟨.info, .controller, "render rows=" ++ toString f.rows.length ++ " marks=" ++
          toString c.spec.marks.length⟩]
    else c
  let debugs :=
    c.threshold.shows .debug && (Double.ofFraction 1 2).lt (c.clock.sub c.debuggedAt)
  if debugs then
    { c with debuggedAt := c.clock }.report
      [⟨.debug, .controller, "time_domain=" ++ domainText f.domain ++ " mask=" ++ f.mask.plain⟩]
  else c

/-- Hand a frame to the renderer, which may fail. -/
def deliver (c : Controller) (f : Frame) : Controller × Result Frame :=
  if !c.renders then (c, .ok f)
  else
    let accepted := !c.failing.contains c.deliveries.length
    ({ c with deliveries := c.deliveries ++ [⟨f, accepted⟩] },
      if accepted then .ok f else .error .render)

/-- Resolve a frame, with what is reported of it. -/
def resolve (c : Controller) : Controller × Result Frame := (c.report c.frameLines, c.frame)

/-- Resolve a frame and hand it to the renderer. -/
def emit (c : Controller) : Controller × Result Frame :=
  let (c, resolved) := c.resolve
  match resolved with
  | .error e => (c, .error e)
  | .ok f => (c.reportRender f).deliver f

/-- Fire the notifier's callback, whose failure is reported and goes no further. -/
def fire (c : Controller) : Controller :=
  match c.emit with
  | (c, .ok _) => c
  | (c, .error _) => c.report [Session.failureLine]

/-- The controller after its notifier moved, which may fire the callback. -/
def afterNotifier (c : Controller) (moved : Notifier × Bool) : Controller :=
  let c := { c with notifier := moved.1 }
  if moved.2 then c.fire else c

/-- Call the notifier. -/
def notify (c : Controller) : Controller := c.afterNotifier c.notifier.call

/-! ## Changes -/

/-- The controller with a batch appended to its buffer, and how many rows left. -/
def appendRows (c : Controller) (batch : List Row) : Controller × Nat :=
  let evicted := c.buffer.appendEvicts batch
  ({ c with buffer := c.buffer.append batch }.report (c.buffer.evictionLines evicted), evicted)

/-- The controller with a batch in place of its rows, and how many rows of it were not kept. -/
def replaceRows (c : Controller) (batch : List Row) : Controller × Nat :=
  ({ c with buffer := c.buffer.replace batch }, c.buffer.replaceDrops batch)

/-- Append the accepted rows of a batch and notify. -/
def appendBatch (c : Controller) (columns : List Column) (rows : List Value) :
    Controller × Counts :=
  let batch := LiveChart.accepted columns rows
  let (c, evicted) := (c.report (batchLines columns rows)).appendRows batch
  (c.notify, ⟨batch.length, LiveChart.rejected columns rows, evicted⟩)

/-- Replace the rows by the accepted rows of a batch and notify. -/
def replaceBatch (c : Controller) (columns : List Column) (rows : List Value) :
    Controller × Counts :=
  let batch := LiveChart.accepted columns rows
  let (c, dropped) := (c.report (batchLines columns rows)).replaceRows batch
  (c.notify, ⟨batch.length - dropped, LiveChart.rejected columns rows, dropped⟩)

/-- What is reported of a source that was taken in. -/
def ingestLine (c : Controller) (live : Value) (counts : Counts) : Log.Line :=
  ⟨.debug, .controller, "ingested " ++ toString counts.accepted ++ " rows (mode=" ++
    c.spec.streaming.mode.word ++ ", live=" ++ live.plain ++ ", rejected=" ++
    toString counts.rejected ++ ")"⟩

/-- Take in a source as the policy says. -/
def ingest (c : Controller) (source : Source) : Controller × Counts :=
  let (c, counts) := match c.spec.streaming.mode with
    | .append => c.appendBatch source.columns source.rows
    | .replace => c.replaceBatch source.columns source.rows
  (c.report [c.ingestLine source.isLive counts], counts)

/-- Empty the buffer, open a fresh window, and deliver the empty view at once. -/
def clear (c : Controller) : Controller × Result Frame :=
  { c with buffer := c.buffer.clear, notifier := c.notifier.reset }.emit

/-- Deliver a frame at once in place of a pending one. -/
def flush (c : Controller) : Controller × Result Frame :=
  { c with notifier := c.notifier.reset }.emit

/-- Stop notifications; later changes fail. -/
def close (c : Controller) : Controller := { c with notifier := c.notifier.cancel, closed := true }

/-! ## Steps -/

/-- An operation of a controller's user, or an event of its surroundings. -/
inductive Step where
  | append (rows : Value)
  | replace (rows : Value)
  | ingest (columns rows isLive : Value)
  | resolve
  | flush
  | snapshot
  | clear
  | close
  | describe
  | tick (timer : Int)
  | sleep (seconds : Double)

/-- What an operation gives back. -/
inductive StepResult where
  | nothing
  | counts (c : Counts)
  | frame (f : Frame)
  | rows (rows : List Row)
  | text (s : String)
  | noTimer

/-- An operation on an open controller. -/
def whileOpen (c : Controller) (op : Controller → Controller × Result StepResult) :
    Controller × Result StepResult :=
  if c.closed then (c, .error .closed) else op c

/-- An operation with the elements of a value. -/
def withElements (rows : Value) (op : Controller → List Value → Controller × Counts)
    (c : Controller) : Controller × Result StepResult :=
  match rows.elements with
  | .error e => (c, .error e)
  | .ok items =>
    let (c, counts) := op c items
    (c, .ok (.counts counts))

/-- A controller with a frame as its result. -/
def givingFrame (r : Controller × Result Frame) : Controller × Result StepResult :=
  (r.1, r.2.map .frame)

/-- One operation or event. -/
def step (c : Controller) : Step → Controller × Result StepResult
  | .append rows =>
    c.whileOpen (withElements rows fun c items => c.appendBatch c.columns items)
  | .replace rows =>
    c.whileOpen (withElements rows fun c items => c.replaceBatch c.columns items)
  | .ingest columns rows isLive =>
    match Source.ofValues columns rows isLive with
    | .error e => (c, .error e)
    | .ok source =>
      c.whileOpen fun c =>
        let (c, counts) := c.ingest source
        (c, .ok (.counts counts))
  | .resolve => givingFrame c.resolve
  | .flush => givingFrame c.flush
  | .snapshot => (c, .ok (.rows c.buffer.rows))
  | .clear =>
    c.whileOpen fun c =>
      let (c, r) := c.clear
      (c, r.map fun _ => .nothing)
  | .close => (c.close, .ok .nothing)
  | .describe => (c, .ok (.text c.describe))
  | .tick i =>
    match c.notifier.timerAt? i with
    | some timer => (c.afterNotifier (c.notifier.tick timer), .ok .nothing)
    | none => (c, .ok .noTimer)
  | .sleep seconds => ({ c with clock := c.clock.add seconds }, .ok .nothing)

end Controller

end LiveChart
