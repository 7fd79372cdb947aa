import LiveChart.Value.Convert
import LiveChart.Log
/-!
# Throttled notification

A notifier fires a callback at most once per interval.  The first call while it is idle fires at
once and opens a window.  Calls while the window is open are kept, all together, as one pending
fire, which takes place when the window's timer ticks and opens the next window.

Every operation first changes the notifier and then says whether the callback is to be fired, so
that a callback sees the notifier as it is afterwards, and may call it again.

* `Notifier.call`, `Notifier.cancel`, `Notifier.reset`, `Notifier.tick` : the operations;
* `Notifier.move` : the operation of a step;
* `Session.perform` : operations with a callback that performs operations itself.
-/

namespace LiveChart

/-- A timer that was started. -/
structure Timer where
  /-- The seconds after which it ticks. -/
  delay : Double
  cancelled : Bool := false
  /-- The generation of windows that it belongs to. -/
  generation : Nat
  deriving DecidableEq

/-- The state of a notifier. -/
structure Notifier where
  /-- The length of a window in seconds; zero for a notifier that fires on every call. -/
  interval : Double
  /-- Whether timers can be cancelled. -/
  cancellable : Bool := true
  /-- Every timer ever started, in order. -/
  timers : List Timer := []
  /-- The number of the open window's timer. -/
  current : Option Nat := none
  pending : Bool := false
  /-- The timers of earlier generations tick without effect. -/
  generation : Nat := 0
  deriving DecidableEq

/-- An operation of a notifier's user. -/
inductive NotifierStep where
  | call
  | cancel
  | reset
  | tick (timer : Int)
  deriving DecidableEq, Repr

namespace Notifier

/-- A notifier whose windows last a number of milliseconds. -/
def ofMillis (millis : Double) (cancellable : Bool) : Notifier :=
  { interval := millis.div (.ofNat 1000), cancellable }

/-- A notifier whose windows last the milliseconds that a value gives, not below zero. -/
def ofValue (v : Value) (cancellable : Bool) : Result Notifier := do
  if ← v.isNegative then throw .interval
  return ofMillis (← v.toDouble) cancellable

/-- The length of a window in milliseconds. -/
def millis (n : Notifier) : Double := n.interval.mul (.ofNat 1000)

/-- Whether every call fires. -/
def isImmediate (n : Notifier) : Bool := n.interval.isZero

/-! ## Windows -/

/-- Open a window: start its timer. -/
def openWindow (n : Notifier) : Notifier :=
  { n with
    timers := n.timers ++ [{ delay := n.interval, generation := n.generation }]
    current := some n.timers.length }

/-- Close the window and forget what is pending; timers started so far have no effect any more. -/
def dropWindow (n : Notifier) : Notifier :=
  { n with current := none, pending := false, generation := n.generation + 1 }

/-- Cancel a timer, if there is one and timers can be cancelled. -/
def cancelTimer (n : Notifier) (timer : Option Nat) : Notifier :=
  match timer with
  | none => n
  | some i =>
    if n.cancellable then
      { n with timers := n.timers.modify i fun t => { t with cancelled := true } }
    else n

/-! ## Operations -/

/-- A call: it fires if no window is open, and is kept as pending otherwise. -/
def call (n : Notifier) : Notifier × Bool :=
  if n.isImmediate then (n, true)
  else if n.current.isSome then ({ n with pending := true }, false)
  else (n.openWindow, true)

/-- Close the window, drop what is pending, and cancel the timer. -/
def cancel (n : Notifier) : Notifier := n.dropWindow.cancelTimer n.current

/-- Open a fresh window without firing; what was pending is dropped and the old timer cancelled. -/
def reset (n : Notifier) : Notifier :=
  if n.isImmediate then n else n.dropWindow.openWindow.cancelTimer n.current

/-- The tick of a timer: one of this generation closes the window, and fires into a new one if a
call is pending. -/
def tick (n : Notifier) (timer : Timer) : Notifier × Bool :=
  if timer.generation ≠ n.generation then (n, false)
  else if n.pending then ({ n with pending := false }.openWindow, true)
  else ({ n with current := none }, false)

/-- A timer by its number, counted from the end if it is negative. -/
def timerAt? (n : Notifier) (i : Int) : Option Timer := Value.atIndex n.timers i

/-- An operation, and whether it fires; the tick of no timer does nothing. -/
def move (n : Notifier) : NotifierStep → Notifier × Bool
  | .call => n.call
  | .cancel => (n.cancel, false)
  | .reset => (n.reset, false)
  | .tick i =>
    match n.timerAt? i with
    | some timer => n.tick timer
    | none => (n, false)

end Notifier

/-! ## Callbacks that call back -/

/-- What a callback does while it runs: an operation, or a failure that ends it. -/
inductive CallbackAction where
  | step (s : NotifierStep)
  | raise
  deriving DecidableEq, Repr

/-- What the callback does on some of its fires, by their number. -/
abbrev Script : Type := List (Nat × List CallbackAction)

/-- A notifier with the count of its fires and what was reported. -/
structure Session where
  notifier : Notifier
  fired : Nat := 0
  lines : List Log.Line := []

namespace Session

/-- What is reported of a callback that failed. -/
def failureLine : Log.Line := ⟨.error, .notifier, "ThrottledNotifier callback failed"⟩

mutual

/-- Perform an operation; callbacks nest at most `depth` deep. -/
def performWithin (script : Script) (depth : Nat) (step : NotifierStep) (s : Session) : Session :=
  let moved := s.notifier.move step
  let s := { s with notifier := moved.1 }
  if moved.2 then fireWithin script depth s else s
termination_by (depth, 1, 0)

/-- Fire the callback: it counts, and then acts as the script says for that fire. -/
def fireWithin (script : Script) (depth : Nat) (s : Session) : Session :=
  let s' := { s with fired := s.fired + 1 }
  match depth with
  | 0 => s'
  | depth + 1 => actWithin script depth ((script.lookup s.fired).getD []) s'
termination_by (depth, 0, 0)

/-- Act in order, up to a failure, which is reported. -/
def actWithin (script : Script) (depth : Nat) (actions : List CallbackAction) (s : Session) :
    Session :=
  match actions with
  | [] => s
  | .raise :: _ => { s with lines := s.lines ++ [failureLine] }
  | .step step :: rest => actWithin script depth rest (performWithin script depth step s)
termination_by (depth, 2, actions.length)

end

/-- Perform an operation.  A nested fire acts only if the script has its number, and later fires
have greater numbers, so callbacks nest no deeper than the script is long. -/
def perform (script : Script) (step : NotifierStep) (s : Session) : Session :=
  performWithin script (script.length + 1) step s

end Session

end LiveChart
