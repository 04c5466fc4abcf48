/-
This file gives the thread of the update beside the thread that stops it.
-/

import Mathlib.Tactic

namespace Peakwork.UpdateThread

/-- A steady clock counts nanoseconds. -/
def seconds (count : Nat) : Nat := count * 10 ^ 9

/-- The points of `Controller::UpdatePrices`; a wait has a deadline. -/
inductive Point where
  | testing
  | beginning
  | fetching (symbol : String) (rest : List String)
  | locking
  | checking (deadline : Nat)
  | blocking (deadline : Nat)
  | blocked (deadline : Nat)
  | relocking (deadline : Nat) (timedOut : Bool)
  | unlocking
  | left
  deriving DecidableEq, Repr

/-- The points of `Controller::Stop`. -/
inductive StopPoint where
  | storing
  | locking
  | notifying
  | unlocking
  | joining
  | joined
  deriving DecidableEq, Repr

inductive Owner where
  | updater
  | stopper
  deriving DecidableEq, Repr

/-- The last two fields only remember what has happened. -/
structure State where
  updater : Point := .testing
  stopper : StopPoint := .storing
  stopFlag : Bool := false
  mtx : Option Owner := none
  now : Nat := 0
  roundEnd : Option Nat := none
  begunAfterStop : Nat := 0
  deriving DecidableEq, Repr

inductive Event where
  | updaterRuns
  | stopperRuns
  | timePasses (elapsed : Nat)
  | waitTimesOut
  | waitEndsSpuriously
  deriving DecidableEq, Repr

namespace State

/-- Without symbols the thread ends at once. -/
def initial (symbols : List String) : State :=
  { updater := if symbols.isEmpty then .left else .testing }

variable (symbols : List String) (waitDuration : Nat) (state : State)

/-- The next action of the updating thread, if it can be taken. -/
def updaterRuns : Option State :=
  match state.updater with
  | .testing => some { state with updater := if state.stopFlag then .left else .beginning }
  | .beginning =>
      match symbols with
      | symbol :: rest => some { state with
          updater := .fetching symbol rest
          begunAfterStop := state.begunAfterStop + state.stopFlag.toNat }
      | [] => none
  | .fetching _ (symbol :: rest) => some { state with updater := .fetching symbol rest }
  | .fetching _ [] => some { state with updater := .locking, roundEnd := some state.now }
  | .locking =>
      if state.mtx.isNone then
        some { state with mtx := some .updater, updater := .checking (state.now + waitDuration) }
      else none
  | .checking deadline =>
      some { state with updater := if state.stopFlag then .unlocking else .blocking deadline }
  | .blocking deadline => some { state with mtx := none, updater := .blocked deadline }
  | .blocked _ => none
  | .relocking deadline timedOut =>
      if state.mtx.isNone then
        some { state with mtx := some .updater, updater := if timedOut then .unlocking else .checking deadline }
      else none
  | .unlocking => some { state with mtx := none, updater := .testing }
  | .left => none

/-- A wait that ends leaves the queue; its thread must lock the mutex again. -/
def wake (timedOut : Bool) : State :=
  match state.updater with
  | .blocked deadline => { state with updater := .relocking deadline timedOut }
  | _ => state

/-- The next action of the stopping thread, if it can be taken. -/
def stopperRuns : Option State :=
  match state.stopper with
  | .storing => some { state with stopper := .locking, stopFlag := true }
  | .locking => if state.mtx.isNone then some { state with stopper := .notifying, mtx := some .stopper } else none
  | .notifying => some { state.wake false with stopper := .unlocking }
  | .unlocking => some { state with stopper := .joining, mtx := none }
  | .joining => if state.updater = .left then some { state with stopper := .joined } else none
  | .joined => none

def step : Event → Option State
  | .updaterRuns => state.updaterRuns symbols waitDuration
  | .stopperRuns => state.stopperRuns
  | .timePasses elapsed => some { state with now := state.now + elapsed }
  | .waitTimesOut =>
      match state.updater with
      | .blocked deadline => if deadline ≤ state.now then some (state.wake true) else none
      | _ => none
  | .waitEndsSpuriously => some (state.wake false)

/-- An event that is not possible leaves the state as it is. -/
def next (state : State) (event : Event) : State := (state.step symbols waitDuration event).getD state

end State

/-- The wait is given `std::chrono::seconds()`, and the configured timeout is not used. -/
def waitDuration (_updateTimeout : Nat) : Nat := seconds 0

end Peakwork.UpdateThread
