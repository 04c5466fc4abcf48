/-
This file gives the loop of the supervisor with its workers.
-/

import Peakwork.Construction.Process.Worker

namespace Peakwork.Process

/-- These are the points of `PeakworkDaemonProc`; `need_start` is 1 whenever the head is reached. -/
inductive Point where
  | head
  | sigwait (pid : Nat)
  | wait
  | leaving
  | returned
  deriving DecidableEq, Repr

/-- `status` and `siginfo` (with nothing before the first signal) are the variables of the loop, and `children` are the
processes that are not yet reaped. -/
structure State where
  point : Point := .head
  siginfo : Option Nat := none
  pending : List Signal := []
  children : List Worker := []
  nextPid : Nat := 1
  status : Nat := 0
  deriving Repr

inductive Event where
  | forkSucceeds
  | forkFails
  /-- a signal arrives at the supervisor -/
  | arrives (signal : Signal)
  /-- `sigwaitinfo` takes a pending signal -/
  | takes (signal : Signal)
  /-- `sigwaitinfo` fails, as it does after a stop and a continuation; a `siginfo` without a value reads so -/
  | interrupted (uninitialized : Nat)
  /-- `wait` collects this child -/
  | reaps (pid : Nat)
  | waitFails
  /-- the pid file is unlinked and the procedure returns -/
  | returns
  | worker (pid : Nat) (event : WorkerEvent)
  deriving DecidableEq, Repr

namespace State

variable (state : State)

def raise (signal : Signal) : State := { state with pending := state.pending.insert signal }

/-- `kill` sends to a child that still exists. -/
def kill (pid : Nat) (signal : Signal) : State :=
  { state with children := state.children.map fun worker =>
      if worker.pid = pid then worker.receive signal else worker }

/-- The decision after `sigwaitinfo`, whose result nobody checks. -/
def dispatch (pid signo : Nat) : State :=
  if signo = Signal.chld.number then { state with point := .wait }
  else { state.kill pid .term with point := .leaving, status := 0 }

/-- The decision after `wait` has set the status. -/
def decide (status : Nat) : State :=
  let status := wexitstatus status
  if status = needToTerminate then { state with point := .leaving, status }
  else { state with point := .head, status }

/-- A death, a stop or a continuation of a child raises `SIGCHLD`. -/
def notifies (before after : Worker) : WorkerEvent → Bool
  | .stopped | .continued => true
  | _ => before.alive ∧ ¬ after.alive

/-- One step of the supervisor or of a worker, where `sigset` is the set of the `sigwait` of workers. -/
def step (sigset : List Signal) : Event → Option State
  | .forkSucceeds =>
      match state.point with
      | .head => some { state with
          point := .sigwait state.nextPid
          children := state.children ++ [{ pid := state.nextPid }]
          nextPid := state.nextPid + 1 }
      | _ => none
  | .forkFails =>
      match state.point with
      | .head => some state
      | _ => none
  | .arrives signal => if signal ∈ blockedSignals then some (state.raise signal) else none
  | .takes signal =>
      match state.point with
      | .sigwait pid =>
          if signal ∈ state.pending then
            let state := { state with pending := state.pending.erase signal, siginfo := some signal.number }
            some (state.dispatch pid signal.number)
          else none
      | _ => none
  | .interrupted uninitialized =>
      match state.point with
      -- an earlier `SIGCHLD` is read once more
      | .sigwait pid => some (state.dispatch pid (state.siginfo.getD uninitialized))
      | _ => none
  | .reaps pid =>
      match state.point with
      | .wait =>
          match state.children.find? fun worker => worker.pid = pid with
          | some ⟨_, .zombie status, _, _⟩ =>
              some ({ state with children := state.children.filter (·.pid ≠ pid) }.decide status)
          | _ => none
      | _ => none
  | .waitFails =>
      match state.point with
      -- without a child the call fails and leaves the status as it is
      | .wait => if state.children.isEmpty then some (state.decide state.status) else none
      | _ => none
  | .returns =>
      match state.point with
      | .leaving => some { state with point := .returned }
      | _ => none
  | .worker pid event =>
      match state.children.find? fun worker => worker.pid = pid with
      | some before =>
          match before.step sigset event with
          | some after =>
              let state := { state with children := state.children.map fun worker =>
                if worker.pid = pid then after else worker }
              some (if notifies before after event then state.raise .chld else state)
          | none => none
      | none => none

/-- An event that is not possible in a state leaves it as it is. -/
def next (sigset : List Signal) (state : State) (event : Event) : State :=
  (state.step sigset event).getD state

end State

end Peakwork.Process
