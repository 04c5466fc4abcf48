/-
This file gives the life of a worker process, as `WorkProc` leads it.
-/

import Peakwork.Construction.Controller

namespace Peakwork.Process

inductive Signal where
  | quit
  | int
  | term
  | chld
  | abrt
  | other (number : Nat) (unnamed : number ∉ [2, 3, 6, 15, 17])
  deriving DecidableEq, Repr

def Signal.number : Signal → Nat
  | .quit => 3
  | .int => 2
  | .term => 15
  | .chld => 17
  | .abrt => 6
  | .other number _ => number

/-- The default action of `SIGCHLD`, `SIGCONT`, the four stops, `SIGURG` and `SIGWINCH` ends no process. -/
def Signal.endsProcess : Signal → Bool
  | .chld => false
  | .other number _ => number ∉ [18, 19, 20, 21, 22, 23, 28]
  | _ => true

/-- `eDaemonStatus`. -/
def needToWork : Nat := 0

def needToTerminate : Nat := 1

inductive Death where
  | exited (code : Nat)
  | killed (signal : Signal)
  deriving DecidableEq, Repr

/-- The status word: the low seven bits hold the signal, the next byte the exit code. -/
def Death.status : Death → Nat
  | .exited code => code % 256 * 256
  | .killed signal => signal.number % 128

/-- `WEXITSTATUS`. -/
def wexitstatus (status : Nat) : Nat := status / 256 % 256

/-- The worker runs until its exit; the destructor of its controller runs within `exit`. -/
inductive Life where
  | setup
  | starting (controller : Controller)
  | waiting (controller : Controller)
  | exiting (code : Nat) (controller : Controller)
  | zombie (status : Nat)
  deriving Repr

/-- The supervisor blocks these signals, and a child inherits the mask. -/
def blockedSignals : List Signal := [.quit, .int, .term, .chld, .abrt]

structure Worker where
  pid : Nat
  life : Life := .setup
  mask : List Signal := blockedSignals
  pending : List Signal := []
  deriving Repr

inductive WorkerEvent where
  /-- the controller is constructed -/
  | constructs
  | constructionThrows
  | starts (outcome : StartOutcome)
  /-- `sigwait` returns this signal -/
  | waitEnds (signal : Signal)
  /-- the destructors run and the process ends -/
  | exits
  /-- `SignalError` handles a fault; it may be a fault of the updating thread -/
  | crashes (inUpdater : Bool)
  | stopped
  | continued
  | receives (signal : Signal)
  deriving DecidableEq, Repr

/-- The set that `WorkProc` makes empty and gives to `sigwait`. -/
def workerSigset : List Signal := []

namespace Worker

variable (worker : Worker)

def alive : Bool :=
  match worker.life with
  | .zombie _ => false
  | _ => true

/-- `WorkProc` has returned this code and `exit` runs. -/
def exitsWith (code : Nat) : Bool :=
  match worker.life with
  | .exiting own _ => own = code
  | _ => false

def dies (death : Death) : Worker := { worker with life := .zombie death.status }

/-- `SignalError` stops the controller and exits; an exception inside it aborts. -/
def signalError (controller : Option Controller) (inUpdater : Bool) : Death :=
  match controller with
  -- there is no controller to stop yet
  | none => .killed (.other 11 (by decide))
  | some controller =>
      -- a thread cannot join itself
      if inUpdater then .killed .abrt
      else match controller.stop.2 with
        | .returned => .exited needToWork
        | .threw | .terminated => .killed .abrt

/-- The destructor of the controller stops it again; an exception there aborts. -/
def exitDeath (code : Nat) (controller : Controller) : Death :=
  match controller.stop.2 with
  | .returned => .exited code
  | .threw | .terminated => .killed .abrt

/-- A blocked signal stays pending; another one has its default action. -/
def receive (signal : Signal) : Worker :=
  if ¬ worker.alive then worker
  else if signal ∈ worker.mask then { worker with pending := worker.pending.insert signal }
  else if signal.endsProcess then worker.dies (.killed signal)
  else worker

/-- One step of a worker, where `sigset` is the set of its `sigwait`. -/
def step (sigset : List Signal) : WorkerEvent → Option Worker
  | .constructs =>
      match worker.life with
      | .setup => some { worker with life := .starting {} }
      | _ => none
  | .constructionThrows =>
      match worker.life with
      | .setup => some (worker.dies (.killed .abrt))
      | _ => none
  | .starts outcome =>
      match worker.life with
      | .starting controller =>
          match controller.start outcome with
          | (controller, .returned) => some { worker with life := .waiting controller }
          | (controller, .threw) => some { worker with life := .exiting needToTerminate controller }
          | (_, .terminated) => some (worker.dies (.killed .abrt))
      | _ => none
  | .waitEnds signal =>
      match worker.life with
      | .waiting controller =>
          if signal ∈ sigset ∧ signal ∈ worker.pending then
            -- the handler catches what `Stop` throws
            some { worker with
              life := .exiting needToTerminate controller.stop.1
              pending := worker.pending.erase signal }
          else none
      | _ => none
  | .exits =>
      match worker.life with
      | .exiting code controller => some (worker.dies (exitDeath code controller))
      | _ => none
  | .crashes inUpdater =>
      match worker.life with
      | .setup => some (worker.dies (signalError none inUpdater))
      | .starting controller | .waiting controller | .exiting _ controller =>
          some (worker.dies (signalError (some controller) inUpdater))
      | .zombie _ => none
  | .stopped | .continued => if worker.alive then some worker else none
  | .receives signal => if worker.alive then some (worker.receive signal) else none

/-- An event that is not possible leaves a worker as it is. -/
def next (sigset : List Signal) (worker : Worker) (event : WorkerEvent) : Worker :=
  (worker.step sigset event).getD worker

end Worker

end Peakwork.Process
