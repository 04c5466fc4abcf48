/-
This file decides which signals end the wait of a worker.
-/

import Peakwork.Proof.Process.Steps

namespace Peakwork.Process

/-- The events of a run in which nothing fails; the exit belongs to the caller of `WorkProc`. -/
def WorkerEvent.isCalm : WorkerEvent → Bool
  | .constructs | .starts .succeeds | .waitEnds _ | .stopped | .continued | .receives _ => true
  | _ => false

def WorkerEvent.delivered : WorkerEvent → Option Signal
  | .receives signal => some signal
  | _ => none

namespace Worker

/-- The controller has been started. -/
def hasStarted (worker : Worker) : Bool :=
  match worker.life with
  | .setup | .starting _ => false
  | _ => true

/-- `WorkProc` has stopped the controller and has returned `NeedToTerminate`. -/
def hasStopped (worker : Worker) : Bool :=
  match worker.life with
  | .exiting code controller => code = needToTerminate ∧ controller.stopFlag
  | _ => false

/-- A wait of the worker has no signal to return. -/
def Rests (sigset : List Signal) (worker : Worker) : Prop :=
  ∀ signal, worker.step sigset (.waitEnds signal) = none

end Worker

/-- However the signals fall into the life of a worker: when they have been delivered and its wait has
no signal to return, the worker has stopped. -/
def TerminationStops (sigset signals : List Signal) : Prop :=
  ∀ pid events, (∀ event ∈ events, event.isCalm) → events.filterMap WorkerEvent.delivered = signals →
    (play (Worker.next sigset) { pid } events).hasStarted →
    (play (Worker.next sigset) { pid } events).Rests sigset →
    (play (Worker.next sigset) { pid } events).hasStopped

variable (sigset : List Signal)

/-- A worker that has not stopped keeps every signal that it has received. -/
def Keeps (received : List Signal) (worker : Worker) : Prop :=
  worker.mask = blockedSignals ∧
    match worker.life with
    | .setup | .waiting _ => ∀ signal ∈ received, signal ∈ worker.pending
    | .starting controller => controller.joinable = false ∧ ∀ signal ∈ received, signal ∈ worker.pending
    | .exiting _ _ => worker.hasStopped
    | .zombie _ => False

theorem keeps_receive {received : List Signal} {worker : Worker} {signal : Signal} (keeps : Keeps received worker)
    (blocked : signal ∈ blockedSignals) : Keeps (received ++ [signal]) (worker.receive signal) := by
  obtain ⟨mask, life⟩ := keeps
  have lives : worker.alive = true := by
    unfold Worker.alive
    split
    · rename_i dead
      rw [dead] at life
      exact life.elim
    · rfl
  have after : worker.receive signal = { worker with pending := worker.pending.insert signal } := by
    unfold Worker.receive
    rw [mask, lives, if_neg (by decide), if_pos blocked]
  rw [after]
  refine ⟨mask, ?_⟩
  have grown (kept : ∀ other ∈ received, other ∈ worker.pending) :
      ∀ other ∈ received ++ [signal], other ∈ worker.pending.insert signal := by
    intro other member
    rw [List.mem_insert_iff]
    rcases List.mem_append.mp member with old | new
    · exact .inr (kept other old)
    · exact .inl (List.mem_singleton.mp new)
  obtain ⟨pid, phase, own, pending⟩ := worker
  cases phase with
  | setup => exact grown life
  | starting controller => exact ⟨life.1, grown life.2⟩
  | waiting controller => exact grown life
  | exiting code controller => exact life
  | zombie status => exact life

/-- An event that delivers nothing asks for no more signals. -/
theorem keeps_quiet {received : List Signal} {worker : Worker} {event : WorkerEvent}
    (quiet : event.delivered = none) (keeps : Keeps received worker) :
    Keeps (received ++ event.delivered.toList) worker := by
  rw [quiet, Option.toList_none, List.append_nil]
  exact keeps

theorem next_receives (worker : Worker) (signal : Signal) :
    worker.next sigset (.receives signal) = worker.receive signal := by
  simp only [Worker.next, Worker.step, Worker.receive]
  cases worker.alive with
  | true => rfl
  | false => rfl

theorem keeps_next {received : List Signal} {worker : Worker} {event : WorkerEvent} (keeps : Keeps received worker)
    (calm : event.isCalm) (blocked : ∀ signal ∈ event.delivered, signal ∈ blockedSignals) :
    Keeps (received ++ event.delivered.toList) (worker.next sigset event) := by
  obtain ⟨pid, life, mask, pending⟩ := worker
  cases event with
  | constructs =>
      cases life with
      | setup => exact keeps_quiet rfl ⟨keeps.1, rfl, keeps.2⟩
      | starting | waiting | exiting | zombie => exact keeps_quiet rfl keeps
  | starts outcome =>
      cases outcome with
      | succeeds =>
          cases life with
          | starting controller =>
              obtain ⟨mask, fresh, kept⟩ := keeps
              simp only [Worker.next, Worker.step, Controller.start, show controller.joinable = false from fresh,
                Bool.false_eq_true, if_false, Option.getD_some]
              exact keeps_quiet rfl ⟨mask, kept⟩
          | setup | waiting | exiting | zombie => exact keeps_quiet rfl keeps
      | serviceThrows | threadThrows => cases calm
  | waitEnds signal =>
      cases life with
      | waiting controller =>
          simp only [Worker.next, Worker.step]
          split
          · refine keeps_quiet rfl ⟨keeps.1, ?_⟩
            simp only [Option.getD_some, Worker.hasStopped, Controller.stop]
            cases controller.joinable with
            | true => rfl
            | false => rfl
          · exact keeps_quiet rfl keeps
      | setup | starting | exiting | zombie => exact keeps_quiet rfl keeps
  | receives signal =>
      rw [next_receives]
      exact keeps_receive keeps (blocked signal rfl)
  | stopped | continued =>
      simp only [Worker.next, Worker.step]
      split
      · exact keeps_quiet rfl keeps
      · exact keeps_quiet rfl keeps
  | constructionThrows | exits | crashes => cases calm

theorem keeps_play {received : List Signal} {worker : Worker} {events : List WorkerEvent}
    (keeps : Keeps received worker) (calm : ∀ event ∈ events, event.isCalm)
    (blocked : ∀ signal ∈ events.filterMap WorkerEvent.delivered, signal ∈ blockedSignals) :
    Keeps (received ++ events.filterMap WorkerEvent.delivered) (play (Worker.next sigset) worker events) := by
  induction events generalizing received worker with
  | nil =>
      rw [List.filterMap_nil, List.append_nil]
      exact keeps
  | cons event rest ih =>
      have split : (event :: rest).filterMap WorkerEvent.delivered =
          event.delivered.toList ++ rest.filterMap WorkerEvent.delivered := by
        cases brought : event.delivered with
        | none => rw [List.filterMap_cons_none brought, Option.toList_none, List.nil_append]
        | some signal => rw [List.filterMap_cons_some brought, Option.toList_some, List.singleton_append]
      rw [split] at blocked ⊢
      have first := keeps_next sigset keeps (calm event List.mem_cons_self)
        fun signal member => blocked signal (List.mem_append_left _ (Option.mem_toList.mpr member))
      rw [← List.append_assoc]
      exact ih first (fun other member => calm other (List.mem_cons_of_mem event member))
        fun signal member => blocked signal (List.mem_append_right _ member)

/-- The run in which all signals arrive during the wait. -/
def lateSignals (signals : List Signal) : List WorkerEvent :=
  .constructs :: .starts .succeeds :: signals.map .receives

theorem lateSignals_calm (signals : List Signal) : ∀ event ∈ lateSignals signals, event.isCalm := by
  intro event member
  rcases List.mem_cons.mp member with rfl | member
  · rfl
  · rcases List.mem_cons.mp member with rfl | member
    · rfl
    · obtain ⟨signal, -, rfl⟩ := List.mem_map.mp member
      rfl

theorem lateSignals_delivered (signals : List Signal) :
    (lateSignals signals).filterMap WorkerEvent.delivered = signals := by
  change (signals.map WorkerEvent.receives).filterMap WorkerEvent.delivered = signals
  rw [List.filterMap_map]
  exact List.filterMap_some

/-- A worker that only receives signals waits on, with these signals at most, or is killed. -/
def Lingers (possible : List Signal) (worker : Worker) : Prop :=
  match worker.life with
  | .waiting _ => ∀ signal ∈ worker.pending, signal ∈ possible
  | .zombie _ => True
  | _ => False

theorem lingers_receive {possible : List Signal} {worker : Worker} {signal : Signal} (lingers : Lingers possible worker)
    (known : signal ∈ possible) : Lingers possible (worker.receive signal) := by
  obtain ⟨pid, life, mask, pending⟩ := worker
  unfold Worker.receive
  split
  · exact lingers
  · split
    · cases life with
      | waiting controller =>
          intro other member
          rcases List.mem_insert_iff.mp member with new | old
          · rw [new]
            exact known
          · exact lingers other old
      | setup | starting | exiting | zombie => exact lingers
    · split
      · exact trivial
      · exact lingers

theorem lingers_lateSignals (pid : Nat) (signals : List Signal) :
    Lingers signals (play (Worker.next sigset) { pid } (lateSignals signals)) := by
  have received {more : List Signal} {worker : Worker} (known : ∀ signal ∈ more, signal ∈ signals)
      (lingers : Lingers signals worker) :
      Lingers signals (play (Worker.next sigset) worker (more.map .receives)) := by
    induction more generalizing worker with
    | nil => exact lingers
    | cons signal rest ih =>
        refine ih (fun other member => known other (List.mem_cons_of_mem signal member)) ?_
        rw [next_receives]
        exact lingers_receive lingers (known signal List.mem_cons_self)
  have waits : Lingers signals (play (Worker.next sigset) { pid } [.constructs, .starts .succeeds]) := by
    intro signal member
    cases member
  exact received (fun signal member => member) waits

/-- A run of signals that the wait does not ask for ends without a stop. -/
theorem lingers_ends {possible : List Signal} {worker : Worker} (lingers : Lingers possible worker)
    (unasked : ∀ signal ∈ possible, signal ∉ sigset) :
    worker.hasStarted ∧ worker.Rests sigset ∧ worker.hasStopped = false := by
  obtain ⟨pid, life, mask, pending⟩ := worker
  cases life with
  | waiting controller =>
      refine ⟨rfl, fun signal => ?_, rfl⟩
      simp only [Worker.step]
      rw [if_neg]
      intro both
      exact unasked signal (lingers signal both.2) both.1
  | zombie status => exact ⟨rfl, fun signal => rfl, rfl⟩
  | setup | starting | exiting => exact lingers.elim

/-- Blocked signals stop a worker exactly when one of them is in the set of its wait. -/
theorem terminationStops_iff (signals : List Signal) (blocked : ∀ signal ∈ signals, signal ∈ blockedSignals) :
    TerminationStops sigset signals ↔ ∃ signal ∈ signals, signal ∈ sigset := by
  constructor
  · intro stops
    by_contra unasked
    push Not at unasked
    obtain ⟨started, rests, unstopped⟩ := lingers_ends sigset (lingers_lateSignals sigset 1 signals) unasked
    have stopped := stops 1 (lateSignals signals) (lateSignals_calm signals) (lateSignals_delivered signals)
      started rests
    rw [unstopped] at stopped
    cases stopped
  · intro asked pid events calm delivered started rests
    obtain ⟨signal, member, inside⟩ := asked
    have start : Keeps [] ({ pid } : Worker) := ⟨rfl, fun signal member => absurd member List.not_mem_nil⟩
    have keeps := keeps_play sigset start calm (delivered ▸ blocked)
    rw [List.nil_append, delivered] at keeps
    generalize play (Worker.next sigset) { pid } events = worker at started rests keeps ⊢
    obtain ⟨pid, life, mask, pending⟩ := worker
    cases life with
    | waiting controller =>
        have taken := rests signal
        simp only [Worker.step] at taken
        rw [if_pos ⟨inside, keeps.2 signal member⟩] at taken
        cases taken
    | exiting code controller => exact keeps.2
    | zombie status => exact keeps.2.elim
    | setup | starting => cases started

/-- The wait of `WorkProc` asks for no signal, so no sequence of signals stops its worker. -/
theorem workerSigset_neverStops (signals : List Signal) : ¬ TerminationStops workerSigset signals := by
  intro stops
  obtain ⟨started, rests, unstopped⟩ := lingers_ends workerSigset (lingers_lateSignals workerSigset 1 signals)
    fun signal _ => List.not_mem_nil
  have stopped := stops 1 (lateSignals signals) (lateSignals_calm signals) (lateSignals_delivered signals)
    started rests
  rw [unstopped] at stopped
  cases stopped

/-- `SIGTERM` arrives during the wait and stays pending. -/
theorem sigterm_stops_nothing : ¬ TerminationStops workerSigset [.term] := by
  intro stops
  have rests : (play (Worker.next workerSigset) { pid := 1 } (lateSignals [.term])).Rests workerSigset := by
    intro signal
    rfl
  exact absurd (stops 1 (lateSignals [.term]) (by decide) rfl rfl rests) (by decide)

end Peakwork.Process
