/-
This file says what one step of the supervisor or of a worker can be.
-/

import Peakwork.Construction.Process.Supervisor
import Peakwork.Library.Run

namespace Peakwork.Process

variable (sigset : List Signal)

/-- The children after the step of one of them. -/
def State.replaceWorker (state : State) (pid : Nat) (after : Worker) : List Worker :=
  state.children.map fun worker => if worker.pid = pid then after else worker

@[simp] theorem State.decide_children (state : State) (status : Nat) :
    (state.decide status).children = state.children := by
  unfold State.decide
  by_cases ends : wexitstatus status = needToTerminate <;> simp [ends]

theorem State.decide_point (state : State) (status : Nat) :
    (state.decide status).point = if wexitstatus status = needToTerminate then .leaving else .head := by
  unfold State.decide
  by_cases ends : wexitstatus status = needToTerminate <;> simp [ends]

/-- After this event the supervisor reads this number from its `siginfo`. -/
def State.Reads (state : State) (signo : Nat) : Event → Prop
  | .takes signal => signal ∈ state.pending ∧ signo = signal.number
  | .interrupted uninitialized => signo = state.siginfo.getD uninitialized
  | _ => False

/-- These are the steps of the system. -/
inductive Stepped (state : State) : Event → State → Prop where
  | forked (head : state.point = .head) :
      Stepped state .forkSucceeds { state with
        point := .sigwait state.nextPid
        children := state.children ++ [{ pid := state.nextPid }]
        nextPid := state.nextPid + 1 }
  | notForked (head : state.point = .head) : Stepped state .forkFails state
  | arrived (signal : Signal) : Stepped state (.arrives signal) (state.raise signal)
  | sawChild (event : Event) (pid : Nat) (pending : List Signal) (siginfo : Option Nat)
      (waiting : state.point = .sigwait pid) (reads : state.Reads Signal.chld.number event) :
      Stepped state event { state with point := .wait, pending, siginfo }
  | sawOther (event : Event) (pid signo : Nat) (pending : List Signal) (siginfo : Option Nat)
      (waiting : state.point = .sigwait pid) (reads : state.Reads signo event) (other : signo ≠ Signal.chld.number) :
      Stepped state event { state with
        point := .leaving
        pending
        siginfo
        children := (state.kill pid .term).children
        status := 0 }
  | reaped (pid : Nat) (worker : Worker) (status : Nat) (waiting : state.point = .wait)
      (found : state.children.find? (fun worker => worker.pid = pid) = some worker)
      (dead : worker.life = .zombie status) :
      Stepped state (.reaps pid)
        ({ state with children := state.children.filter (·.pid ≠ pid) }.decide status)
  | waitFailed (waiting : state.point = .wait) (childless : state.children = []) :
      Stepped state .waitFails (state.decide state.status)
  | hasReturned (leaving : state.point = .leaving) :
      Stepped state .returns { state with point := .returned }
  | worked (pid : Nat) (event : WorkerEvent) (before after : Worker)
      (found : state.children.find? (fun worker => worker.pid = pid) = some before)
      (step : before.step sigset event = some after) :
      Stepped state (.worker pid event) { state with
        children := state.replaceWorker pid after
        pending := if State.notifies before after event then state.pending.insert .chld else state.pending }

/-- What the supervisor reads decides about its next point. -/
theorem stepped_dispatch {state : State} {event : Event} {pid signo : Nat} (pending : List Signal) (siginfo : Option Nat)
    (waiting : state.point = .sigwait pid) (reads : state.Reads signo event) :
    Stepped sigset state event ({ state with pending, siginfo }.dispatch pid signo) := by
  unfold State.dispatch
  by_cases child : signo = Signal.chld.number
  · rw [if_pos child]
    exact .sawChild event pid pending siginfo waiting (child ▸ reads)
  · rw [if_neg child]
    exact .sawOther event pid signo pending siginfo waiting reads child

theorem stepped_of_step {state after : State} {event : Event} (step : state.step sigset event = some after) :
    Stepped sigset state event after := by
  cases event with
  | forkSucceeds =>
      simp only [State.step] at step
      split at step
      · cases step
        exact .forked ‹_›
      · cases step
  | forkFails =>
      simp only [State.step] at step
      split at step
      · cases step
        exact .notForked ‹_›
      · cases step
  | arrives signal =>
      simp only [State.step] at step
      split at step
      · cases step
        exact .arrived signal
      · cases step
  | takes signal =>
      simp only [State.step] at step
      split at step
      · rename_i pid waiting
        split at step
        · rename_i pending
          cases step
          exact stepped_dispatch sigset _ _ waiting ⟨pending, rfl⟩
        · cases step
      · cases step
  | interrupted uninitialized =>
      simp only [State.step] at step
      split at step
      · rename_i pid waiting
        cases step
        exact stepped_dispatch sigset state.pending state.siginfo waiting rfl
      · cases step
  | reaps pid =>
      simp only [State.step] at step
      split at step
      · rename_i waiting
        split at step
        · rename_i own status mask pending found
          cases step
          exact .reaped pid _ status waiting found rfl
        · cases step
      · cases step
  | waitFails =>
      simp only [State.step] at step
      split at step
      · rename_i waiting
        split at step
        · rename_i childless
          cases step
          exact .waitFailed waiting (List.isEmpty_iff.mp childless)
        · cases step
      · cases step
  | returns =>
      simp only [State.step] at step
      split at step
      · cases step
        exact .hasReturned ‹_›
      · cases step
  | worker pid event =>
      simp only [State.step] at step
      split at step
      · rename_i before found
        split at step
        · rename_i after worked
          cases step
          have whole := Stepped.worked pid event before after found worked
          by_cases notified : State.notifies before after event
          · rw [if_pos notified] at whole ⊢
            exact whole
          · rw [if_neg notified] at whole ⊢
            exact whole
        · cases step
      · cases step

/-- An event leaves the state as it is or is a step. -/
theorem next_cases (state : State) (event : Event) :
    state.next sigset event = state ∨ Stepped sigset state event (state.next sigset event) := by
  unfold State.next
  cases step : state.step sigset event with
  | none => exact .inl rfl
  | some after => exact .inr (stepped_of_step sigset step)

namespace Worker

/-- What a worker can be: its controller has no thread to join before the start and within `exit`, and
its status never asks for the end. -/
structure Sound (worker : Worker) : Prop where
  mask : worker.mask = blockedSignals
  life : match worker.life with
    | .starting controller | .exiting _ controller => controller.joinable = false
    | .zombie status => wexitstatus status = needToWork
    | .setup | .waiting _ => True

theorem wexitstatus_killed (signal : Signal) : wexitstatus (Death.killed signal).status = needToWork := by
  have small : signal.number % 128 < 128 := Nat.mod_lt _ (by decide)
  simp only [wexitstatus, Death.status, needToWork]
  omega

/-- The second stop of a controller throws, so the exit aborts. -/
theorem exitDeath_killed (code : Nat) (controller : Controller) (unjoinable : controller.joinable = false) :
    exitDeath code controller = .killed .abrt := by
  simp [exitDeath, Controller.stop, unjoinable]

theorem signalError_status (controller : Option Controller) (inUpdater : Bool) :
    wexitstatus (signalError controller inUpdater).status = needToWork := by
  unfold signalError
  split
  · exact wexitstatus_killed _
  · split
    · exact wexitstatus_killed _
    · split
      · decide
      · exact wexitstatus_killed _
      · exact wexitstatus_killed _

theorem sound_dies {worker : Worker} (sound : worker.Sound) {death : Death}
    (status : wexitstatus death.status = needToWork) : (worker.dies death).Sound :=
  ⟨sound.mask, status⟩

theorem sound_receive {worker : Worker} (sound : worker.Sound) (signal : Signal) :
    (worker.receive signal).Sound := by
  unfold receive
  split
  · exact sound
  · split
    · exact ⟨sound.mask, sound.life⟩
    · split
      · exact sound_dies sound (wexitstatus_killed signal)
      · exact sound

@[simp] theorem receive_pid (worker : Worker) (signal : Signal) : (worker.receive signal).pid = worker.pid := by
  unfold receive dies
  split
  · rfl
  · split
    · rfl
    · split <;> rfl

/-- A blocked signal does not end a worker. -/
theorem receive_alive (worker : Worker) (signal : Signal) (blocked : signal ∈ worker.mask) :
    (worker.receive signal).alive = worker.alive := by
  unfold receive
  split
  · rfl
  · rfl

/-- A dead worker takes no step. -/
theorem not_step_dead {before after : Worker} {event : WorkerEvent} (dead : before.alive = false) :
    before.step sigset event ≠ some after := by
  intro step
  obtain ⟨pid, life, mask, pending⟩ := before
  cases life with
  | zombie status => cases event <;> simp [Worker.step, Worker.alive] at step
  | setup | starting controller | waiting controller | exiting code controller => cases dead

/-- A step keeps the process of a worker, and a sound worker stays sound. -/
theorem step_sound {before after : Worker} {event : WorkerEvent}
    (step : before.step sigset event = some after) (sound : before.Sound) :
    after.pid = before.pid ∧ after.Sound := by
  have life := sound.life
  cases event with
  | constructs =>
      simp only [Worker.step] at step
      split at step
      · cases step
        exact ⟨rfl, sound.mask, rfl⟩
      · cases step
  | constructionThrows =>
      simp only [Worker.step] at step
      split at step
      · cases step
        exact ⟨rfl, sound_dies sound (wexitstatus_killed _)⟩
      · cases step
  | starts outcome =>
      simp only [Worker.step] at step
      split at step
      · rename_i controller phase
        rw [phase] at life
        cases outcome with
        | succeeds =>
            simp only [Controller.start, show controller.joinable = false from life, Bool.false_eq_true, if_false] at step
            cases step
            exact ⟨rfl, sound.mask, trivial⟩
        | serviceThrows =>
            cases step
            exact ⟨rfl, sound.mask, life⟩
        | threadThrows =>
            cases step
            exact ⟨rfl, sound.mask, life⟩
      · cases step
  | waitEnds signal =>
      simp only [Worker.step] at step
      split at step
      · split at step
        · cases step
          exact ⟨rfl, sound.mask, Controller.stop_joinable _⟩
        · cases step
      · cases step
  | exits =>
      simp only [Worker.step] at step
      split at step
      · rename_i code controller phase
        rw [phase] at life
        cases step
        rw [exitDeath_killed code controller life]
        exact ⟨rfl, sound_dies sound (wexitstatus_killed _)⟩
      · cases step
  | crashes inUpdater =>
      simp only [Worker.step] at step
      split at step
      all_goals
        cases step
        try exact ⟨rfl, sound_dies sound (signalError_status _ _)⟩
  | stopped | continued =>
      simp only [Worker.step] at step
      split at step
      · cases step
        exact ⟨rfl, sound⟩
      · cases step
  | receives signal =>
      simp only [Worker.step] at step
      split at step
      · cases step
        exact ⟨receive_pid _ _, sound_receive sound signal⟩
      · cases step

end Worker

end Peakwork.Process
