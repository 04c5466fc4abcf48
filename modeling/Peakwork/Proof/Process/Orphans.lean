/-
This file decides when no worker is left behind.
-/

import Peakwork.Proof.Process.OneWorker

namespace Peakwork.Process

variable (sigset : List Signal)

/-- When the supervisor has returned, none of its workers is alive. -/
def NoOrphan (state : State) : Prop :=
  state.point = .returned → ∀ worker ∈ state.children, worker.alive = false

/-- What the supervisor reads after its wait is not the number of `SIGCHLD`. -/
def State.GivesUp (state : State) (event : Event) : Prop :=
  ∃ pid signo, state.point = .sigwait pid ∧ state.Reads signo event ∧ signo ≠ Signal.chld.number

/-- It reads such a number only after the death of the worker. -/
def GivesUpAfterDeath (state : State) (event : Event) : Prop :=
  state.GivesUp event → ∀ worker ∈ state.children, worker.alive = false

/-- A supervisor that leaves its loop has no worker that is alive. -/
def LeavesNone (state : State) : Prop :=
  state.point = .leaving ∨ state.point = .returned → ∀ worker ∈ state.children, worker.alive = false

theorem leavesNone_step {state after : State} {event : Event} (ordered : Ordered state)
    (leaves : LeavesNone state) (meets : GivesUpAfterDeath state event)
    (step : Stepped sigset state event after) : LeavesNone after := by
  cases step with
  | forked => rintro (left | left) <;> cases left
  | notForked => exact leaves
  | arrived => exact leaves
  | sawChild => rintro (left | left) <;> cases left
  | sawOther event pid signo pending siginfo waiting reads other =>
      intro _ worker member
      obtain ⟨before, inside, rfl⟩ := List.mem_map.mp member
      have dead := meets ⟨pid, signo, waiting, reads, other⟩ before inside
      split
      · simp [Worker.receive, dead]
      · exact dead
  | reaped pid worker status waiting found dead =>
      obtain ⟨only, own⟩ := ordered.few.found found
      intro _ other member
      simp [only, own] at member
  | waitFailed waiting childless =>
      intro _ worker member
      simp [childless] at member
  | hasReturned leaving =>
      intro _ worker member
      exact leaves (.inl leaving) worker member
  | worked pid event before worker found step =>
      intro left
      exact absurd step (Worker.not_step_dead sigset (leaves left before (List.mem_of_find?_eq_some found)))

theorem leavesNone_next (state : State) (event : Event) (ordered : Ordered state)
    (leaves : LeavesNone state) (meets : GivesUpAfterDeath state event) :
    LeavesNone (state.next sigset event) := by
  rcases next_cases sigset state event with same | step
  · rw [same]
    exact leaves
  · exact leavesNone_step sigset ordered leaves meets step

/-- The step to the else branch and the return send the worker a signal and change no worker otherwise. -/
theorem returns_children {state : State} {event : Event} {pid signo : Nat} (waiting : state.point = .sigwait pid)
    (reads : state.Reads signo event) (other : signo ≠ Signal.chld.number) :
    ((state.next sigset event).next sigset .returns).point = .returned ∧
      ((state.next sigset event).next sigset .returns).children = (state.kill pid .term).children := by
  cases event with
  | takes signal =>
      obtain ⟨pending, rfl⟩ := reads
      simp only [State.next, State.step, waiting, pending, State.dispatch, other, if_true, if_false, Option.getD_some]
      exact ⟨trivial, rfl⟩
  | interrupted uninitialized =>
      rw [show signo = state.siginfo.getD uninitialized from reads] at other
      simp only [State.next, State.step, waiting, State.dispatch, other, if_false, Option.getD_some]
      exact ⟨trivial, trivial⟩
  | forkSucceeds | forkFails | arrives | reaps | waitFails | returns | worker => exact reads.elim

/-- A supervisor that returns at once leaves exactly the workers that were alive: the signal that it sends
them is blocked. -/
theorem returns_at_once_iff (state : State) (event : Event) (ordered : Ordered state)
    (givesUp : state.GivesUp event) :
    NoOrphan ((state.next sigset event).next sigset .returns) ↔
      ∀ worker ∈ state.children, worker.alive = false := by
  obtain ⟨pid, signo, waiting, reads, other⟩ := givesUp
  obtain ⟨returned, left⟩ := returns_children sigset waiting reads other
  have unharmed : ∀ worker ∈ state.children,
      (if worker.pid = pid then worker.receive .term else worker).alive = worker.alive := by
    intro worker member
    split
    · apply Worker.receive_alive
      rw [(ordered.sound worker member).mask]
      decide
    · rfl
  unfold NoOrphan
  rw [left]
  constructor
  · intro none_ worker member
    rw [← unharmed worker member]
    exact none_ returned _ (List.mem_map_of_mem member)
  · rintro dead _ worker member
    obtain ⟨before, inside, rfl⟩ := List.mem_map.mp member
    exact (unharmed before inside).trans (dead before inside)

/-- A run leaves no orphan when its supervisor goes to its else branch only after the death of its worker;
otherwise the supervisor that returns at once leaves one. -/
theorem noOrphan_run (events : List Event) :
    (StepsMeet (State.next sigset) GivesUpAfterDeath {} events →
      StatesHold (State.next sigset) NoOrphan {} events) ∧
    ∀ event, (play (State.next sigset) {} events).GivesUp event →
      (NoOrphan (play (State.next sigset) {} (events ++ [event, .returns])) ↔
        ∀ worker ∈ (play (State.next sigset) {} events).children, worker.alive = false) := by
  constructor
  · intro meets
    have leaves : StatesHold (State.next sigset) LeavesNone {} events :=
      statesHold_of_stepsMeet (ordered_next sigset) (leavesNone_next sigset) {} events ordered_start
        (fun left => by rcases left with left | left <;> cases left) meets
    exact leaves.mono fun state none_ returned => none_ (.inr returned)
  · intro event givesUp
    have ordered : Ordered (play (State.next sigset) {} events) :=
      play_invariant (ordered_next sigset) {} events ordered_start
    rw [play_append]
    exact returns_at_once_iff sigset _ event ordered givesUp

/-- The supervisor gets `SIGTERM` while its worker works. -/
def terminatedSupervisor : List Event :=
  [.forkSucceeds, .worker 1 .constructs, .worker 1 (.starts .succeeds), .arrives .term, .takes .term,
    .returns]

theorem worker_is_orphaned : ¬ StatesHold (State.next workerSigset) NoOrphan {} terminatedSupervisor := by
  rw [statesHold_iff_prefixes]
  intro none_
  have last := none_ terminatedSupervisor (List.prefix_refl _) (by decide)
  have alive : (play (State.next workerSigset) {} terminatedSupervisor).children.any Worker.alive = true := by
    decide
  obtain ⟨worker, member, lives⟩ := List.any_eq_true.mp alive
  rw [last worker member] at lives
  cases lives

end Peakwork.Process
