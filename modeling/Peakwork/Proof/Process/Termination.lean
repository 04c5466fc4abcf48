/-
This file decides when a requested termination is final.
-/

import Peakwork.Library.Fairness
import Peakwork.Proof.Process.OneWorker

namespace Peakwork.Process

variable (sigset : List Signal)

/-- Some worker calls `exit` with the wish to terminate. -/
def State.requests (state : State) : Bool := state.children.any (·.exitsWith needToTerminate)

/-- The flag remembers that a worker has asked for the termination. -/
def watch (watched : State × Bool) (event : Event) : State × Bool :=
  let after := watched.1.next sigset event
  (after, watched.2 || after.requests)

/-- After a requested termination the supervisor is not at the head of its loop, where it forks. -/
def Final (watched : State × Bool) : Prop := watched.2 = true → watched.1.point ≠ .head

/-- The supervisor collects a child. -/
def State.Collects (state : State) (event : Event) : Prop :=
  state.point = .wait ∧ ∃ pid worker status, event = .reaps pid ∧
    state.children.find? (fun worker => worker.pid = pid) = some worker ∧ worker.life = .zombie status

/-- After the request the supervisor collects no child. -/
def NotCollected (watched : State × Bool) (event : Event) : Prop :=
  watched.2 = true → ¬ watched.1.Collects event

def WatchedOrdered (watched : State × Bool) : Prop := Ordered watched.1

theorem watchedOrdered_next (watched : State × Bool) (event : Event) (ordered : WatchedOrdered watched) :
    WatchedOrdered (watch sigset watched event) :=
  ordered_next sigset watched.1 event ordered

/-- The status of every worker sends the supervisor back to the head of its loop. -/
theorem collects_restarts {state : State} {event : Event} (ordered : Ordered state)
    (collects : state.Collects event) : (state.next sigset event).point = .head := by
  obtain ⟨waiting, pid, worker, status, rfl, found, dead⟩ := collects
  have inside : worker ∈ state.children := List.mem_of_find?_eq_some found
  have life := (ordered.sound worker inside).life
  rw [dead] at life
  obtain ⟨own, phase, mask, pending⟩ := worker
  cases dead
  have restarts : ¬ wexitstatus status = needToTerminate := by
    rw [show wexitstatus status = needToWork from life]
    decide
  simp only [State.next, State.step, waiting, found, Option.getD_some]
  rw [State.decide_point, if_neg restarts]

/-- Nothing but the collection of a child leads back to the head. -/
theorem stepped_head {state after : State} {event : Event} (ordered : Ordered state)
    (step : Stepped sigset state event after) (head : after.point = .head) :
    state.point = .head ∨ state.Collects event := by
  cases step with
  | forked => cases head
  | notForked before => exact .inl before
  | arrived => exact .inl head
  | sawChild => cases head
  | sawOther => cases head
  | reaped pid worker status waiting found dead =>
      exact .inr ⟨waiting, pid, worker, status, rfl, found, dead⟩
  | waitFailed waiting childless =>
      have few := ordered.few
      rw [waiting] at few
      obtain ⟨worker, only⟩ := few
      rw [childless] at only
      cases only
  | hasReturned => cases head
  | worked => exact .inl head

/-- A request needs a child, and there is none at the head. -/
theorem requests_not_head {state : State} (ordered : Ordered state) (requests : state.requests = true) :
    state.point ≠ .head := by
  intro head
  have few := ordered.few
  rw [head] at few
  rw [State.requests, show state.children = [] from few] at requests
  cases requests

/-- One step keeps the termination final exactly when no child is collected after the request. -/
theorem final_watch_iff (watched : State × Bool) (event : Event) (ordered : WatchedOrdered watched)
    (final : Final watched) : Final (watch sigset watched event) ↔ NotCollected watched event := by
  obtain ⟨state, requested⟩ := watched
  have after := ordered_next sigset state event ordered
  constructor
  · rintro kept rfl collects
    exact kept rfl (collects_restarts sigset ordered collects)
  · intro clean flag head
    rcases Bool.or_eq_true_iff.mp flag with before | now
    · rcases next_cases sigset state event with same | step
      · change (state.next sigset event).point = .head at head
        rw [same] at head
        exact final before head
      · rcases stepped_head sigset ordered step head with there | collects
        · exact final before there
        · exact clean before collects
    · exact requests_not_head after now head

/-- The worker has come to its exit. -/
def Worker.ends (worker : Worker) : Bool :=
  match worker.life with
  | .exiting _ _ | .zombie _ => true
  | _ => false

/-- The only child comes to its end, and a supervisor that waits for a signal will hear of its death. -/
structure Ending (state : State) (worker : Worker) : Prop where
  only : state.children = [worker]
  ends : worker.ends = true
  place : state.point = .wait ∨ state.point = .sigwait worker.pid ∧ (worker.alive = false → .chld ∈ state.pending)

/-- The supervisor has left its loop. -/
def State.HasLeft (state : State) : Prop := state.point = .leaving ∨ state.point = .returned

/-- How many steps can come before the supervisor collects its child. -/
def State.rank (state : State) : Nat :=
  match state.point with
  | .sigwait _ => if state.children.any Worker.alive then 4 else 3
  | .wait => if state.children.any Worker.alive then 2 else 1
  | .head | .leaving | .returned => 0

section Ending

variable {sigset} {state after : State} {event : Event} {worker : Worker}

/-- The child of a request is the only one. -/
theorem ending_of_requests (ordered : Ordered state) (requests : state.requests = true) :
    state.HasLeft ∨ ∃ worker, Ending state worker := by
  obtain ⟨worker, member, exits⟩ := List.any_eq_true.mp requests
  have ends : worker.ends = true ∧ worker.alive = true := by
    unfold Worker.exitsWith at exits
    unfold Worker.ends Worker.alive
    cases life : worker.life with
    | exiting code controller => exact ⟨rfl, rfl⟩
    | setup | starting | waiting | zombie =>
        rw [life] at exits
        cases exits
  have lives : worker.alive = false → .chld ∈ state.pending := fun dead => absurd (ends.2.symm.trans dead) (by decide)
  have few := ordered.few
  cases here : state.point with
  | head => exact absurd here (requests_not_head ordered requests)
  | sigwait pid =>
      rw [here] at few
      obtain ⟨only, single, own⟩ := few
      rw [single] at member
      rw [← List.mem_singleton.mp member] at single own
      exact Or.inr ⟨worker, single, ends.1, Or.inr ⟨own.symm ▸ here, lives⟩⟩
  | wait =>
      rw [here] at few
      obtain ⟨only, single⟩ := few
      rw [single] at member
      rw [← List.mem_singleton.mp member] at single
      exact Or.inr ⟨worker, single, ends.1, Or.inl here⟩
  | leaving => exact Or.inl (Or.inl here)
  | returned => exact Or.inl (Or.inr here)

theorem Worker.exiting_of_ends (ends : worker.ends = true) (alive : worker.alive = true) :
    ∃ code controller, worker.life = .exiting code controller := by
  unfold Worker.ends at ends
  unfold Worker.alive at alive
  cases life : worker.life with
  | exiting code controller => exact ⟨code, controller, rfl⟩
  | setup | starting | waiting =>
      rw [life] at ends
      cases ends
  | zombie =>
      rw [life] at alive
      cases alive

theorem Worker.zombie_of_dead (dead : worker.alive = false) : ∃ status, worker.life = .zombie status := by
  unfold Worker.alive at dead
  cases life : worker.life with
  | zombie status => exact ⟨status, rfl⟩
  | setup | starting | waiting | exiting =>
      rw [life] at dead
      cases dead

theorem Worker.receive_ends (signal : Signal) (ends : worker.ends = true) : (worker.receive signal).ends = true := by
  unfold Worker.receive
  split
  · exact ends
  · split
    · exact ends
    · split
      · rfl
      · exact ends

/-- A worker within its exit does nothing but end. -/
theorem Worker.ends_step {before : Worker} {own : WorkerEvent} (step : before.step sigset own = some worker)
    (ends : before.ends = true) : worker.ends = true := by
  obtain ⟨pid, life, mask, pending⟩ := before
  cases life with
  | setup | starting | waiting => cases ends
  | zombie status => exact absurd step (Worker.not_step_dead sigset rfl)
  | exiting code controller =>
      cases own with
      | constructs | constructionThrows | starts | waitEnds => cases step
      | exits | crashes | stopped | continued =>
          cases step
          rfl
      | receives signal =>
          cases step
          exact Worker.receive_ends signal ends

theorem Ending.found (ending : Ending state worker) :
    state.children.find? (fun child => child.pid = worker.pid) = some worker := by
  rw [ending.only]
  exact List.find?_cons_of_pos (decide_eq_true rfl)

theorem Ending.not_head (ending : Ending state worker) : state.point ≠ .head := by
  intro head
  rcases ending.place with waits | waits
  · exact Point.noConfusion (head.symm.trans waits)
  · exact Point.noConfusion (head.symm.trans waits.1)

theorem Ending.not_left (ending : Ending state worker) : ¬ state.HasLeft := by
  rintro (left | left) <;> rcases ending.place with waits | waits
  · exact Point.noConfusion (left.symm.trans waits)
  · exact Point.noConfusion (left.symm.trans waits.1)
  · exact Point.noConfusion (left.symm.trans waits)
  · exact Point.noConfusion (left.symm.trans waits.1)

/-- The rank says where the supervisor waits and whether its child is alive. -/
theorem Ending.rank (ending : Ending state worker) :
    state.rank = (if state.point = .wait then 1 else 3) + if worker.alive then 1 else 0 := by
  unfold State.rank
  rw [ending.only, List.any_cons, List.any_nil, Bool.or_false]
  rcases ending.place with waits | waits
  · rw [waits]
    cases worker.alive <;> rfl
  · rw [waits.1]
    cases worker.alive <;> rfl

/-- A step that collects no child takes the supervisor out of its loop or leaves the child coming to its end; a step
that changes the place of the supervisor or the life of the child lowers the rank. -/
theorem ending_step (ordered : Ordered state) (ending : Ending state worker) (clean : ¬ state.Collects event)
    (step : Stepped sigset state event after) :
    after.HasLeft ∨ ∃ now, Ending after now ∧ now.pid = worker.pid ∧
      (after.rank < state.rank ∨ after.point = state.point ∧ now.alive = worker.alive) := by
  cases step with
  | forked head | notForked head => exact absurd head ending.not_head
  | arrived signal =>
      refine Or.inr ⟨worker, ⟨ending.only, ending.ends, ?_⟩, rfl, Or.inr ⟨rfl, rfl⟩⟩
      exact ending.place.imp_right fun waits => ⟨waits.1, fun dead => List.mem_insert_of_mem (waits.2 dead)⟩
  | sawChild event pid pending siginfo waiting reads =>
      have there : Ending { state with point := .wait, pending, siginfo } worker :=
        ⟨ending.only, ending.ends, Or.inl rfl⟩
      refine Or.inr ⟨worker, there, rfl, Or.inl ?_⟩
      have apart : ¬ state.point = .wait := fun wait => Point.noConfusion (waiting.symm.trans wait)
      rw [there.rank, ending.rank, if_pos rfl, if_neg apart]
      omega
  | sawOther => exact Or.inl (Or.inl rfl)
  | reaped pid dead status waiting found zombie =>
      exact absurd ⟨waiting, pid, dead, status, rfl, found, zombie⟩ clean
  | waitFailed waiting childless =>
      have none_ := ending.only
      rw [childless] at none_
      cases none_
  | hasReturned leaving => exact absurd (Or.inl leaving) ending.not_left
  | worked pid own before now found step =>
      have same : before = worker ∧ before.pid = pid := by
        rw [ending.only] at found
        have picked := List.mem_of_find?_eq_some found
        have own := List.find?_some found
        exact ⟨List.mem_singleton.mp picked, of_decide_eq_true own⟩
      obtain ⟨rfl, rfl⟩ := same
      obtain ⟨kept, -⟩ := Worker.step_sound sigset step (ordered.sound before (ending.only ▸ List.mem_singleton_self before))
      have only : state.replaceWorker before.pid now = [now] := by
        rw [State.replaceWorker, ending.only, List.map_cons, if_pos rfl, List.map_nil]
      have lives : before.alive = true := by
        cases alive : before.alive with
        | true => rfl
        | false => exact absurd step (Worker.not_step_dead sigset alive)
      have heard : now.alive = false → State.notifies before now own = true := by
        intro dead
        cases own <;> simp [State.notifies, lives, dead]
      have there : Ending { state with
          children := state.replaceWorker before.pid now
          pending := if State.notifies before now own then state.pending.insert .chld else state.pending } now := by
        refine ⟨only, Worker.ends_step step ending.ends, ending.place.imp_right fun waits => ⟨?_, fun dead => ?_⟩⟩
        · rw [kept]
          exact waits.1
        · show .chld ∈ if State.notifies before now own = true then state.pending.insert .chld else state.pending
          rw [if_pos (heard dead)]
          exact List.mem_insert_self
      refine Or.inr ⟨now, there, kept, ?_⟩
      cases alive : now.alive with
      | true => exact Or.inr ⟨rfl, lives.symm⟩
      | false =>
          apply Or.inl
          rw [there.rank, ending.rank, alive, lives]
          exact Nat.lt_add_one _

end Ending

/-- These events bring the child to its end and the supervisor to its collection. -/
inductive Helps (state : State) : Event → Prop where
  | exits (worker : Worker) (ending : Ending state worker) (alive : worker.alive = true) : Helps state (.worker worker.pid .exits)
  | takes (worker : Worker) (ending : Ending state worker) (dead : worker.alive = false) (waiting : state.point ≠ .wait) :
      Helps state (.takes .chld)
  | reaps (worker : Worker) (ending : Ending state worker) (dead : worker.alive = false) (waiting : state.point = .wait) :
      Helps state (.reaps worker.pid)

/-- The supervisor goes on when its child has died, and a worker within its exit goes on. -/
def GoesOn : Event → Prop
  | .takes .chld | .reaps _ | .worker _ .exits => True
  | _ => False

/-- A termination has been requested, and the supervisor has left its loop or its only child comes to its end. -/
structure Requested (watched : State × Bool) : Prop where
  ordered : Ordered watched.1
  flag : watched.2 = true
  ends : watched.1.HasLeft ∨ ∃ worker, Ending watched.1 worker

section Progress

variable {sigset} {state : State} {event : Event}

theorem hasLeft_next (left : state.HasLeft) : (state.next sigset event).HasLeft := by
  rcases next_cases sigset state event with same | step
  · rw [same]
    exact left
  · generalize state.next sigset event = after at step
    have away {point : Point} (here : state.point = point) (inside : point ≠ .leaving ∧ point ≠ .returned) : after.HasLeft :=
      (left.elim (fun leaving => inside.1 (here.symm.trans leaving)) fun returned => inside.2 (here.symm.trans returned)).elim
    cases step with
    | forked head | notForked head => exact away head (by decide)
    | sawChild _ _ _ _ waiting | sawOther _ _ _ _ _ waiting => exact away waiting ⟨Point.noConfusion, Point.noConfusion⟩
    | reaped _ _ _ waiting | waitFailed waiting => exact away waiting (by decide)
    | hasReturned => exact Or.inr rfl
    | arrived | worked => exact left

theorem hasLeft_rank (left : state.HasLeft) : state.rank = 0 := by
  unfold State.rank
  rcases left with leaving | returned
  · rw [leaving]
  · rw [returned]

theorem ending_next (ordered : Ordered state) {worker : Worker} (ending : Ending state worker) (clean : ¬ state.Collects event) :
    (state.next sigset event).HasLeft ∨ ∃ now, Ending (state.next sigset event) now ∧ now.pid = worker.pid ∧
      ((state.next sigset event).rank < state.rank ∨
        (state.next sigset event).point = state.point ∧ now.alive = worker.alive) := by
  rcases next_cases sigset state event with same | step
  · rw [same]
    exact Or.inr ⟨worker, ending, rfl, Or.inr ⟨rfl, rfl⟩⟩
  · exact ending_step ordered ending clean step

/-- The event that takes the child or the supervisor on lowers the rank, if it collects no child. -/
theorem Helps.drops (helps : Helps state event) (clean : ¬ state.Collects event) :
    (state.next sigset event).rank < state.rank := by
  cases helps with
  | exits worker ending alive =>
      obtain ⟨code, controller, life⟩ := Worker.exiting_of_ends ending.ends alive
      have found := ending.found
      have after : (state.next sigset (.worker worker.pid .exits)).point = state.point ∧
          (state.next sigset (.worker worker.pid .exits)).children = [worker.dies (Worker.exitDeath code controller)] := by
        simp only [State.next, State.step, found, Worker.step, life, Option.getD_some]
        constructor
        · split <;> rfl
        · rw [ending.only]
          split <;> simp [State.raise]
      rw [ending.rank, alive]
      unfold State.rank
      rw [after.1, after.2]
      rcases ending.place with waits | waits
      · rw [waits]
        exact Nat.lt_add_one 1
      · rw [waits.1]
        exact Nat.lt_add_one 3
  | takes worker ending dead waiting =>
      obtain ⟨here, pending⟩ := ending.place.resolve_left waiting
      have after : (state.next sigset (.takes .chld)).point = .wait ∧
          (state.next sigset (.takes .chld)).children = [worker] := by
        simp only [State.next, State.step, here, pending dead, State.dispatch, if_true, Option.getD_some]
        exact ⟨trivial, ending.only⟩
      rw [ending.rank, dead, if_neg waiting]
      unfold State.rank
      rw [after.1, after.2, List.any_cons, dead]
      decide
  | reaps worker ending dead waiting =>
      obtain ⟨status, zombie⟩ := Worker.zombie_of_dead dead
      exact absurd ⟨waiting, worker.pid, worker, status, rfl, ending.found, zombie⟩ clean

/-- Without a lower rank the same event helps on. -/
theorem Helps.stays {other : Event} (ordered : Ordered state) (helps : Helps state event) (clean : ¬ state.Collects other)
    (same : (state.next sigset other).rank = state.rank) : Helps (state.next sigset other) event := by
  have kept {worker : Worker} (ending : Ending state worker) :
      ∃ now, Ending (state.next sigset other) now ∧ now.pid = worker.pid ∧
        (state.next sigset other).point = state.point ∧ now.alive = worker.alive := by
    rcases @ending_next sigset _ _ ordered _ ending clean with left | ⟨now, there, own, lower | places⟩
    · have positive := ending.rank
      rw [← same, hasLeft_rank left] at positive
      split at positive <;> omega
    · exact absurd same lower.ne
    · exact ⟨now, there, own, places⟩
  cases helps with
  | exits worker ending alive =>
      obtain ⟨now, there, own, point, life⟩ := kept ending
      rw [← own]
      exact .exits now there (life.trans alive)
  | takes worker ending dead waiting =>
      obtain ⟨now, there, own, point, life⟩ := kept ending
      exact .takes now there (life.trans dead) (point ▸ waiting)
  | reaps worker ending dead waiting =>
      obtain ⟨now, there, own, point, life⟩ := kept ending
      rw [← own]
      exact .reaps now there (life.trans dead) (point.trans waiting)

theorem Requested.next {watched : State × Bool} (requested : Requested watched) (clean : NotCollected watched event) :
    Requested (watch sigset watched event) := by
  refine ⟨ordered_next sigset _ event requested.ordered, ?_, ?_⟩
  · show (watched.2 || _) = true
    rw [requested.flag, Bool.true_or]
  · rcases requested.ends with left | ⟨worker, ending⟩
    · exact Or.inl (hasLeft_next left)
    · rcases ending_next requested.ordered ending (clean requested.flag) with left | ⟨now, there, -⟩
      · exact Or.inl left
      · exact Or.inr ⟨now, there⟩

end Progress

/-- After a request the supervisor leaves its loop, as long as it collects no child. -/
theorem leaving_progress : Progress (watch sigset) NotCollected GoesOn Requested (fun watched => watched.1.HasLeft)
    (fun watched => watched.1.rank) (fun watched event => Helps watched.1 event) where
  kept := fun _ _ requested clean => requested.next clean
  falls := by
    intro watched event requested clean
    rcases requested.ends with left | ⟨worker, ending⟩
    · exact ((hasLeft_rank (hasLeft_next left)).trans (hasLeft_rank left).symm).le
    · rcases ending_next requested.ordered ending (clean requested.flag) with left | ⟨now, there, -, lower | ⟨point, life⟩⟩
      · exact (hasLeft_rank left).trans_le (Nat.zero_le _)
      · exact lower.le
      · exact (there.rank.trans (by rw [ending.rank, point, life])).le
  helped := by
    intro watched requested running
    obtain ⟨worker, ending⟩ := requested.ends.resolve_left running
    cases alive : worker.alive with
    | true => exact ⟨.worker worker.pid .exits, trivial, .exits worker ending alive⟩
    | false =>
        by_cases waiting : watched.1.point = .wait
        · exact ⟨.reaps worker.pid, trivial, .reaps worker ending alive waiting⟩
        · exact ⟨.takes .chld, trivial, .takes worker ending alive waiting⟩
  stays := fun _ _ _ requested helps clean same => helps.stays requested.ordered (clean requested.flag) same
  drops := fun _ _ requested helps clean => helps.drops (clean requested.flag)

/-- A requested termination is final: after it the supervisor is never at the head of its loop, and it leaves the loop. -/
structure Terminates (schedule : Nat → Event) : Prop where
  final : ∀ time, Final (follow (watch sigset) ({}, false) schedule time)
  leaves : ∀ time, (follow (watch sigset) ({}, false) schedule time).2 = true →
    ∃ later, time ≤ later ∧ (follow (watch sigset) ({}, false) schedule later).1.HasLeft

theorem watched_start : WatchedOrdered ({}, false) ∧ Final ({}, false) := ⟨ordered_start, fun flag => absurd flag (by decide)⟩

/-- While the supervisor collects no child after a request, a requested termination comes to its end. -/
theorem requested_follow {schedule : Nat → Event}
    (clean : ∀ time, NotCollected (follow (watch sigset) ({}, false) schedule time) (schedule time)) (time : Nat)
    (flag : (follow (watch sigset) ({}, false) schedule time).2 = true) :
    Requested (follow (watch sigset) ({}, false) schedule time) := by
  induction time with
  | zero => cases flag
  | succ time ih =>
      by_cases before : (follow (watch sigset) ({}, false) schedule time).2 = true
      · exact (ih before).next (clean time)
      · have ordered : Ordered (follow (watch sigset) ({}, false) schedule (time + 1)).1 :=
          follow_invariant (watchedOrdered_next sigset) watched_start.1 (time + 1)
        have now := (Bool.or_eq_true_iff.mp flag).resolve_left before
        exact ⟨ordered, flag, ending_of_requests ordered now⟩

theorem terminates_iff (schedule : Nat → Event) (fair : ∀ event, GoesOn event → Recurs schedule event) :
    Terminates sigset schedule ↔ ∀ time, NotCollected (follow (watch sigset) ({}, false) schedule time) (schedule time) := by
  have final : (∀ time, Final (follow (watch sigset) ({}, false) schedule time)) ↔
      ∀ time, NotCollected (follow (watch sigset) ({}, false) schedule time) (schedule time) :=
    follow_holds_iff (watchedOrdered_next sigset) (final_watch_iff sigset) watched_start.1 watched_start.2
  constructor
  · intro terminates
    exact final.mp terminates.final
  · intro clean
    refine ⟨final.mpr clean, fun time flag => ?_⟩
    have further (other : Nat) : NotCollected (follow (watch sigset) (follow (watch sigset) ({}, false) schedule time)
        (fun later => schedule (time + later)) other) (schedule (time + other)) := by
      rw [follow_add]
      exact clean (time + other)
    obtain ⟨more, left⟩ := (leaving_progress sigset).reaches (requested_follow sigset clean time flag) further
      fun event goesOn => (fair event goesOn).from time
    rw [follow_add] at left
    exact ⟨time + more, Nat.le_add_right time more, left⟩

/-- In all states of a run the supervisor stays away from its head after a request if and only if it collects no
child after the request; then, in each endless run in which supervisor and workers go on, it leaves its loop. -/
theorem final_run_iff :
    (∀ events, StatesHold (watch sigset) Final ({}, false) events ↔
      StepsMeet (watch sigset) NotCollected ({}, false) events) ∧
    ∀ schedule, (∀ event, GoesOn event → Recurs schedule event) →
      (Terminates sigset schedule ↔ ∀ time, NotCollected (follow (watch sigset) ({}, false) schedule time) (schedule time)) := by
  constructor
  · intro events
    exact statesHold_iff_stepsMeet (watchedOrdered_next sigset) (final_watch_iff sigset) _ events watched_start.1 watched_start.2
  · exact terminates_iff sigset

/-- Every event by which supervisor and workers go on has a number. -/
def numbered (number : Nat) : Event :=
  match number.unpair with
  | (0, _) => .takes .chld
  | (1, pid) => .reaps pid
  | (_, pid) => .worker pid .exits

/-- The service of a worker cannot start, and then the supervisor takes `SIGTERM`. -/
def signalledSchedule : Nat → Event
  | 0 => .forkSucceeds
  | 1 => .worker 1 .constructs
  | 2 => .worker 1 (.starts .serviceThrows)
  | 3 => .arrives .term
  | 4 => .takes .term
  | time + 5 => numbered time.unpair.1

theorem signalledSchedule_fair (event : Event) (goesOn : GoesOn event) : Recurs signalledSchedule event := by
  obtain ⟨number, same⟩ : ∃ number, numbered number = event := by
    cases event with
    | takes signal =>
        cases signal with
        | chld => exact ⟨Nat.pair 0 0, by rw [numbered, Nat.unpair_pair]; rfl⟩
        | quit | int | term | abrt | other => exact goesOn.elim
    | reaps pid => exact ⟨Nat.pair 1 pid, by rw [numbered, Nat.unpair_pair]; rfl⟩
    | worker pid own =>
        cases own with
        | exits => exact ⟨Nat.pair 2 pid, by rw [numbered, Nat.unpair_pair]; rfl⟩
        | constructs | constructionThrows | starts | waitEnds | crashes | stopped | continued | receives => exact goesOn.elim
    | forkSucceeds | forkFails | arrives | interrupted | waitFails | returns => exact goesOn.elim
  intro time
  refine ⟨Nat.pair number time + 5, (Nat.right_le_pair number time).trans (Nat.le_add_right _ 5), ?_⟩
  rw [signalledSchedule, Nat.unpair_pair]
  exact same

/-- A witness run in which a termination is requested and the supervisor leaves its loop. -/
theorem final_run_iff_example : Terminates workerSigset signalledSchedule ∧
    (follow (watch workerSigset) ({}, false) signalledSchedule 3).2 = true := by
  have left (time : Nat) : (follow (watch workerSigset) ({}, false) signalledSchedule (time + 5)).1.HasLeft := by
    induction time with
    | zero => exact Or.inl (by decide)
    | succ time ih => exact hasLeft_next ih
  have clean (time : Nat) :
      NotCollected (follow (watch workerSigset) ({}, false) signalledSchedule time) (signalledSchedule time) := by
    rintro _ ⟨waiting, -⟩
    rcases time with _ | _ | _ | _ | _ | time
    iterate 5 exact absurd waiting (by decide)
    rcases left time with leaving | returned
    · exact Point.noConfusion (leaving.symm.trans waiting)
    · exact Point.noConfusion (returned.symm.trans waiting)
  exact ⟨((final_run_iff workerSigset).2 signalledSchedule signalledSchedule_fair).mpr clean, by decide⟩

/-- The service of a worker cannot start, and the supervisor starts the next worker. -/
def failingStart : List Event :=
  [.forkSucceeds, .worker 1 .constructs, .worker 1 (.starts .serviceThrows), .worker 1 .exits,
    .takes .chld, .reaps 1]

theorem termination_restarts : ¬ StatesHold (watch workerSigset) Final ({}, false) failingStart := by
  rw [statesHold_iff_prefixes]
  intro final
  exact final failingStart (List.prefix_refl _) (by decide) (by decide)

end Peakwork.Process
