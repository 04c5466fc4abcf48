/-
This file shows that the supervisor never has two workers.
-/

import Peakwork.Proof.Process.Steps

namespace Peakwork.Process

variable (sigset : List Signal)

/-- How many children there are at each point of the loop. -/
def ChildrenAt (children : List Worker) : Point → Prop
  | .head => children = []
  | .sigwait pid => ∃ worker, children = [worker] ∧ worker.pid = pid
  | .wait => ∃ worker, children = [worker]
  | .leaving | .returned => children.length ≤ 1

/-- The children fit the point of the loop, and each of them is sound. -/
structure Ordered (state : State) : Prop where
  few : ChildrenAt state.children state.point
  sound : ∀ worker ∈ state.children, worker.Sound

theorem ChildrenAt.length_le {children : List Worker} {point : Point} (few : ChildrenAt children point) :
    children.length ≤ 1 := by
  cases point with
  | head => rw [show children = [] from few]; decide
  | sigwait pid =>
      obtain ⟨worker, rfl, _⟩ := few
      exact Nat.le_refl 1
  | wait =>
      obtain ⟨worker, rfl⟩ := few
      exact Nat.le_refl 1
  | leaving => exact few
  | returned => exact few

/-- A change of single workers that keeps their processes keeps their number. -/
theorem ChildrenAt.map {children : List Worker} {point : Point} (few : ChildrenAt children point)
    (change : Worker → Worker) (same : ∀ worker ∈ children, (change worker).pid = worker.pid) :
    ChildrenAt (children.map change) point := by
  cases point with
  | head => rw [show children = [] from few]; rfl
  | sigwait pid =>
      obtain ⟨worker, rfl, own⟩ := few
      exact ⟨change worker, rfl, (same worker (by simp)).trans own⟩
  | wait =>
      obtain ⟨worker, rfl⟩ := few
      exact ⟨change worker, rfl⟩
  | leaving =>
      change (children.map change).length ≤ 1
      rw [List.length_map]
      exact few
  | returned =>
      change (children.map change).length ≤ 1
      rw [List.length_map]
      exact few

/-- A child whose process is found is the only child. -/
theorem ChildrenAt.found {children : List Worker} {point : Point} (few : ChildrenAt children point)
    {pid : Nat} {worker : Worker} (found : children.find? (fun worker => worker.pid = pid) = some worker) :
    children = [worker] ∧ worker.pid = pid := by
  have length := few.length_le
  match children, length with
  | [], _ => cases found
  | [only], _ =>
      by_cases own : only.pid = pid
      · simp only [List.find?_cons, own, decide_true] at found
        cases found
        exact ⟨rfl, own⟩
      · simp [own] at found

theorem ordered_decide {state : State} (childless : state.children = []) (status : Nat) :
    Ordered (state.decide status) := by
  refine ⟨?_, by simp [childless]⟩
  rw [state.decide_children, state.decide_point, childless]
  split
  · exact Nat.zero_le 1
  · rfl

/-- Every step keeps the order. -/
theorem ordered_step {state after : State} {event : Event} (ordered : Ordered state)
    (step : Stepped sigset state event after) : Ordered after := by
  cases step with
  | forked head =>
      have childless : state.children = [] := by
        have few := ordered.few
        rw [head] at few
        exact few
      constructor
      · exact ⟨{ pid := state.nextPid }, by rw [childless]; rfl, rfl⟩
      · intro worker member
        rw [childless] at member
        rw [List.mem_singleton.mp member]
        exact ⟨rfl, trivial⟩
  | notForked => exact ordered
  | arrived => exact ⟨ordered.few, ordered.sound⟩
  | sawChild event pid pending siginfo waiting =>
      have few := ordered.few
      rw [waiting] at few
      obtain ⟨worker, only, _⟩ := few
      exact ⟨⟨worker, only⟩, ordered.sound⟩
  | sawOther event pid signo pending siginfo waiting =>
      constructor
      · change ((state.children.map _).length ≤ 1)
        rw [List.length_map]
        exact ordered.few.length_le
      · intro worker member
        obtain ⟨before, inside, rfl⟩ := List.mem_map.mp member
        have sound := ordered.sound before inside
        split
        · exact Worker.sound_receive sound .term
        · exact sound
  | reaped pid worker status waiting found =>
      obtain ⟨only, own⟩ := ordered.few.found found
      apply ordered_decide
      simp [only, own]
  | waitFailed waiting childless => exact ordered_decide childless _
  | hasReturned leaving =>
      have few := ordered.few
      rw [leaving] at few
      exact ⟨few, ordered.sound⟩
  | worked pid event before worker found step =>
      obtain ⟨only, own⟩ := ordered.few.found found
      have inside : before ∈ state.children := by simp [only]
      obtain ⟨same, sound⟩ := Worker.step_sound sigset step (ordered.sound before inside)
      constructor
      · apply ordered.few.map
        intro other member
        split
        · rename_i picked
          rw [same, own, picked]
        · rfl
      · intro other member
        obtain ⟨old, among, rfl⟩ := List.mem_map.mp member
        split
        · exact sound
        · exact ordered.sound old among

theorem ordered_next (state : State) (event : Event) (ordered : Ordered state) :
    Ordered (state.next sigset event) := by
  rcases next_cases sigset state event with same | step
  · rw [same]
    exact ordered
  · exact ordered_step sigset ordered step

theorem ordered_start : Ordered {} := ⟨rfl, by simp⟩

/-- Before a fork there is no child that is alive or not reaped, and there is never a second one. -/
def OneWorker (state : State) : Prop :=
  (state.point = .head → state.children = []) ∧ state.children.length ≤ 1

/-- In every run there is at most one worker. -/
theorem oneWorker_run (events : List Event) :
    StatesHold (State.next sigset) OneWorker {} events := by
  rw [statesHold_iff_prefixes]
  intro first _
  have ordered : Ordered (play (State.next sigset) {} first) :=
    play_invariant (ordered_next sigset) {} first ordered_start
  refine ⟨fun head => ?_, ordered.few.length_le⟩
  have few := ordered.few
  rw [head] at few
  exact few

end Peakwork.Process
