/-
This file decides when every stop of the controller ends well.
-/

import Peakwork.Construction.Controller
import Peakwork.Library.Run

namespace Peakwork.Controller

/-- The calls of the owner of a controller. -/
inductive Call where
  | start (outcome : StartOutcome)
  | stop
  deriving DecidableEq, Repr

def call (controller : Controller) : Call → Controller × Ended
  | .start outcome => controller.start outcome
  | .stop => controller.stop

/-- There is no controller any more when a call has ended the process. -/
def next (process : Option Controller) (made : Call) : Option Controller :=
  process.bind fun controller =>
    if (controller.call made).2 = .terminated then none else some (controller.call made).1

/-- A stop returns, and it leaves no thread to join and a stopped service. -/
def StopsCleanly (process : Option Controller) (made : Call) : Prop :=
  made = .stop → ∃ controller, process = some controller ∧ (controller.call made).2 = .returned ∧
    (controller.call made).1.joinable = false ∧ (controller.call made).1.rpcService.isStarted = false

/-- A start that succeeds holds until the next stop. -/
def started (before : Bool) : Call → Bool
  | .start .succeeds => true
  | .start _ => before
  | .stop => false

/-- A stop comes after a start that has succeeded and has not been stopped, and such a start comes after a stop or first. -/
def Alternates (before : Bool) : Call → Prop
  | .stop => before = true
  | .start .succeeds => before = false
  | .start _ => True

/-- A stop ends well exactly when there is a thread to join. -/
theorem stopsCleanly_iff (controller : Controller) : StopsCleanly (some controller) .stop ↔ controller.joinable = true := by
  unfold StopsCleanly call stop
  cases joinable : controller.joinable with
  | true => exact iff_of_true (fun _ => ⟨controller, rfl, by simp [joinable, Rpc.RPCService.stop]⟩) rfl
  | false =>
      apply iff_of_false _ Bool.false_ne_true
      intro clean
      obtain ⟨other, same, returned, -⟩ := clean rfl
      rw [← Option.some.inj same, joinable] at returned
      cases returned

/-- Nothing stops cleanly in a process that has ended. -/
theorem not_stops_none (calls : List Call) : ¬ StepsMeet next StopsCleanly none (calls ++ [.stop]) := by
  induction calls with
  | nil =>
      rintro ⟨clean, -⟩
      obtain ⟨_, gone, -⟩ := clean rfl
      cases gone
  | cons made rest ih => exact fun meets => ih meets.2

theorem next_stop (controller : Controller) : next (some controller) .stop = some controller.stop.1 := by
  have goes : controller.stop.2 ≠ .terminated := by
    unfold stop
    cases controller.joinable <;> exact Ended.noConfusion
  exact if_neg goes

/-- The thread of the controller says which stops end well, call by call. -/
theorem stepsMeet_joinable (controller : Controller) (calls : List Call) :
    StepsMeet next StopsCleanly (some controller) (calls ++ [.stop]) ↔
      StepsMeet started Alternates controller.joinable (calls ++ [.stop]) := by
  induction calls generalizing controller with
  | nil => exact and_congr_left fun _ => stopsCleanly_iff controller
  | cons made rest ih =>
      rw [List.cons_append, StepsMeet, StepsMeet]
      cases made with
      | stop =>
          rw [stopsCleanly_iff, next_stop, ih, stop_joinable]
          rfl
      | start outcome =>
          have quiet : StopsCleanly (some controller) (.start outcome) := fun absurd_ => Call.noConfusion absurd_
          rw [and_iff_right quiet]
          cases outcome with
          | succeeds =>
              cases joinable : controller.joinable with
              | true =>
                  have ended : next (some controller) (.start .succeeds) = none := by
                    simp [next, call, start, joinable]
                  rw [ended]
                  exact iff_of_false (not_stops_none rest) fun meets => Bool.false_ne_true meets.1.symm
              | false =>
                  have begun : ∃ after, next (some controller) (.start .succeeds) = some after ∧ after.joinable = true := by
                    simp [next, call, start, joinable]
                  obtain ⟨after, step, running⟩ := begun
                  rw [step, ih, running]
                  exact (and_iff_right rfl).symm
          | serviceThrows => exact (ih _).trans (and_iff_right trivial).symm
          | threadThrows => exact (ih _).trans (and_iff_right trivial).symm

/-- Over the whole life of a controller every stop, that of the destructor too, ends well if and only if the stops and the
starts that succeed alternate, a start first. -/
theorem lifecycle_iff (calls : List Call) :
    StepsMeet next StopsCleanly (some {}) (calls ++ [.stop]) ↔ StepsMeet started Alternates false (calls ++ [.stop]) :=
  stepsMeet_joinable {} calls

/-- A start, the stop of `WorkProc` and the stop of the destructor. -/
theorem second_stop_throws : ¬ StepsMeet next StopsCleanly (some {}) ([.start .succeeds, .stop] ++ [.stop]) := by
  intro meets
  obtain ⟨_, same, returned, -⟩ := meets.2.2.1 rfl
  cases same
  cases returned

end Peakwork.Controller
