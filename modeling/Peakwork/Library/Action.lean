/-
This file gives the rules of actions that change a state and may fail.
-/

import Mathlib.Tactic

namespace Peakwork.Action

variable {Failure State Value Result : Type} {first : EStateM Failure State Value}
  {next : Value → EStateM Failure State Result} {before after : State}

/-- The steps of an action run one after the other. -/
theorem bind_ok {value : Value} (done : first.run before = .ok value after) :
    (first >>= next).run before = (next value).run after := by
  rw [EStateM.run_bind, done]

/-- An exception skips the rest of the action. -/
theorem bind_error {failure : Failure} (failed : first.run before = .error failure after) :
    (first >>= next).run before = .error failure after := by
  rw [EStateM.run_bind, failed]

/-- An action that ends has passed through a state between its steps. -/
theorem ends_of_bind {result : Result} (ends : (first >>= next).run before = .ok result after) :
    ∃ value middle, first.run before = .ok value middle ∧ (next value).run middle = .ok result after := by
  cases done : first.run before with
  | ok value middle =>
      rw [bind_ok done] at ends
      exact ⟨value, middle, rfl, ends⟩
  | error failure middle =>
      rw [bind_error done] at ends
      cases ends

section Catch

variable {body : EStateM Failure State Value} {handler : Failure → EStateM Failure State Value}

theorem catch_ok {value : Value} (done : body.run before = .ok value after) :
    (tryCatch body handler).run before = .ok value after := by
  have unfolded : body before = .ok value after := done
  simp only [tryCatch, tryCatchThe, MonadExceptOf.tryCatch, EStateM.tryCatch, EStateM.run, unfolded]

/-- A handler starts in the state in which the exception left the action. -/
theorem catch_error {failure : Failure} (failed : body.run before = .error failure after) :
    (tryCatch body handler).run before = (handler failure).run after := by
  have unfolded : body before = .error failure after := failed
  simp only [tryCatch, tryCatchThe, MonadExceptOf.tryCatch, EStateM.tryCatch, EStateM.run, unfolded]
  rfl

end Catch

/-- A loop does in turn what each of its steps does to an abstract state. -/
theorem forM_ok {Abstract Item : Type} (IsAt : Abstract → State → Prop)
    {body : Item → EStateM Failure State Unit} {next : Abstract → Item → Abstract} (items : List Item)
    (step : ∀ abstract item before, item ∈ items → IsAt abstract before →
      ∃ after, (body item).run before = .ok () after ∧ IsAt (next abstract item) after)
    (abstract : Abstract) (before : State) (start : IsAt abstract before) :
    ∃ after, (items.forM body).run before = .ok () after ∧ IsAt (items.foldl next abstract) after := by
  induction items generalizing abstract before with
  | nil => exact ⟨before, rfl, start⟩
  | cons item rest ih =>
      obtain ⟨middle, done, reached⟩ := step abstract item before (by simp) start
      obtain ⟨after, run, final⟩ := ih
        (fun abstract item before member => step abstract item before (by simp [member])) _ middle reached
      refine ⟨after, ?_, final⟩
      change (body item >>= fun _ => rest.forM body).run before = _
      rw [bind_ok done]
      exact run

end Peakwork.Action
