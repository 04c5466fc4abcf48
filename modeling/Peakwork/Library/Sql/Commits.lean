/-
This file follows an action through the transactions that it commits.
-/

import Peakwork.Library.Action
import Peakwork.Library.Sql.Connection

namespace Peakwork.Sql

variable {Abstract Step : Type} (next : Abstract → Step → Abstract)
  (Represents : Abstract → Catalog → Prop)

/-- Each commit is one step of the abstract state; the last catalog ends the trace. -/
inductive Traces : Abstract → Catalog → List Step → List Catalog → Catalog → Prop
  | nil {abstract : Abstract} {catalog : Catalog} (here : Represents abstract catalog) :
      Traces abstract catalog [] [] catalog
  | cons {abstract : Abstract} {catalog after final : Catalog} {step : Step} {steps : List Step}
      {commits : List Catalog} (here : Represents abstract catalog)
      (rest : Traces (next abstract step) after steps commits final) :
      Traces abstract catalog (step :: steps) (after :: commits) final

namespace Traces

variable {next Represents} {abstract : Abstract} {catalog final : Catalog} {steps : List Step}
  {commits : List Catalog}

theorem ends (trace : Traces next Represents abstract catalog steps commits final) :
    Represents (steps.foldl next abstract) final := by
  induction trace with
  | nil here => exact here
  | cons _ _ ih => exact ih

theorem append {more : List Step} {later : List Catalog} {last : Catalog}
    (trace : Traces next Represents abstract catalog steps commits final)
    (rest : Traces next Represents (steps.foldl next abstract) final more later last) :
    Traces next Represents abstract catalog (steps ++ more) (commits ++ later) last := by
  induction trace with
  | nil _ => exact rest
  | cons here _ ih => exact .cons here (ih rest)

theorem length_commits (trace : Traces next Represents abstract catalog steps commits final) :
    commits.length = steps.length := by
  induction trace with
  | nil _ => rfl
  | cons _ _ ih => rw [List.length_cons, List.length_cons, ih]

/-- After some commits the file represents what the first steps lead to. -/
theorem reached (trace : Traces next Represents abstract catalog steps commits final) {count : Nat}
    {left : Catalog} (found : (catalog :: commits)[count]? = some left) :
    Represents ((steps.take count).foldl next abstract) left := by
  induction trace generalizing count with
  | nil here =>
      cases count with
      | zero =>
          cases found
          exact here
      | succ count => cases found
  | cons here _ ih =>
      cases count with
      | zero =>
          cases found
          exact here
      | succ count => exact ih found

end Traces

/-- From a file that represents the abstract state the action commits the steps in turn. -/
def Performs (action : Action Unit) (steps : List Step) (abstract : Abstract) : Prop :=
  ∀ catalog log, Represents abstract catalog → ∃ commits final,
    Traces next Represents abstract catalog steps commits final ∧
      action.run ⟨⟨catalog, false⟩, log⟩ = .ok () ⟨⟨final, false⟩, commits.reverse ++ log⟩

variable {next Represents} {abstract : Abstract}

theorem performs_pure : Performs next Represents (pure ()) [] abstract := by
  intro catalog log here
  exact ⟨[], catalog, .nil here, rfl⟩

theorem performs_step {action : Action Unit} {step : Step}
    (commit : ∀ catalog log, Represents abstract catalog → ∃ after,
      Represents (next abstract step) after ∧
        action.run ⟨⟨catalog, false⟩, log⟩ = .ok () ⟨⟨after, false⟩, after :: log⟩) :
    Performs next Represents action [step] abstract := by
  intro catalog log here
  obtain ⟨after, there, run⟩ := commit catalog log here
  exact ⟨[after], after, .cons here (.nil there), run⟩

/-- The steps of two actions follow each other. -/
theorem performs_bind {first second : Action Unit} {steps more : List Step}
    (left : Performs next Represents first steps abstract)
    (right : Performs next Represents second more (steps.foldl next abstract)) :
    Performs next Represents (first >>= fun _ => second) (steps ++ more) abstract := by
  intro catalog log here
  obtain ⟨commits, middle, trace, run⟩ := left catalog log here
  obtain ⟨later, final, rest, ran⟩ := right middle (commits.reverse ++ log) trace.ends
  refine ⟨commits ++ later, final, trace.append rest, ?_⟩
  rw [Action.bind_ok run, ran, List.reverse_append, List.append_assoc]

/-- A question commits nothing. -/
theorem performs_ask {Value : Type} {question : Action Value} (value : Value)
    {answered : Value → Action Unit} {steps : List Step}
    (asked : ∀ catalog log, Represents abstract catalog →
      question.run ⟨⟨catalog, false⟩, log⟩ = .ok value ⟨⟨catalog, false⟩, log⟩)
    (rest : Performs next Represents (answered value) steps abstract) :
    Performs next Represents (question >>= answered) steps abstract := by
  intro catalog log here
  rw [Action.bind_ok (asked catalog log here)]
  exact rest catalog log here

section Catch

variable {body : Action Unit} {handler : DbError → Action Unit} {steps : List Step}

theorem performs_catch_ok (done : Performs next Represents body steps abstract) :
    Performs next Represents (tryCatch body handler) steps abstract := by
  intro catalog log here
  obtain ⟨commits, final, trace, run⟩ := done catalog log here
  exact ⟨commits, final, trace, Action.catch_ok run⟩

/-- A body that throws before its first commit leaves everything to the handler. -/
theorem performs_catch_error (error : DbError)
    (failed : ∀ catalog log, Represents abstract catalog →
      body.run ⟨⟨catalog, false⟩, log⟩ = .error error ⟨⟨catalog, false⟩, log⟩)
    (handled : Performs next Represents (handler error) steps abstract) :
    Performs next Represents (tryCatch body handler) steps abstract := by
  intro catalog log here
  obtain ⟨commits, final, trace, run⟩ := handled catalog log here
  exact ⟨commits, final, trace, (Action.catch_error (failed catalog log here)).trans run⟩

end Catch

end Peakwork.Sql
