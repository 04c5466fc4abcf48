/-
This file gives endless runs of a machine and a rule for what fair ones reach.
-/

import Peakwork.Library.Run

namespace Peakwork

variable {State Event : Type}

/-- The state after so many events of an endless schedule. -/
def follow (next : State → Event → State) (state : State) (schedule : Nat → Event) : Nat → State
  | 0 => state
  | time + 1 => next (follow next state schedule time) (schedule time)

/-- An event comes again and again. -/
def Recurs (schedule : Nat → Event) (event : Event) : Prop := ∀ time, ∃ later, time ≤ later ∧ schedule later = event

/-- Some fair event lowers the rank of each state that is not at the goal, and nothing but a lower rank takes it away, as
long as each step meets a condition. -/
structure Progress (next : State → Event → State) (Meets : State → Event → Prop) (Fair : Event → Prop)
    (Always Goal : State → Prop) (rank : State → Nat) (Helps : State → Event → Prop) : Prop where
  kept : ∀ state event, Always state → Meets state event → Always (next state event)
  falls : ∀ state event, Always state → Meets state event → rank (next state event) ≤ rank state
  helped : ∀ state, Always state → ¬ Goal state → ∃ event, Fair event ∧ Helps state event
  stays : ∀ state event other, Always state → Helps state event → Meets state other →
    rank (next state other) = rank state → Helps (next state other) event
  drops : ∀ state event, Always state → Helps state event → Meets state event → rank (next state event) < rank state

section Follow

variable {next : State → Event → State} {Meets : State → Event → Prop} {Fair : Event → Prop} {Always Goal Holds : State → Prop}
  {rank : State → Nat} {Helps : State → Event → Prop} {state : State} {schedule : Nat → Event}

theorem follow_add (first time : Nat) :
    follow next (follow next state schedule first) (fun later => schedule (first + later)) time =
      follow next state schedule (first + time) := by
  induction time with
  | zero => rfl
  | succ time ih => rw [follow, ih, ← Nat.add_assoc, follow]

/-- A property that each step keeps under a condition holds at every time of a schedule that meets it. -/
theorem follow_keeps (kept : ∀ state event, Always state → Meets state event → Always (next state event))
    (start : Always state) (meets : ∀ time, Meets (follow next state schedule time) (schedule time)) (time : Nat) :
    Always (follow next state schedule time) := by
  induction time with
  | zero => exact start
  | succ time ih => exact kept _ _ ih (meets time)

theorem follow_invariant (kept : ∀ state event, Always state → Always (next state event)) (start : Always state) (time : Nat) :
    Always (follow next state schedule time) :=
  @follow_keeps _ _ next (fun _ _ => True) Always state schedule (fun state event always _ => kept state event always) start
    (fun _ => trivial) time

/-- A property that a step keeps exactly under a condition holds at every time exactly when every step meets it. -/
theorem follow_holds_iff (kept : ∀ state event, Always state → Always (next state event))
    (exactly : ∀ state event, Always state → Holds state → (Holds (next state event) ↔ Meets state event))
    (always : Always state) (start : Holds state) :
    (∀ time, Holds (follow next state schedule time)) ↔
      ∀ time, Meets (follow next state schedule time) (schedule time) := by
  have everywhere : ∀ time, Always (follow next state schedule time) := follow_invariant kept always
  constructor
  · intro holds time
    exact (exactly _ _ (everywhere time) (holds time)).mp (holds (time + 1))
  · intro meets
    have both (state : State) (event : Event) (here : Always state ∧ Holds state) (met : Meets state event) :
        Always (next state event) ∧ Holds (next state event) :=
      ⟨kept state event here.1, (exactly state event here.1 here.2).mpr met⟩
    exact fun time => (follow_keeps both ⟨always, start⟩ meets time).2

theorem Recurs.from {event : Event} (recurs : Recurs schedule event) (first : Nat) :
    Recurs (fun later => schedule (first + later)) event := by
  intro time
  obtain ⟨later, after, here⟩ := recurs (first + time)
  refine ⟨later - first, by omega, ?_⟩
  rw [← here]
  exact congrArg schedule (by omega)

/-- Until an event that helps comes, the rank stays and the event helps, or the rank is lower. -/
theorem Progress.waits (progress : Progress next Meets Fair Always Goal rank Helps) (always : Always state)
    (meets : ∀ time, Meets (follow next state schedule time) (schedule time)) {event : Event}
    (helps : Helps state event) (time : Nat) :
    rank (follow next state schedule time) < rank state ∨
      rank (follow next state schedule time) = rank state ∧ Helps (follow next state schedule time) event := by
  induction time with
  | zero => exact Or.inr ⟨rfl, helps⟩
  | succ time ih =>
      have now : Always (follow next state schedule time) := follow_keeps progress.kept always meets time
      have falls := progress.falls _ (schedule time) now (meets time)
      rcases ih with lower | ⟨same, still⟩
      · exact Or.inl (falls.trans_lt lower)
      · rcases falls.lt_or_eq with lower | equal
        · exact Or.inl (lower.trans_eq same)
        · exact Or.inr ⟨equal.trans same, progress.stays _ event _ now still (meets time) equal⟩

/-- A schedule in which every fair event recurs reaches the goal, if each of its steps meets the condition. -/
theorem Progress.reaches (progress : Progress next Meets Fair Always Goal rank Helps) (always : Always state)
    (meets : ∀ time, Meets (follow next state schedule time) (schedule time))
    (fair : ∀ event, Fair event → Recurs schedule event) : ∃ time, Goal (follow next state schedule time) := by
  induction measure : rank state using Nat.strongRecOn generalizing state schedule with
  | ind number ih =>
      by_cases goal : Goal state
      · exact ⟨0, goal⟩
      · obtain ⟨event, isFair, helps⟩ := progress.helped state always goal
        obtain ⟨later, _, here⟩ := fair event isFair 0
        have lower : rank (follow next state schedule (later + 1)) < number := by
          have now : Always (follow next state schedule later) := follow_keeps progress.kept always meets later
          have met : Meets (follow next state schedule later) event := here ▸ meets later
          rw [follow, here, ← measure]
          rcases progress.waits always meets helps later with less | ⟨same, still⟩
          · exact (progress.falls _ event now met).trans_lt less
          · exact (progress.drops _ event now still met).trans_eq same
        have further (time : Nat) : Meets (follow next (follow next state schedule (later + 1))
            (fun other => schedule (later + 1 + other)) time) (schedule (later + 1 + time)) := by
          rw [follow_add]
          exact meets (later + 1 + time)
        obtain ⟨time, reached⟩ := ih _ lower (follow_keeps progress.kept always meets (later + 1)) further
          (fun other isFair => (fair other isFair).from (later + 1)) rfl
        exact ⟨later + 1 + time, follow_add (later + 1) time ▸ reached⟩

end Follow

end Peakwork
