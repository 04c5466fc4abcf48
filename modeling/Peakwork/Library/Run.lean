/-
This file gives the runs of a machine and the rules that prove facts about them.
-/

import Mathlib.Tactic

namespace Peakwork

variable {State Event : Type}

/-- A machine takes one determined step for each event. -/
def play (next : State → Event → State) (state : State) (events : List Event) : State :=
  events.foldl next state

/-- A property holds in every state that the machine passes through. -/
def StatesHold (next : State → Event → State) (Holds : State → Prop) : State → List Event → Prop
  | state, [] => Holds state
  | state, event :: rest => Holds state ∧ StatesHold next Holds (next state event) rest

/-- A condition on the state and the event holds at every step. -/
def StepsMeet (next : State → Event → State) (Meets : State → Event → Prop) :
    State → List Event → Prop
  | _, [] => True
  | state, event :: rest => Meets state event ∧ StepsMeet next Meets (next state event) rest

section Machine

variable {next : State → Event → State} {Always Holds : State → Prop}
  {Meets : State → Event → Prop}

theorem play_cons (state : State) (event : Event) (rest : List Event) :
    play next state (event :: rest) = play next (next state event) rest :=
  rfl

theorem play_append (state : State) (first second : List Event) :
    play next state (first ++ second) = play next (play next state first) second :=
  List.foldl_append

theorem play_invariant (kept : ∀ state event, Holds state → Holds (next state event))
    (state : State) (events : List Event) (start : Holds state) : Holds (play next state events) := by
  induction events generalizing state with
  | nil => exact start
  | cons event rest ih => exact ih (next state event) (kept state event start)

/-- A run of two parts meets a condition when each part does. -/
theorem stepsMeet_append (state : State) (first second : List Event) :
    StepsMeet next Meets state (first ++ second) ↔
      StepsMeet next Meets state first ∧ StepsMeet next Meets (play next state first) second := by
  induction first generalizing state with
  | nil => exact (and_iff_right trivial).symm
  | cons event rest ih =>
      rw [List.cons_append, StepsMeet, StepsMeet, ih, and_assoc]
      rfl

theorem statesHold_iff_prefixes (state : State) (events : List Event) :
    StatesHold next Holds state events ↔ ∀ first, first <+: events → Holds (play next state first) := by
  induction events generalizing state with
  | nil =>
      constructor
      · intro holds first before
        rw [List.prefix_nil.mp before]
        exact holds
      · intro holds
        exact holds [] (List.prefix_refl _)
  | cons event rest ih =>
      simp only [StatesHold, ih]
      constructor
      · rintro ⟨here, later⟩ first before
        cases first with
        | nil => exact here
        | cons head tail =>
            obtain ⟨rfl, inner⟩ := List.cons_prefix_cons.mp before
            exact later tail inner
      · intro holds
        refine ⟨holds [] (List.nil_prefix), fun first before => ?_⟩
        exact holds (event :: first) (List.cons_prefix_cons.mpr ⟨rfl, before⟩)

theorem StatesHold.mono {Weaker : State → Prop} (weaker : ∀ state, Holds state → Weaker state)
    {state : State} {events : List Event} (holds : StatesHold next Holds state events) :
    StatesHold next Weaker state events := by
  induction events generalizing state with
  | nil => exact weaker state holds
  | cons event rest ih => exact ⟨weaker state holds.1, ih holds.2⟩

/-- A property that a step keeps under a condition holds along a run whose steps meet it. -/
theorem statesHold_of_stepsMeet
    (kept : ∀ state event, Always state → Always (next state event))
    (step : ∀ state event, Always state → Holds state → Meets state event → Holds (next state event))
    (state : State) (events : List Event) (always : Always state) (start : Holds state)
    (meets : StepsMeet next Meets state events) : StatesHold next Holds state events := by
  induction events generalizing state with
  | nil => exact start
  | cons event rest ih =>
      exact ⟨start, ih _ (kept state event always) (step state event always start meets.1) meets.2⟩

/-- A property that a step keeps exactly under a condition holds along a run exactly when every
step meets the condition. -/
theorem statesHold_iff_stepsMeet
    (kept : ∀ state event, Always state → Always (next state event))
    (exactly : ∀ state event, Always state → Holds state →
      (Holds (next state event) ↔ Meets state event))
    (state : State) (events : List Event) (always : Always state) (start : Holds state) :
    StatesHold next Holds state events ↔ StepsMeet next Meets state events := by
  constructor
  · intro holds
    induction events generalizing state with
    | nil => trivial
    | cons event rest ih =>
        have reached : Holds (next state event) := by
          cases rest with
          | nil => exact holds.2
          | cons _ _ => exact holds.2.1
        exact ⟨(exactly state event always start).mp reached,
          ih _ (kept state event always) reached holds.2⟩
  · exact statesHold_of_stepsMeet kept (fun state event always start meets =>
      (exactly state event always start).mpr meets) state events always start

/-- Two conditions that agree while a property holds, and that keep the property, agree along a run. -/
theorem stepsMeet_congr {Other : State → Event → Prop}
    (kept : ∀ state event, Always state → Other state event → Always (next state event))
    (agree : ∀ state event, Always state → (Meets state event ↔ Other state event))
    (state : State) (events : List Event) (always : Always state) :
    StepsMeet next Meets state events ↔ StepsMeet next Other state events := by
  induction events generalizing state with
  | nil => rfl
  | cons event rest ih =>
      rw [StepsMeet, StepsMeet, agree state event always]
      exact and_congr_right fun here => ih _ (kept state event always here)

end Machine

end Peakwork
