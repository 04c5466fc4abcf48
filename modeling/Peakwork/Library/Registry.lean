/-
This file gives machines that are seen as maps and give each key at most once.
-/

import Peakwork.Library.Run

namespace Peakwork

/-- What a machine keeps under its keys, and what an event means for one entry. -/
structure Registry (State Event Key Value : Type) where
  look : State → Key → Option Value
  /-- the keys that have been in use -/
  given : State → Key → Prop
  /-- the value that an event brings along -/
  made : Event → Option Value
  /-- the value of an entry after an event, or nothing when it is removed -/
  change : Key → Value → Event → Option Value

namespace Registry

variable {State Event Key Value : Type}

/-- An entry changes by its own rule, and a new one has the value of its event and a key that was never in use. -/
structure GivesOnce (registry : Registry State Event Key Value) (next : State → Event → State) : Prop where
  changes : ∀ state event key value, registry.look state key = some value →
    registry.look (next state event) key = registry.change key value event
  fresh : ∀ state event key value, registry.look state key = none →
    registry.look (next state event) key = some value → ¬ registry.given state key ∧ registry.made event = some value
  uses : ∀ state key value, registry.look state key = some value → registry.given state key
  remembers : ∀ state event key, registry.given state key → registry.given (next state event) key

namespace GivesOnce

variable {registry : Registry State Event Key Value} {next : State → Event → State}
  (once : registry.GivesOnce next) {state : State} {key : Key} {value : Value}
include once

/-- A key that was in use and is free stays free. -/
theorem gone (events : List Event) (given : registry.given state key) (free : registry.look state key = none) :
    registry.look (play next state events) key = none := by
  induction events generalizing state with
  | nil => exact free
  | cons event rest ih =>
      apply ih (once.remembers state event key given)
      by_contra taken
      obtain ⟨other, found⟩ := Option.ne_none_iff_exists'.mp taken
      exact (once.fresh state event key other free found).1 given

/-- An entry goes through its own changes until one of them removes it. -/
theorem follows (events : List Event) (found : registry.look state key = some value) :
    registry.look (play next state events) key = events.foldlM (registry.change key) value := by
  induction events generalizing state value with
  | nil => exact found
  | cons event rest ih =>
      have step := once.changes state event key value found
      rw [play_cons, List.foldlM_cons]
      cases changed : registry.change key value event with
      | some after =>
          rw [changed] at step
          exact ih step
      | none =>
          rw [changed] at step
          exact once.gone rest (once.remembers state event key (once.uses state key value found)) step

/-- An entry comes from one event of the run and from the later changes. -/
theorem origin (events : List Event) (free : registry.look state key = none)
    (found : registry.look (play next state events) key = some value) :
    ∃ earlier event later first, events = earlier ++ event :: later ∧
      registry.look (play next state earlier) key = none ∧ registry.made event = some first ∧
      registry.look (play next state (earlier ++ [event])) key = some first ∧
      later.foldlM (registry.change key) first = some value := by
  induction events generalizing state with
  | nil =>
      have there : registry.look state key = some value := found
      rw [free] at there
      cases there
  | cons event rest ih =>
      cases step : registry.look (next state event) key with
      | some first =>
          refine ⟨[], event, rest, first, rfl, free, (once.fresh state event key first free step).2, step, ?_⟩
          rw [← once.follows rest step]
          exact found
      | none =>
          obtain ⟨earlier, maker, later, first, rfl, before, made, after, changes⟩ := ih step found
          exact ⟨event :: earlier, maker, later, first, rfl, before, made, after, changes⟩

end GivesOnce

end Registry

end Peakwork
