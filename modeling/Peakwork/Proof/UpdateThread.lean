/-
This file decides what the stop and the wait of the updating thread guarantee.
-/

import Peakwork.Construction.UpdateThread
import Peakwork.Library.Run

namespace Peakwork.UpdateThread

variable (symbols : List String) (waitDuration : Nat)

/-- These are the actions of the updating thread. -/
inductive UpdaterRan (state : State) : State → Prop where
  | goesOn (here : state.updater = .testing) (unset : state.stopFlag = false) :
      UpdaterRan state { state with updater := .beginning }
  | leaves (here : state.updater = .testing) (isSet : state.stopFlag = true) :
      UpdaterRan state { state with updater := .left }
  | begins (symbol : String) (rest : List String) (here : state.updater = .beginning)
      (configured : symbols = symbol :: rest) :
      UpdaterRan state { state with
        updater := .fetching symbol rest
        begunAfterStop := state.begunAfterStop + state.stopFlag.toNat }
  | fetches (symbol next : String) (rest : List String) (here : state.updater = .fetching symbol (next :: rest)) :
      UpdaterRan state { state with updater := .fetching next rest }
  | finishes (symbol : String) (here : state.updater = .fetching symbol []) :
      UpdaterRan state { state with updater := .locking, roundEnd := some state.now }
  | locks (here : state.updater = .locking) (free : state.mtx = none) :
      UpdaterRan state { state with mtx := some .updater, updater := .checking (state.now + waitDuration) }
  | waits (deadline : Nat) (here : state.updater = .checking deadline) (unset : state.stopFlag = false) :
      UpdaterRan state { state with updater := .blocking deadline }
  | stops (deadline : Nat) (here : state.updater = .checking deadline) (isSet : state.stopFlag = true) :
      UpdaterRan state { state with updater := .unlocking }
  | blocks (deadline : Nat) (here : state.updater = .blocking deadline) :
      UpdaterRan state { state with mtx := none, updater := .blocked deadline }
  | checksAgain (deadline : Nat) (here : state.updater = .relocking deadline false) (free : state.mtx = none) :
      UpdaterRan state { state with mtx := some .updater, updater := .checking deadline }
  | timesOut (deadline : Nat) (here : state.updater = .relocking deadline true) (free : state.mtx = none) :
      UpdaterRan state { state with mtx := some .updater, updater := .unlocking }
  | unlocks (here : state.updater = .unlocking) :
      UpdaterRan state { state with mtx := none, updater := .testing }

/-- These are the actions of the stopping thread. -/
inductive StopperRan (state : State) : State → Prop where
  | stores (here : state.stopper = .storing) :
      StopperRan state { state with stopper := .locking, stopFlag := true }
  | locks (here : state.stopper = .locking) (free : state.mtx = none) :
      StopperRan state { state with stopper := .notifying, mtx := some .stopper }
  | notifies (here : state.stopper = .notifying) :
      StopperRan state { state.wake false with stopper := .unlocking }
  | unlocks (here : state.stopper = .unlocking) :
      StopperRan state { state with stopper := .joining, mtx := none }
  | joins (here : state.stopper = .joining) (left : state.updater = .left) :
      StopperRan state { state with stopper := .joined }

/-- A thread runs, or time passes, or a wait ends. -/
inductive Stepped (state : State) : State → Prop where
  | updater {after : State} (ran : UpdaterRan symbols waitDuration state after) : Stepped state after
  | stopper {after : State} (ran : StopperRan state after) : Stepped state after
  | later (elapsed : Nat) : Stepped state { state with now := state.now + elapsed }
  | wakes (timedOut : Bool)
      (due : timedOut = true → ∀ deadline, state.updater = .blocked deadline → deadline ≤ state.now) :
      Stepped state (state.wake timedOut)

section Steps

variable {state after : State}

@[simp] theorem State.wake_mtx (timedOut : Bool) : (state.wake timedOut).mtx = state.mtx := by
  unfold State.wake
  split <;> rfl

@[simp] theorem State.wake_stopFlag (timedOut : Bool) : (state.wake timedOut).stopFlag = state.stopFlag := by
  unfold State.wake
  split <;> rfl

theorem ran_of_updaterRuns (run : state.updaterRuns symbols waitDuration = some after) :
    UpdaterRan symbols waitDuration state after := by
  obtain ⟨updater, stopper, stopFlag, mtx, now, roundEnd, begun⟩ := state
  cases updater with
  | testing =>
      cases run
      cases stopFlag with
      | true => exact .leaves rfl rfl
      | false => exact .goesOn rfl rfl
  | beginning =>
      simp only [State.updaterRuns] at run
      cases symbols with
      | nil => cases run
      | cons symbol rest =>
          cases run
          exact .begins symbol rest rfl rfl
  | fetching symbol rest =>
      cases rest with
      | nil =>
          cases run
          exact .finishes symbol rfl
      | cons next rest =>
          cases run
          exact .fetches symbol next rest rfl
  | locking =>
      simp only [State.updaterRuns] at run
      cases mtx with
      | some owner => cases run
      | none =>
          cases run
          exact .locks rfl rfl
  | checking deadline =>
      cases run
      cases stopFlag with
      | true => exact .stops deadline rfl rfl
      | false => exact .waits deadline rfl rfl
  | blocking deadline =>
      cases run
      exact .blocks deadline rfl
  | blocked deadline => cases run
  | relocking deadline timedOut =>
      simp only [State.updaterRuns] at run
      cases mtx with
      | some owner => cases run
      | none =>
          cases run
          cases timedOut with
          | true => exact .timesOut deadline rfl rfl
          | false => exact .checksAgain deadline rfl rfl
  | unlocking =>
      cases run
      exact .unlocks rfl
  | left => cases run

theorem ran_of_stopperRuns (run : state.stopperRuns = some after) : StopperRan state after := by
  obtain ⟨updater, stopper, stopFlag, mtx, now, roundEnd, begun⟩ := state
  cases stopper with
  | storing =>
      cases run
      exact .stores rfl
  | locking =>
      simp only [State.stopperRuns] at run
      cases mtx with
      | some owner => cases run
      | none =>
          cases run
          exact .locks rfl rfl
  | notifying =>
      cases run
      exact .notifies rfl
  | unlocking =>
      cases run
      exact .unlocks rfl
  | joining =>
      simp only [State.stopperRuns] at run
      split at run
      · rename_i left
        cases run
        exact .joins rfl left
      · cases run
  | joined => cases run

theorem stepped_of_step {event : Event} (step : state.step symbols waitDuration event = some after) :
    Stepped symbols waitDuration state after := by
  cases event with
  | updaterRuns => exact .updater (ran_of_updaterRuns symbols waitDuration step)
  | stopperRuns => exact .stopper (ran_of_stopperRuns step)
  | timePasses elapsed =>
      cases step
      exact .later elapsed
  | waitTimesOut =>
      simp only [State.step] at step
      split at step
      · rename_i deadline phase
        split at step
        · rename_i due
          cases step
          apply Stepped.wakes true
          intro _ other same
          rw [phase] at same
          cases same
          exact due
        · cases step
      · cases step
  | waitEndsSpuriously =>
      cases step
      exact .wakes false fun out => absurd out (by decide)

/-- An event leaves the state as it is or is a step. -/
theorem next_cases (state : State) (event : Event) :
    state.next symbols waitDuration event = state ∨
      Stepped symbols waitDuration state (state.next symbols waitDuration event) := by
  unfold State.next
  cases step : state.step symbols waitDuration event with
  | none => exact .inl rfl
  | some after => exact .inr (stepped_of_step symbols waitDuration step)

end Steps

/-- The updating thread holds the mutex at these points. -/
def Point.owns : Point → Bool
  | .checking _ | .blocking _ | .unlocking => true
  | _ => false

def StopPoint.owns : StopPoint → Bool
  | .notifying | .unlocking => true
  | _ => false

def StopPoint.hasNotified : StopPoint → Bool
  | .unlocking | .joining | .joined => true
  | _ => false

/-- The predicate has been found false, and the wait begins or has begun. -/
def Point.waits : Point → Bool
  | .blocking _ | .blocked _ => true
  | _ => false

/-- No thread waits for a notification that has been issued, and a stop lets one more round begin at most. -/
def NoLostStop (state : State) : Prop :=
  ¬ (state.stopper.hasNotified ∧ ∃ deadline, state.updater = .blocked deadline) ∧ state.begunAfterStop ≤ 1

/-- The mutex has the owner that the points say, and the flag is stored before the notification. -/
structure Guarded (state : State) : Prop where
  updater : state.updater.owns → state.mtx = some .updater
  stopper : state.stopper.owns → state.mtx = some .stopper
  flag : state.stopper ≠ .storing → state.stopFlag = true
  notified : state.stopper.hasNotified → state.updater.waits = false
  rounds : state.begunAfterStop ≤ 1
  unstopped : state.stopFlag = false → state.begunAfterStop = 0
  beginning : state.updater = .beginning → state.begunAfterStop = 0

theorem guarded_initial : Guarded (State.initial symbols) := by
  cases symbols with
  | nil => exact ⟨nofun, nofun, fun moved => absurd rfl moved, nofun, Nat.zero_le 1, fun _ => rfl, fun _ => rfl⟩
  | cons symbol rest =>
      exact ⟨nofun, nofun, fun moved => absurd rfl moved, nofun, Nat.zero_le 1, fun _ => rfl, fun _ => rfl⟩

section Guarded

variable {state after : State} (guarded : Guarded state)
include guarded

theorem Guarded.stopper_outside (other : state.mtx ≠ some .stopper) : ¬ state.stopper.owns :=
  fun owns => other (guarded.stopper owns)

theorem Guarded.updater_outside (other : state.mtx ≠ some .updater) : ¬ state.updater.owns :=
  fun owns => other (guarded.updater owns)

theorem guarded_updaterRan (ran : UpdaterRan symbols waitDuration state after) : Guarded after := by
  have ⟨ownUpdater, ownStopper, flag, notified, rounds, unstopped, beginning⟩ := guarded
  cases ran with
  | goesOn here unset =>
      exact ⟨nofun, ownStopper, flag, fun _ => rfl, rounds, unstopped, fun _ => unstopped unset⟩
  | begins symbol rest here configured =>
      have fresh := beginning here
      refine ⟨nofun, ownStopper, flag, fun _ => rfl, ?_, fun unset => ?_, nofun⟩
      · show state.begunAfterStop + state.stopFlag.toNat ≤ 1
        rw [fresh, Nat.zero_add]
        exact Bool.toNat_le _
      · have unset : state.stopFlag = false := unset
        show state.begunAfterStop + state.stopFlag.toNat = 0
        rw [fresh, unset, Bool.toNat_false]
  | leaves | fetches | finishes => exact ⟨nofun, ownStopper, flag, fun _ => rfl, rounds, unstopped, nofun⟩
  | locks here free | timesOut deadline here free | checksAgain deadline here free =>
      have outside := guarded.stopper_outside (by rw [free]; decide)
      exact ⟨fun _ => rfl, fun owns => absurd owns outside, flag, fun _ => rfl, rounds, unstopped, nofun⟩
  | stops deadline here isSet =>
      have owned : state.mtx = some .updater := ownUpdater (by rw [here]; rfl)
      exact ⟨fun _ => owned, ownStopper, flag, fun _ => rfl, rounds, unstopped, nofun⟩
  | waits deadline here unset =>
      have owned : state.mtx = some .updater := ownUpdater (by rw [here]; rfl)
      refine ⟨fun _ => owned, ownStopper, flag, fun issued => ?_, rounds, unstopped, nofun⟩
      -- the flag has been stored before the notification
      have moved : state.stopper ≠ .storing := by
        intro same
        rw [same] at issued
        cases issued
      rw [flag moved] at unset
      cases unset
  | blocks deadline here =>
      have owned : state.mtx = some .updater := ownUpdater (by rw [here]; rfl)
      have outside := guarded.stopper_outside (by rw [owned]; decide)
      refine ⟨nofun, fun owns => absurd owns outside, flag, fun issued => ?_, rounds, unstopped, nofun⟩
      have quiet := notified issued
      rw [here] at quiet
      cases quiet
  | unlocks here =>
      have owned : state.mtx = some .updater := ownUpdater (by rw [here]; rfl)
      have outside := guarded.stopper_outside (by rw [owned]; decide)
      exact ⟨nofun, fun owns => absurd owns outside, flag, fun _ => rfl, rounds, unstopped, nofun⟩

/-- A wait that ends takes no mutex. -/
theorem guarded_wake (timedOut : Bool) : Guarded (state.wake timedOut) := by
  obtain ⟨updater, stopper, stopFlag, mtx, now, roundEnd, begun⟩ := state
  cases updater with
  | blocked deadline =>
      exact ⟨nofun, guarded.stopper, guarded.flag, fun _ => rfl, guarded.rounds, guarded.unstopped, nofun⟩
  | _ => exact guarded

/-- The stopping thread notifies under the mutex, so that no wait is beginning. -/
theorem Guarded.woken_waits (here : state.stopper = .notifying) : (state.wake false).updater.waits = false := by
  have owned : state.mtx = some .stopper := guarded.stopper (by rw [here]; rfl)
  have outside := guarded.updater_outside (by rw [owned]; decide)
  unfold State.wake
  cases phase : state.updater with
  | blocking deadline =>
      rw [phase] at outside
      exact absurd rfl outside
  | blocked deadline => rfl
  | testing | beginning | fetching | locking | checking | relocking | unlocking | left =>
      show state.updater.waits = false
      rw [phase]
      rfl

theorem guarded_stopperRan (ran : StopperRan state after) : Guarded after := by
  have ⟨ownUpdater, ownStopper, flag, notified, rounds, unstopped, beginning⟩ := guarded
  cases ran with
  | stores here => exact ⟨ownUpdater, nofun, fun _ => rfl, nofun, rounds, nofun, beginning⟩
  | locks here free =>
      have outside := guarded.updater_outside (by rw [free]; decide)
      exact ⟨fun owns => absurd owns outside, fun _ => rfl, fun _ => flag (by rw [here]; decide), nofun, rounds,
        unstopped, beginning⟩
  | notifies here =>
      have woken := guarded_wake guarded false
      have quiet := guarded.woken_waits here
      have owned : (state.wake false).mtx = some .stopper := by
        rw [State.wake_mtx]
        exact ownStopper (by rw [here]; rfl)
      have isSet : (state.wake false).stopFlag = true := by
        rw [State.wake_stopFlag]
        exact flag (by rw [here]; decide)
      exact ⟨woken.updater, fun _ => owned, fun _ => isSet, fun _ => quiet, woken.rounds, woken.unstopped,
        woken.beginning⟩
  | unlocks here =>
      have owned : state.mtx = some .stopper := ownStopper (by rw [here]; rfl)
      have outside := guarded.updater_outside (by rw [owned]; decide)
      exact ⟨fun owns => absurd owns outside, nofun, fun _ => flag (by rw [here]; decide),
        fun _ => notified (by rw [here]; rfl), rounds, unstopped, beginning⟩
  | joins here left =>
      exact ⟨ownUpdater, nofun, fun _ => flag (by rw [here]; decide), fun _ => notified (by rw [here]; rfl), rounds,
        unstopped, beginning⟩

end Guarded

theorem guarded_next (state : State) (event : Event) (guarded : Guarded state) :
    Guarded (state.next symbols waitDuration event) := by
  rcases next_cases symbols waitDuration state event with same | step
  · rw [same]
    exact guarded
  · generalize state.next symbols waitDuration event = after at step
    cases step with
    | updater ran => exact guarded_updaterRan symbols waitDuration guarded ran
    | stopper ran => exact guarded_stopperRan guarded ran
    | later elapsed =>
        exact ⟨guarded.updater, guarded.stopper, guarded.flag, guarded.notified, guarded.rounds, guarded.unstopped,
          guarded.beginning⟩
    | wakes timedOut due => exact guarded_wake guarded timedOut

/-- A thread that waits has not yet been notified. -/
theorem noLostStop_of_guarded {state : State} (guarded : Guarded state) : NoLostStop state := by
  refine ⟨fun lost => ?_, guarded.rounds⟩
  obtain ⟨issued, deadline, blocked⟩ := lost
  have quiet := guarded.notified issued
  rw [blocked] at quiet
  cases quiet

/-- In every interleaving and for every duration of the wait no stop is lost. -/
theorem noLostStop_run (events : List Event) :
    StatesHold (State.next symbols waitDuration) NoLostStop (State.initial symbols) events := by
  rw [statesHold_iff_prefixes]
  intro first _
  exact noLostStop_of_guarded
    (play_invariant (guarded_next symbols waitDuration) (State.initial symbols) first (guarded_initial symbols))

/-- The last round ended a while ago, or a stop has been requested. -/
def Rested (period : Nat) (state : State) : Prop :=
  ∀ ended, state.roundEnd = some ended → ended + period ≤ state.now ∨ state.stopFlag = true

/-- A round begins only after a rest. -/
def Paced (period : Nat) (state : State) (event : Event) : Prop :=
  event = .updaterRuns → state.updater = .beginning → Rested period state

/-- The deadline comes a whole wait after the end of the last round. -/
def Due (state : State) (deadline : Nat) : Prop :=
  ∀ ended, state.roundEnd = some ended → ended + waitDuration ≤ deadline

/-- What is known of the end of the last round at each point. -/
def Timed (state : State) : Prop :=
  match state.updater with
  | .testing | .beginning | .unlocking => Rested waitDuration state
  | .fetching _ _ | .left => True
  | .locking => ∀ ended, state.roundEnd = some ended → ended ≤ state.now
  | .checking deadline | .blocking deadline | .blocked deadline => Due waitDuration state deadline
  | .relocking deadline timedOut => Due waitDuration state deadline ∧ (timedOut = true → deadline ≤ state.now)

theorem timed_initial : Timed waitDuration (State.initial symbols) := by
  cases symbols with
  | nil => trivial
  | cons symbol rest => exact nofun

theorem timed_updaterRan {state after : State} (timed : Timed waitDuration state)
    (ran : UpdaterRan symbols waitDuration state after) : Timed waitDuration after := by
  unfold Timed at timed
  cases ran with
  | goesOn here unset =>
      rw [here] at timed
      exact timed
  | leaves | begins | fetches => trivial
  | finishes symbol here =>
      intro ended same
      cases same
      exact le_rfl
  | locks here free =>
      rw [here] at timed
      exact fun ended same => Nat.add_le_add_right (timed ended same) waitDuration
  | waits deadline here unset =>
      rw [here] at timed
      exact timed
  | stops deadline here isSet => exact fun _ _ => .inr isSet
  | blocks deadline here =>
      rw [here] at timed
      exact timed
  | checksAgain deadline here free =>
      rw [here] at timed
      exact timed.1
  | timesOut deadline here free =>
      rw [here] at timed
      exact fun ended same => .inl ((timed.1 ended same).trans (timed.2 rfl))
  | unlocks here =>
      rw [here] at timed
      exact timed

/-- A wait ends by a timeout only after its deadline. -/
theorem timed_wake {state : State} (timed : Timed waitDuration state) (timedOut : Bool)
    (due : timedOut = true → ∀ deadline, state.updater = .blocked deadline → deadline ≤ state.now) :
    Timed waitDuration (state.wake timedOut) := by
  obtain ⟨updater, stopper, stopFlag, mtx, now, roundEnd, begun⟩ := state
  cases updater with
  | blocked deadline => exact ⟨timed, fun out => due out deadline rfl⟩
  | _ => exact timed

/-- More time, a stop and the mutex do not take a rest away. -/
theorem timed_later {state after : State} (timed : Timed waitDuration state) (updater : after.updater = state.updater)
    (roundEnd : after.roundEnd = state.roundEnd) (now : state.now ≤ after.now)
    (flag : state.stopFlag = true → after.stopFlag = true) : Timed waitDuration after := by
  have rested (before : Rested waitDuration state) : Rested waitDuration after := by
    intro ended same
    rcases before ended (roundEnd ▸ same) with waited | stopped
    · exact .inl (waited.trans now)
    · exact .inr (flag stopped)
  have due {deadline : Nat} (before : Due waitDuration state deadline) : Due waitDuration after deadline :=
    fun ended same => before ended (roundEnd ▸ same)
  unfold Timed at timed ⊢
  rw [updater]
  cases phase : state.updater with
  | testing | beginning | unlocking =>
      rw [phase] at timed
      exact rested timed
  | fetching | left => trivial
  | locking =>
      rw [phase] at timed
      exact fun ended same => (timed ended (roundEnd ▸ same)).trans now
  | checking | blocking | blocked =>
      rw [phase] at timed
      exact due timed
  | relocking =>
      rw [phase] at timed
      exact ⟨due timed.1, fun out => (timed.2 out).trans now⟩

theorem timed_stopperRan {state after : State} (timed : Timed waitDuration state) (ran : StopperRan state after) :
    Timed waitDuration after := by
  cases ran with
  | stores here => exact timed_later waitDuration timed rfl rfl le_rfl fun _ => rfl
  | notifies here =>
      exact timed_later waitDuration (timed_wake waitDuration timed false nofun) rfl rfl le_rfl id
  | locks | unlocks | joins => exact timed_later waitDuration timed rfl rfl le_rfl id

theorem timed_next (state : State) (event : Event) (timed : Timed waitDuration state) :
    Timed waitDuration (state.next symbols waitDuration event) := by
  rcases next_cases symbols waitDuration state event with same | step
  · rw [same]
    exact timed
  · generalize state.next symbols waitDuration event = after at step
    cases step with
    | updater ran => exact timed_updaterRan symbols waitDuration timed ran
    | stopper ran => exact timed_stopperRan waitDuration timed ran
    | later elapsed => exact timed_later waitDuration timed rfl rfl (Nat.le_add_right _ _) id
    | wakes timedOut due => exact timed_wake waitDuration timed timedOut due

/-- A period that fits into the wait is kept in every run. -/
theorem paced_of_le {period : Nat} (fits : period ≤ waitDuration) (events : List Event) :
    StepsMeet (State.next symbols waitDuration) (Paced period) (State.initial symbols) events := by
  have start := timed_initial symbols waitDuration
  generalize State.initial symbols = state at start ⊢
  induction events generalizing state with
  | nil => trivial
  | cons event rest ih =>
      refine ⟨fun _ beginning ended same => ?_, ih _ (timed_next symbols waitDuration state event start)⟩
      unfold Timed at start
      rw [beginning] at start
      rcases start ended same with waited | stopped
      · exact .inl ((Nat.add_le_add_left fits ended).trans waited)
      · exact .inr stopped

/-- The events of a round and of its wait, when nobody stops the thread and the wait times out at once. -/
def promptRound (symbols : List String) : List Event :=
  .updaterRuns :: .updaterRuns :: symbols.map (fun _ => .updaterRuns) ++
    [.updaterRuns, .updaterRuns, .updaterRuns, .timePasses waitDuration, .waitTimesOut, .updaterRuns,
      .updaterRuns, .updaterRuns]

/-- The symbols are fetched in turn. -/
theorem play_fetching (symbol : String) (rest : List String) (state : State)
    (fetching : state.updater = .fetching symbol rest) :
    play (State.next symbols waitDuration) state ((symbol :: rest).map fun _ => .updaterRuns) =
      { state with updater := .locking, roundEnd := some state.now } := by
  induction rest generalizing symbol state with
  | nil =>
      change state.next symbols waitDuration .updaterRuns = _
      simp only [State.next, State.step, State.updaterRuns, fetching, Option.getD_some]
  | cons next rest ih =>
      have first : state.next symbols waitDuration .updaterRuns = { state with updater := .fetching next rest } := by
        simp only [State.next, State.step, State.updaterRuns, fetching, Option.getD_some]
      rw [List.map_cons, play_cons, first, ih next { state with updater := .fetching next rest } rfl]

/-- The thread that nobody stops waits for the whole duration and then tests the flag. -/
theorem play_waiting :
    play (State.next symbols waitDuration) { updater := .locking, roundEnd := some 0 }
        [.updaterRuns, .updaterRuns, .updaterRuns, .timePasses waitDuration, .waitTimesOut, .updaterRuns,
          .updaterRuns, .updaterRuns] =
      { updater := .beginning, now := waitDuration, roundEnd := some 0 } := by
  have blocked : play (State.next symbols waitDuration) { updater := .locking, roundEnd := some 0 }
      [.updaterRuns, .updaterRuns, .updaterRuns, .timePasses waitDuration] =
      { updater := .blocked (0 + waitDuration), now := 0 + waitDuration, roundEnd := some 0 } := rfl
  have timedOut : State.next symbols waitDuration
      { updater := .blocked (0 + waitDuration), now := 0 + waitDuration, roundEnd := some 0 } .waitTimesOut =
      { updater := .relocking (0 + waitDuration) true, now := 0 + waitDuration, roundEnd := some 0 } := by
    simp [State.next, State.step, State.wake]
  have leaves : play (State.next symbols waitDuration)
      { updater := .relocking waitDuration true, now := waitDuration, roundEnd := some 0 }
      [.updaterRuns, .updaterRuns, .updaterRuns] =
      { updater := .beginning, now := waitDuration, roundEnd := some 0 } := rfl
  rw [Nat.zero_add] at blocked timedOut
  simp only [play_cons] at blocked ⊢
  simp only [play, List.foldl_nil] at blocked
  rw [blocked, timedOut]
  exact leaves

/-- After a prompt round the next one begins when just the wait has passed. -/
theorem play_promptRound (symbol : String) (rest : List String) :
    play (State.next (symbol :: rest) waitDuration) (State.initial (symbol :: rest))
        (promptRound waitDuration (symbol :: rest)) =
      { updater := .beginning, now := waitDuration, roundEnd := some 0 } := by
  have begun : State.next (symbol :: rest) waitDuration
      (State.next (symbol :: rest) waitDuration (State.initial (symbol :: rest)) .updaterRuns) .updaterRuns =
      { updater := .fetching symbol rest } := rfl
  have fetched : play (State.next (symbol :: rest) waitDuration) (State.initial (symbol :: rest))
      (.updaterRuns :: .updaterRuns :: (symbol :: rest).map fun _ => .updaterRuns) =
      { updater := .locking, roundEnd := some 0 } := by
    rw [play_cons, play_cons, begun]
    exact play_fetching (symbol :: rest) waitDuration symbol rest { updater := .fetching symbol rest } rfl
  rw [promptRound, play_append, fetched]
  exact play_waiting (symbol :: rest) waitDuration

/-- All runs keep a period exactly when it fits into the wait. -/
theorem paced_iff (some_ : symbols ≠ []) (period : Nat) :
    (∀ events, StepsMeet (State.next symbols waitDuration) (Paced period) (State.initial symbols) events) ↔
      period ≤ waitDuration := by
  constructor
  · intro paced
    obtain ⟨symbol, rest, rfl⟩ := List.exists_cons_of_ne_nil some_
    have meets := paced (promptRound waitDuration (symbol :: rest) ++ [.updaterRuns])
    rw [stepsMeet_append, play_promptRound] at meets
    rcases meets.2.1 rfl rfl 0 rfl with waited | stopped
    · rw [Nat.zero_add] at waited
      exact waited
    · cases stopped
  · intro fits events
    exact paced_of_le symbols waitDuration fits events

/-- Whatever positive timeout and symbols are configured, the rounds are not kept apart by it. -/
theorem updateRounds_notPaced (updateTimeout : Nat) (positive : 0 < updateTimeout) (some_ : symbols ≠ []) :
    ¬ ∀ events, StepsMeet (State.next symbols (UpdateThread.waitDuration updateTimeout))
      (Paced (seconds updateTimeout)) (State.initial symbols) events := by
  rw [paced_iff symbols _ some_]
  unfold UpdateThread.waitDuration seconds
  omega

theorem updateRounds_notPaced_example :
    ¬ ∀ events, StepsMeet (State.next ["aapl", "fb"] (UpdateThread.waitDuration 3))
      (Paced (seconds 3)) (State.initial ["aapl", "fb"]) events :=
  updateRounds_notPaced ["aapl", "fb"] 3 (by decide) (by decide)

/-- With the settings of a new installation the second round begins without any rest. -/
theorem second_round_at_once :
    ¬ StepsMeet (State.next ["aapl", "fb"] (UpdateThread.waitDuration 3)) (Paced (seconds 3))
      (State.initial ["aapl", "fb"]) (promptRound 0 ["aapl", "fb"] ++ [.updaterRuns]) := by
  intro paced
  rw [stepsMeet_append] at paced
  rcases paced.2.1 rfl rfl 0 rfl with waited | stopped
  · exact absurd waited (by decide)
  · exact absurd stopped (by decide)

end Peakwork.UpdateThread
