/-
This file proves that a stop comes to its end.
-/

import Peakwork.Library.Fairness
import Peakwork.Proof.UpdateThread

namespace Peakwork.UpdateThread

/-- How many actions can come before the updating thread has left, once the flag is stored. -/
def Point.rank (symbols : List String) : Point → Nat
  | .testing => 1
  | .beginning => 5 + symbols.length
  | .fetching _ rest => 5 + rest.length
  | .locking => 4
  | .checking _ => 3
  | .blocking _ => 6
  | .blocked _ => 5
  | .relocking _ _ => 4
  | .unlocking => 2
  | .left => 0

def StopPoint.rank : StopPoint → Nat
  | .storing => 5
  | .locking => 4
  | .notifying => 3
  | .unlocking => 2
  | .joining => 1
  | .joined => 0

def State.rank (symbols : List String) (state : State) : Nat := state.updater.rank symbols + state.stopper.rank

/-- Each owner of the mutex stands where it unlocks it later, and the stop ends after the updating thread. -/
structure Owned (symbols : List String) (state : State) : Prop where
  guarded : Guarded state
  updater : state.mtx = some .updater → state.updater.owns
  stopper : state.mtx = some .stopper → state.stopper.owns
  joined : state.stopper = .joined → state.updater = .left
  configured : symbols = [] → state.updater = .left

variable (symbols : List String) (waitDuration : Nat) {state after : State}

theorem owned_initial : Owned symbols (State.initial symbols) := by
  refine ⟨guarded_initial symbols, ?_, ?_, ?_, ?_⟩
  · intro absurd_
    cases absurd_
  · intro absurd_
    cases absurd_
  · intro absurd_
    cases absurd_
  · rintro rfl
    rfl

section Steps

variable {symbols waitDuration}

theorem UpdaterRan.not_left (ran : UpdaterRan symbols waitDuration state after) : state.updater ≠ .left := by
  cases ran with
  | goesOn here | leaves here | begins _ _ here | fetches _ _ _ here | finishes _ here | locks here | waits _ here
  | stops _ here | blocks _ here | checksAgain _ here | timesOut _ here | unlocks here =>
      rw [here]
      exact Point.noConfusion

theorem UpdaterRan.stopper_same (ran : UpdaterRan symbols waitDuration state after) : after.stopper = state.stopper := by
  cases ran <;> rfl

/-- A thread that does not own the mutex has not taken it. -/
theorem Owned.outside (owned : Owned symbols state) (outside : state.updater.owns = false) : state.mtx ≠ some .updater := by
  intro taken
  have owns := owned.updater taken
  rw [outside] at owns
  exact Bool.false_ne_true owns

theorem owned_updaterRan (owned : Owned symbols state) (ran : UpdaterRan symbols waitDuration state after) : Owned symbols after := by
  have kept := guarded_updaterRan symbols waitDuration owned.guarded ran
  have joined (over_ : after.stopper = .joined) : after.updater = .left :=
    absurd (owned.joined (ran.stopper_same ▸ over_)) ran.not_left
  have configured (none_ : symbols = []) : after.updater = .left := absurd (owned.configured none_) ran.not_left
  cases ran with
  | goesOn here | leaves here | begins _ _ here | fetches _ _ _ here | finishes _ here =>
      have outside := owned.outside (by rw [here]; rfl)
      exact ⟨kept, fun taken => absurd taken outside, owned.stopper, joined, configured⟩
  | locks | checksAgain | timesOut =>
      exact ⟨kept, fun _ => rfl, fun taken => absurd (Option.some.inj taken) Owner.noConfusion, joined, configured⟩
  | waits | stops => exact ⟨kept, fun _ => rfl, owned.stopper, joined, configured⟩
  | blocks | unlocks =>
      exact ⟨kept, fun taken => absurd taken.symm (Option.some_ne_none _), fun taken => absurd taken.symm (Option.some_ne_none _),
        joined, configured⟩

theorem wake_left (timedOut : Bool) (left : state.updater = .left) : (state.wake timedOut).updater = .left := by
  rw [State.wake, left]
  exact left

theorem owned_stopperRan (owned : Owned symbols state) (ran : StopperRan state after) : Owned symbols after := by
  have kept := guarded_stopperRan owned.guarded ran
  cases ran with
  | stores here =>
      refine ⟨kept, owned.updater, fun taken => ?_, fun over_ => StopPoint.noConfusion over_, owned.configured⟩
      have owns := owned.stopper taken
      rw [here] at owns
      exact absurd owns Bool.false_ne_true
  | locks here free =>
      exact ⟨kept, fun taken => absurd (Option.some.inj taken) Owner.noConfusion, fun _ => rfl,
        fun over_ => StopPoint.noConfusion over_, owned.configured⟩
  | notifies here =>
      have mine : state.mtx = some .stopper := owned.guarded.stopper (by rw [here]; rfl)
      refine ⟨kept, fun taken => ?_, fun _ => rfl, fun over_ => StopPoint.noConfusion over_, fun none_ => ?_⟩
      · have other : state.mtx = some .updater := (state.wake_mtx false).symm.trans taken
        rw [mine] at other
        exact Owner.noConfusion (Option.some.inj other)
      · exact wake_left false (owned.configured none_)
  | unlocks here =>
      exact ⟨kept, fun taken => absurd taken.symm (Option.some_ne_none _), fun taken => absurd taken.symm (Option.some_ne_none _),
        fun over_ => StopPoint.noConfusion over_, owned.configured⟩
  | joins here left =>
      refine ⟨kept, owned.updater, fun taken => ?_, fun _ => left, owned.configured⟩
      have owns := owned.stopper taken
      rw [here] at owns
      exact absurd owns Bool.false_ne_true

theorem owned_wake (owned : Owned symbols state) (timedOut : Bool) : Owned symbols (state.wake timedOut) := by
  have kept := guarded_wake owned.guarded timedOut
  unfold State.wake at kept ⊢
  split
  · rename_i deadline blocked
    rw [blocked] at kept
    have outside := owned.outside (by rw [blocked]; rfl)
    have running : state.updater ≠ .left := by
      rw [blocked]
      exact Point.noConfusion
    exact ⟨kept, fun taken => absurd taken outside, owned.stopper, fun over_ => absurd (owned.joined over_) running,
      fun none_ => absurd (owned.configured none_) running⟩
  · exact owned

theorem owned_next (owned : Owned symbols state) (event : Event) : Owned symbols (state.next symbols waitDuration event) := by
  rcases next_cases symbols waitDuration state event with same | step
  · rw [same]
    exact owned
  · generalize state.next symbols waitDuration event = after at step
    cases step with
    | updater ran => exact owned_updaterRan owned ran
    | stopper ran => exact owned_stopperRan owned ran
    | later elapsed =>
        have guarded := owned.guarded
        exact ⟨⟨guarded.updater, guarded.stopper, guarded.flag, guarded.notified, guarded.rounds, guarded.unstopped,
          guarded.beginning⟩, owned.updater, owned.stopper, owned.joined, owned.configured⟩
    | wakes timedOut due => exact owned_wake owned timedOut

/-- Once the flag is stored, each action of the updating thread takes it nearer to its end. -/
theorem rank_updaterRan (flagged : state.stopFlag = true) (ran : UpdaterRan symbols waitDuration state after) :
    after.rank symbols < state.rank symbols := by
  unfold State.rank
  cases ran with
  | goesOn here unset | waits deadline here unset =>
      rw [flagged] at unset
      exact absurd unset.symm Bool.false_ne_true
  | begins symbol rest here configured =>
      rw [here, configured]
      show 5 + rest.length + state.stopper.rank < 5 + (rest.length + 1) + state.stopper.rank
      omega
  | leaves here | fetches _ _ _ here | finishes _ here | locks here | stops _ here | blocks _ here | checksAgain _ here
  | timesOut _ here | unlocks here =>
      rw [here]
      simp only [Point.rank, List.length_cons]
      omega

theorem rank_wake (timedOut : Bool) : (state.wake timedOut).rank symbols < state.rank symbols ∨ state.wake timedOut = state := by
  unfold State.wake
  split
  · rename_i deadline blocked
    apply Or.inl
    show Point.rank symbols (.relocking deadline timedOut) + _ < Point.rank symbols state.updater + _
    rw [blocked]
    simp only [Point.rank]
    omega
  · exact Or.inr rfl

theorem rank_stopperRan (ran : StopperRan state after) : after.rank symbols < state.rank symbols := by
  cases ran with
  | notifies here =>
      have woken : (state.wake false).updater.rank symbols ≤ state.updater.rank symbols := by
        unfold State.wake
        split
        · rename_i deadline blocked
          rw [blocked]
          simp only [Point.rank]
          omega
        · exact le_rfl
      unfold State.rank
      rw [here]
      simp only [StopPoint.rank]
      omega
  | stores here | locks here | unlocks here | joins here =>
      unfold State.rank
      rw [here]
      simp only [StopPoint.rank]
      omega

/-- Both threads stand at the same points with the same mutex. -/
structure SamePlaces (state after : State) : Prop where
  updater : after.updater = state.updater
  stopper : after.stopper = state.stopper
  mtx : after.mtx = state.mtx

/-- Without a lower rank nothing but time has gone on. -/
theorem stepped_rank (flagged : state.stopFlag = true) (step : Stepped symbols waitDuration state after) :
    after.rank symbols < state.rank symbols ∨ SamePlaces state after := by
  cases step with
  | updater ran => exact Or.inl (rank_updaterRan flagged ran)
  | stopper ran => exact Or.inl (rank_stopperRan ran)
  | later elapsed => exact Or.inr ⟨rfl, rfl, rfl⟩
  | wakes timedOut due =>
      rcases @rank_wake symbols state timedOut with lower | same
      · exact Or.inl lower
      · rw [same]
        exact Or.inr ⟨rfl, rfl, rfl⟩

theorem next_rank (flagged : state.stopFlag = true) (event : Event) :
    (state.next symbols waitDuration event).rank symbols < state.rank symbols ∨
      SamePlaces state (state.next symbols waitDuration event) := by
  rcases next_cases symbols waitDuration state event with same | step
  · rw [same]
    exact Or.inr ⟨rfl, rfl, rfl⟩
  · exact stepped_rank flagged step

theorem SamePlaces.rank (same : SamePlaces state after) : after.rank symbols = state.rank symbols := by
  rw [State.rank, same.updater, same.stopper]
  rfl

theorem SamePlaces.updaterRuns (same : SamePlaces state after) :
    (after.updaterRuns symbols waitDuration).isSome = (state.updaterRuns symbols waitDuration).isSome := by
  unfold State.updaterRuns
  rw [same.updater, same.mtx]
  cases state.updater with
  | beginning => cases symbols <;> rfl
  | fetching symbol rest => cases rest <;> rfl
  | locking | relocking => cases state.mtx <;> rfl
  | testing | checking | blocking | blocked | unlocking | left => rfl

theorem SamePlaces.stopperRuns (same : SamePlaces state after) : after.stopperRuns.isSome = state.stopperRuns.isSome := by
  unfold State.stopperRuns
  rw [same.stopper, same.mtx, same.updater]
  cases state.stopper with
  | locking => cases state.mtx <;> rfl
  | joining =>
      by_cases left : state.updater = .left
      · simp only [left, if_true, Option.isSome_some]
      · simp only [left, if_false, Option.isSome_none]
  | storing | notifying | unlocking | joined => rfl

/-- A thread can go on. -/
def CanRun (symbols : List String) (waitDuration : Nat) (state : State) (event : Event) : Prop :=
  event = .updaterRuns ∧ (state.updaterRuns symbols waitDuration).isSome = true ∨
    event = .stopperRuns ∧ state.stopperRuns.isSome = true

instance (event : Event) : Decidable (CanRun symbols waitDuration state event) := inferInstanceAs (Decidable (_ ∨ _))

theorem CanRun.same {event : Event} (runs : CanRun symbols waitDuration state event) (same : SamePlaces state after) :
    CanRun symbols waitDuration after event :=
  runs.imp (fun updater => ⟨updater.1, same.updaterRuns.trans updater.2⟩)
    fun stopper => ⟨stopper.1, same.stopperRuns.trans stopper.2⟩

theorem CanRun.lowers (flagged : state.stopFlag = true) {event : Event} (runs : CanRun symbols waitDuration state event) :
    (state.next symbols waitDuration event).rank symbols < state.rank symbols := by
  rcases runs with ⟨rfl, some_⟩ | ⟨rfl, some_⟩
  · obtain ⟨after, run⟩ := Option.isSome_iff_exists.mp some_
    rw [State.next, State.step, run, Option.getD_some]
    exact rank_updaterRan flagged (ran_of_updaterRuns symbols waitDuration run)
  · obtain ⟨after, run⟩ := Option.isSome_iff_exists.mp some_
    rw [State.next, State.step, run, Option.getD_some]
    exact rank_stopperRan (ran_of_stopperRuns run)

/-- While the updating thread is outside of the mutex, only an early join holds the stop up. -/
theorem Owned.stopper_runs (owned : Owned symbols state) (outside : state.updater.owns = false)
    (ready : state.stopper = .joining → state.updater = .left) (running : state.stopper ≠ .joined) :
    state.stopperRuns.isSome = true := by
  unfold State.stopperRuns
  cases point : state.stopper with
  | locking =>
      have free : state.mtx = none := by
        cases taken : state.mtx with
        | none => rfl
        | some owner =>
            cases owner with
            | updater => exact absurd taken (owned.outside outside)
            | stopper =>
                have owns := owned.stopper taken
                rw [point] at owns
                exact absurd owns Bool.false_ne_true
      rw [free]
      rfl
  | joining =>
      have left := ready point
      simp only [left, if_true, Option.isSome_some]
  | joined => exact absurd point running
  | storing | notifying | unlocking => rfl

/-- A thread that waits for the mutex gets it, or its owner goes on. -/
theorem Owned.waiting_runs (owned : Owned symbols state) (outside : state.updater.owns = false) :
    state.mtx = none ∨ state.stopperRuns.isSome = true := by
  cases taken : state.mtx with
  | none => exact Or.inl rfl
  | some owner =>
      apply Or.inr
      cases owner with
      | updater => exact absurd taken (owned.outside outside)
      | stopper =>
          have owns := owned.stopper taken
          unfold State.stopperRuns
          cases point : state.stopper with
          | notifying | unlocking => rfl
          | storing | locking | joining | joined =>
              rw [point] at owns
              exact absurd owns Bool.false_ne_true

/-- No deadlock: until the stop has joined, one of the threads can go on. -/
theorem Owned.canRun (owned : Owned symbols state) (running : state.stopper ≠ .joined) :
    ∃ event, (event = .updaterRuns ∨ event = .stopperRuns) ∧ CanRun symbols waitDuration state event := by
  have updater (runs : (state.updaterRuns symbols waitDuration).isSome = true) :
      ∃ event, (event = .updaterRuns ∨ event = .stopperRuns) ∧ CanRun symbols waitDuration state event :=
    ⟨.updaterRuns, Or.inl rfl, Or.inl ⟨rfl, runs⟩⟩
  have stopper (runs : state.stopperRuns.isSome = true) :
      ∃ event, (event = .updaterRuns ∨ event = .stopperRuns) ∧ CanRun symbols waitDuration state event :=
    ⟨.stopperRuns, Or.inr rfl, Or.inr ⟨rfl, runs⟩⟩
  cases point : state.updater with
  | testing | checking | blocking | unlocking =>
      apply updater
      unfold State.updaterRuns
      rw [point]
      rfl
  | beginning =>
      apply updater
      unfold State.updaterRuns
      rw [point]
      cases symbols with
      | nil => exact absurd ((owned.configured rfl).symm.trans point) Point.noConfusion
      | cons symbol rest => rfl
  | fetching symbol rest =>
      apply updater
      unfold State.updaterRuns
      rw [point]
      cases rest <;> rfl
  | locking | relocking =>
      rcases owned.waiting_runs (by rw [point]; rfl) with free | runs
      · apply updater
        unfold State.updaterRuns
        rw [point, free]
        rfl
      · exact stopper runs
  | blocked deadline =>
      apply stopper
      apply owned.stopper_runs (by rw [point]; rfl) _ running
      intro joining
      have quiet := owned.guarded.notified (by rw [joining]; rfl)
      rw [point] at quiet
      exact absurd quiet.symm Bool.false_ne_true
  | left => exact stopper (owned.stopper_runs (by rw [point]; rfl) (fun _ => point) running)

theorem stepped_flag (flagged : state.stopFlag = true) (step : Stepped symbols waitDuration state after) : after.stopFlag = true := by
  cases step with
  | updater ran => cases ran <;> exact flagged
  | stopper ran =>
      cases ran with
      | stores => rfl
      | notifies => exact (state.wake_stopFlag false).trans flagged
      | locks | unlocks | joins => exact flagged
  | later elapsed => exact flagged
  | wakes timedOut due => exact (state.wake_stopFlag timedOut).trans flagged

theorem next_flag (flagged : state.stopFlag = true) (event : Event) : (state.next symbols waitDuration event).stopFlag = true := by
  rcases next_cases symbols waitDuration state event with same | step
  · rw [same]
    exact flagged
  · exact stepped_flag flagged step

end Steps

/-- The threads bring a stop to its end, whatever the clock and the waits do. -/
theorem stop_progress : Progress (State.next symbols waitDuration) (fun _ _ => True)
    (fun event => event = .updaterRuns ∨ event = .stopperRuns)
    (fun state => Owned symbols state ∧ state.stopFlag = true) (fun state => state.stopper = .joined)
    (State.rank symbols) (CanRun symbols waitDuration) where
  kept := fun _ event always _ => ⟨owned_next always.1 event, next_flag always.2 event⟩
  falls := fun _ event always _ => (next_rank always.2 event).elim Nat.le_of_lt fun same => same.rank.le
  helped := fun _ always running => always.1.canRun running
  stays := fun _ _ other always runs _ same =>
    (next_rank always.2 other).elim (fun lower => absurd same lower.ne) fun places => runs.same places
  drops := fun _ _ always runs _ => runs.lowers always.2

/-- In every schedule that lets both threads go on again and again the stop is called and returns. -/
theorem stop_returns (schedule : Nat → Event) (updater : Recurs schedule .updaterRuns) (stopper : Recurs schedule .stopperRuns) :
    ∃ time, (follow (State.next symbols waitDuration) (State.initial symbols) schedule time).stopper = .joined ∧
      (follow (State.next symbols waitDuration) (State.initial symbols) schedule time).updater = .left := by
  have owned : ∀ time, Owned symbols (follow (State.next symbols waitDuration) (State.initial symbols) schedule time) :=
    follow_invariant (fun _ event owned => owned_next owned event) (owned_initial symbols)
  have stored : ∃ time, (follow (State.next symbols waitDuration) (State.initial symbols) schedule time).stopFlag = true := by
    obtain ⟨time, _, called⟩ := stopper 0
    by_cases early : (follow (State.next symbols waitDuration) (State.initial symbols) schedule time).stopper = .storing
    · refine ⟨time + 1, ?_⟩
      rw [follow, called, State.next, State.step, State.stopperRuns, early]
      rfl
    · exact ⟨time, (owned time).guarded.flag early⟩
  obtain ⟨first, flagged⟩ := stored
  have fair (event : Event) (either : event = .updaterRuns ∨ event = .stopperRuns) :
      Recurs (fun later => schedule (first + later)) event := by
    rcases either with rfl | rfl
    · exact updater.from first
    · exact stopper.from first
  obtain ⟨later, joined⟩ := (stop_progress symbols waitDuration).reaches ⟨owned first, flagged⟩ (fun _ => trivial) fair
  rw [follow_add] at joined
  exact ⟨first + later, joined, (owned _).joined joined⟩

/-- A witness schedule lets the threads go on in turn. -/
theorem stop_returns_example :
    ∃ time, (follow (State.next ["AAPL"] 0) (State.initial ["AAPL"])
        (fun time => if time % 2 = 0 then .updaterRuns else .stopperRuns) time).stopper = .joined ∧
      (follow (State.next ["AAPL"] 0) (State.initial ["AAPL"])
        (fun time => if time % 2 = 0 then .updaterRuns else .stopperRuns) time).updater = .left := by
  apply stop_returns
  · exact fun time => ⟨2 * time, by omega, if_pos (by omega)⟩
  · exact fun time => ⟨2 * time + 1, by omega, if_neg (by omega)⟩

/-- How often one of the threads acts after the flag has been stored. -/
def actionsAfterStop (state : State) : List Event → Nat
  | [] => 0
  | event :: rest => (if state.stopFlag = true ∧ CanRun symbols waitDuration state event then 1 else 0) +
      actionsAfterStop (state.next symbols waitDuration event) rest

/-- The symbols that are left to fetch are fewer than all, and the flag is stored by the stop alone. -/
structure Counted (symbols : List String) (state : State) : Prop where
  fetching : ∀ symbol rest, state.updater = .fetching symbol rest → rest.length < symbols.length
  storing : state.stopper = .storing → state.stopFlag = false

section Counts

variable {symbols waitDuration}

theorem counted_initial : Counted symbols (State.initial symbols) := by
  refine ⟨fun symbol rest fetching => ?_, fun _ => rfl⟩
  cases symbols <;> exact absurd fetching Point.noConfusion

theorem counted_updaterRan (counted : Counted symbols state) (ran : UpdaterRan symbols waitDuration state after) :
    Counted symbols after := by
  cases ran with
  | begins symbol rest here configured =>
      refine ⟨fun _ _ fetching => ?_, counted.storing⟩
      injection fetching with _ same
      rw [← same, configured, List.length_cons]
      exact Nat.lt_succ_self _
  | fetches symbol next rest here =>
      refine ⟨fun _ _ fetching => ?_, counted.storing⟩
      injection fetching with _ same
      have before := counted.fetching symbol (next :: rest) here
      rw [List.length_cons] at before
      rw [← same]
      omega
  | goesOn | leaves | finishes | locks | waits | stops | blocks | checksAgain | timesOut | unlocks =>
      exact ⟨fun _ _ fetching => Point.noConfusion fetching, counted.storing⟩

theorem counted_wake (counted : Counted symbols state) (timedOut : Bool) : Counted symbols (state.wake timedOut) := by
  unfold State.wake
  split
  · exact ⟨fun _ _ fetching => Point.noConfusion fetching, counted.storing⟩
  · exact counted

theorem counted_next (counted : Counted symbols state) (event : Event) : Counted symbols (state.next symbols waitDuration event) := by
  rcases next_cases symbols waitDuration state event with same | step
  · rw [same]
    exact counted
  · generalize state.next symbols waitDuration event = after at step
    cases step with
    | updater ran => exact counted_updaterRan counted ran
    | stopper ran =>
        cases ran with
        | notifies => exact ⟨(counted_wake counted false).fetching, fun storing => StopPoint.noConfusion storing⟩
        | stores | locks | unlocks | joins => exact ⟨counted.fetching, fun storing => StopPoint.noConfusion storing⟩
    | later elapsed => exact ⟨counted.fetching, counted.storing⟩
    | wakes timedOut due => exact counted_wake counted timedOut

theorem Counted.rank_le (counted : Counted symbols state) (owned : Owned symbols state) (flagged : state.stopFlag = true) :
    state.rank symbols ≤ symbols.length + 9 := by
  have stopper : state.stopper.rank ≤ 4 := by
    cases point : state.stopper with
    | storing =>
        have unset := counted.storing point
        rw [flagged] at unset
        exact absurd unset.symm Bool.false_ne_true
    | locking | notifying | unlocking | joining | joined =>
        simp only [StopPoint.rank]
        omega
  have updater : state.updater.rank symbols ≤ symbols.length + 5 := by
    cases symbols with
    | nil =>
        rw [owned.configured rfl]
        exact Nat.zero_le _
    | cons first others =>
        cases point : state.updater with
        | fetching symbol rest =>
            have fewer := counted.fetching symbol rest point
            simp only [Point.rank]
            omega
        | testing | beginning | locking | checking | blocking | blocked | relocking | unlocking | left =>
            simp only [Point.rank, List.length_cons]
            omega
  unfold State.rank
  omega

theorem actions_le_rank (owned : Owned symbols state) (flagged : state.stopFlag = true) (events : List Event) :
    actionsAfterStop symbols waitDuration state events ≤ state.rank symbols := by
  induction events generalizing state with
  | nil => exact Nat.zero_le _
  | cons event rest ih =>
      have later := ih (owned_next owned event) (@next_flag symbols waitDuration _ flagged event)
      rw [actionsAfterStop]
      by_cases runs : CanRun symbols waitDuration state event
      · rw [if_pos ⟨flagged, runs⟩]
        have lower := runs.lowers flagged
        omega
      · rw [if_neg fun both => runs both.2, Nat.zero_add]
        exact later.trans ((stop_progress symbols waitDuration).falls state event ⟨owned, flagged⟩ trivial)

end Counts

/-- In every run the threads act at most so often after the flag has been stored. -/
theorem stop_is_bounded (events : List Event) :
    actionsAfterStop symbols waitDuration (State.initial symbols) events ≤ symbols.length + 9 := by
  have run (state : State) (owned : Owned symbols state) (counted : Counted symbols state) :
      actionsAfterStop symbols waitDuration state events ≤ symbols.length + 9 := by
    induction events generalizing state with
    | nil => exact Nat.zero_le _
    | cons event rest ih =>
        by_cases flagged : state.stopFlag = true
        · exact (actions_le_rank owned flagged _).trans (counted.rank_le owned flagged)
        · rw [actionsAfterStop, if_neg fun both => flagged both.1, Nat.zero_add]
          exact ih _ (owned_next owned event) (counted_next counted event)
  exact run _ (owned_initial symbols) counted_initial

end Peakwork.UpdateThread
