/-
This file decides when the running servers are the ones that were started and not stopped.
-/

import Peakwork.Construction.Rpc.RPCService
import Peakwork.Library.Run

namespace Peakwork.Rpc

variable {Handler : Type}

inductive Call (Handler : Type) where
  | start (handler : Handler) (boundBusy : Bool)
  | stop
  deriving DecidableEq, Repr

def Call.isStart : Call Handler → Bool
  | .start _ _ => true
  | .stop => false

def RPCService.call (service : RPCService Handler) : Call Handler → RPCService Handler
  | .start handler boundBusy => service.start handler boundBusy
  | .stop => service.stop

/-- What the service is for: one handler is served from its start to the next stop. -/
def served : Option Handler → Call Handler → Option Handler
  | none, .start handler _ => some handler
  | some handler, .start _ _ => some handler
  | _, .stop => none

/-- The service runs beside what it should serve. -/
def advance (state : RPCService Handler × Option Handler) (call : Call Handler) :
    RPCService Handler × Option Handler :=
  (state.1.call call, served state.2 call)

/-- Exactly the served handler has a running server, and the service knows that it is started. -/
def ServesOnly (state : RPCService Handler × Option Handler) : Prop :=
  state.1.running = state.2.toList ∧ state.1.isStarted = state.2.isSome

/-- Without a start the service has no pointer to an object. -/
def Tidy (state : RPCService Handler × Option Handler) : Prop :=
  state.1.isStarted = false → state.1.grpcServer = none

theorem modify_last {α : Type} (items : List α) (last : α) (change : α → α) :
    (items ++ [last]).modify items.length change = items ++ [change last] := by
  induction items with
  | nil => rfl
  | cons item rest ih => simp [ih]

theorem RPCService.start_started (service : RPCService Handler) (handler : Handler) (boundBusy : Bool)
    (started : service.isStarted = true) : service.start handler boundBusy = service := by
  simp [start, started]

/-- An idle service puts one new object on the heap. -/
theorem RPCService.start_idle (service : RPCService Handler) (handler : Handler) (boundBusy : Bool)
    (idle : service.isStarted = false) (noPointer : service.grpcServer = none) :
    service.start handler boundBusy =
      { userHandler := some handler, grpcServer := some service.heap.length, isStarted := true,
        heap := service.heap ++ [some ⟨handler, service.running.isEmpty || boundBusy⟩] } := by
  have same : ({ service with userHandler := some handler } : RPCService Handler).reset
      { handler := handler } =
      ⟨some handler, some service.heap.length, service.isStarted,
        service.heap ++ [some { handler := handler }]⟩ := by
    simp [reset, noPointer]
  have running : (RPCService.mk (some handler) (some service.heap.length) service.isStarted
      (service.heap ++ [some { handler := handler }])).running = service.running := by
    simp [RPCService.running]
  simp only [start, startServer, same, running]
  rw [modify_last]
  simp [idle, PeakworkServiceImpl.start]

theorem tidy_advance (state : RPCService Handler × Option Handler) (call : Call Handler)
    (tidy : Tidy state) : Tidy (advance state call) := by
  cases call with
  | stop => exact fun _ => rfl
  | start handler boundBusy =>
      intro idle
      by_cases started : state.1.isStarted = true
      · have same := state.1.start_started handler boundBusy started
        simp only [advance, RPCService.call, same] at idle
        rw [started] at idle
        cases idle
      · have before : state.1.isStarted = false := by simpa using started
        have made := state.1.start_idle handler boundBusy before (tidy before)
        simp only [advance, RPCService.call, made] at idle
        cases idle

/-- One call keeps the service right unless it is a stop of a started service. -/
theorem servesOnly_advance_iff (state : RPCService Handler × Option Handler) (call : Call Handler)
    (tidy : Tidy state) (right : ServesOnly state) :
    ServesOnly (advance state call) ↔ (state.1.isStarted = true → call ≠ .stop) := by
  obtain ⟨service, expected⟩ := state
  obtain ⟨running, flag⟩ := right
  simp only at running flag
  cases call with
  | stop =>
      -- the heap keeps the server that the pointer has given up
      simp only [ServesOnly, advance, RPCService.call, RPCService.stop]
      have kept : (RPCService.mk none none false service.heap).running = service.running := rfl
      rw [kept, running]
      cases expected <;> simp [served, flag]
  | start handler boundBusy =>
      cases expected with
      | none =>
          have idle : service.isStarted = false := flag
          have nothing : service.heap.filterMap (fun place => place.bind fun object =>
              if object.server then some object.handler else none) = [] := running
          simp only [ServesOnly, advance, RPCService.call, served,
            service.start_idle handler boundBusy idle (tidy idle)]
          simp [RPCService.running, nothing]
      | some current =>
          simp only [ServesOnly, advance, RPCService.call, served,
            service.start_started handler boundBusy flag]
          simp [running, flag]

/-- No stop comes after a start. -/
def NeverStopped (calls : List (Call Handler)) : Prop :=
  calls.Pairwise fun first second => first.isStart = true → second ≠ .stop

/-- A started service stays started until a stop. -/
theorem stepsMeet_iff (state : RPCService Handler × Option Handler) (calls : List (Call Handler))
    (tidy : Tidy state) :
    StepsMeet advance (fun state call => state.1.isStarted = true → call ≠ .stop) state calls ↔
      (state.1.isStarted = true → ∀ call ∈ calls, call ≠ .stop) ∧ NeverStopped calls := by
  induction calls generalizing state with
  | nil => simp [StepsMeet, NeverStopped]
  | cons call rest ih =>
      have next := ih (advance state call) (tidy_advance state call tidy)
      rw [StepsMeet, next, NeverStopped, NeverStopped, List.pairwise_cons]
      by_cases started : state.1.isStarted = true
      · cases call with
        | stop => simp [started]
        | start handler boundBusy =>
            have same : (advance state (.start handler boundBusy)).1.isStarted = true := by
              simp [advance, RPCService.call, state.1.start_started handler boundBusy started, started]
            simp only [same, started, true_implies, Call.isStart, List.forall_mem_cons]
            tauto
      · have idle : state.1.isStarted = false := by simpa using started
        cases call with
        | stop => simp [advance, RPCService.call, RPCService.stop, idle, Call.isStart]
        | start handler boundBusy =>
            have now : (advance state (.start handler boundBusy)).1.isStarted = true := by
              simp [advance, RPCService.call, state.1.start_idle handler boundBusy idle (tidy idle)]
            simp only [now, idle, true_implies, Call.isStart]
            simp

/-- In all states of a run exactly the served handler is served if and only if no started service is
stopped. -/
theorem servesOnly_run_iff (calls : List (Call Handler)) :
    StatesHold advance ServesOnly (({} : RPCService Handler), none) calls ↔ NeverStopped calls := by
  have tidy : Tidy (({} : RPCService Handler), none) := fun _ => rfl
  rw [statesHold_iff_stepsMeet tidy_advance servesOnly_advance_iff _ calls tidy ⟨rfl, rfl⟩,
    stepsMeet_iff _ calls tidy]
  simp

/-- The server of a stopped service still runs. -/
theorem stop_leaves_server : ¬ StatesHold advance ServesOnly (({} : RPCService Nat), none)
    [.start 1 false, .stop] := by
  rintro ⟨_, _, running, _⟩
  exact absurd running (by decide)

end Peakwork.Rpc
