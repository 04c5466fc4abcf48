/-
This file gives the start and the stop of the controller.
-/

import Peakwork.Construction.Rpc.RPCService

namespace Peakwork

open Rpc

/-- The controller is the handler of its service; `joinable` belongs to the thread of the update. -/
structure Controller where
  rpcService : RPCService Unit := {}
  joinable : Bool := false
  stopFlag : Bool := false
  deriving Repr

/-- A start may throw in the service or at the creation of the thread. -/
inductive StartOutcome where
  | succeeds
  | serviceThrows
  | threadThrows
  deriving DecidableEq, Repr

/-- A method returns, throws or ends the process. -/
inductive Ended where
  | returned
  | threw
  | terminated
  deriving DecidableEq, Repr

namespace Controller

variable (controller : Controller)

/-- The service may throw after it has stored its new object. -/
def startService : RPCService Unit :=
  if controller.rpcService.isStarted then controller.rpcService
  else { controller.rpcService with userHandler := some () }.reset { handler := () }

/-- A new thread must not be assigned to one that is joinable. -/
def start (outcome : StartOutcome) : Controller × Ended :=
  let controller := { controller with stopFlag := false }
  match outcome with
  | .serviceThrows => ({ controller with rpcService := controller.startService }, .threw)
  | .threadThrows => ({ controller with rpcService := controller.rpcService.start () true }, .threw)
  | .succeeds =>
      ({ controller with rpcService := controller.rpcService.start () true, joinable := true },
        if controller.joinable then .terminated else .returned)

/-- The join of a thread that is not joinable throws, and then the service is not stopped. -/
def stop : Controller × Ended :=
  let controller := { controller with stopFlag := true }
  if controller.joinable then
    ({ controller with joinable := false, rpcService := controller.rpcService.stop }, .returned)
  else (controller, .threw)

theorem stop_joinable : controller.stop.1.joinable = false := by
  unfold stop
  cases joinable : controller.joinable with
  | true => rfl
  | false => rfl

end Controller

end Peakwork
