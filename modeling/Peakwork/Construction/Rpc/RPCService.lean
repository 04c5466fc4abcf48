/-
This file gives the start and the stop of the gRPC server.
-/

import Mathlib.Tactic

namespace Peakwork.Rpc

variable {Handler : Type}

/-- `server` says whether the object holds a running gRPC server. -/
structure PeakworkServiceImpl (Handler : Type) where
  handler : Handler
  server : Bool := false
  deriving DecidableEq, Repr

namespace PeakworkServiceImpl

/-- `bound` says whether the server could be built on its port. -/
def start (service : PeakworkServiceImpl Handler) (bound : Bool) : PeakworkServiceImpl Handler :=
  { service with server := bound }

def stop (service : PeakworkServiceImpl Handler) : PeakworkServiceImpl Handler :=
  if service.server then { service with server := false } else service

end PeakworkServiceImpl

/-- The objects live on the heap at their places; a deleted object leaves its place empty. -/
structure RPCService (Handler : Type) where
  userHandler : Option Handler := none
  grpcServer : Option Nat := none
  isStarted : Bool := false
  heap : List (Option (PeakworkServiceImpl Handler)) := []
  deriving Repr

namespace RPCService

variable (service : RPCService Handler)

/-- The handlers that running servers can call. -/
def running : List Handler :=
  service.heap.filterMap fun place => place.bind fun object =>
    if object.server then some object.handler else none

/-- A deleted object stops its server first, and its memory is gone. -/
def delete (heap : List (Option (PeakworkServiceImpl Handler))) (place : Nat) :
    List (Option (PeakworkServiceImpl Handler)) :=
  (heap.modify place (Option.map PeakworkServiceImpl.stop)).set place none

/-- The pointer takes the new object and deletes the object that it had. -/
def reset (object : PeakworkServiceImpl Handler) : RPCService Handler :=
  { service with
    grpcServer := some service.heap.length
    heap := (match service.grpcServer with
      | some place => delete service.heap place
      | none => service.heap) ++ [some object] }

/-- A server on a free port runs; `boundBusy` says what happens on a busy one. -/
def startServer (boundBusy : Bool) : RPCService Handler :=
  { service with
    heap := match service.grpcServer with
      | some place => service.heap.modify place
          (Option.map fun object => object.start (service.running.isEmpty || boundBusy))
      | none => service.heap }

def start (peakworkServiceHandler : Handler) (boundBusy : Bool) : RPCService Handler :=
  if service.isStarted then service else
    let service := { service with userHandler := some peakworkServiceHandler }
    let service := service.reset { handler := peakworkServiceHandler }
    let service := service.startServer boundBusy
    { service with isStarted := true }

/-- The pointer gives its object up and does not delete it. -/
def stop : RPCService Handler :=
  { service with grpcServer := none, userHandler := none, isStarted := false }

end RPCService

end Peakwork.Rpc
