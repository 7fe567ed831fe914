import GrpcNode.JsCore.CallStream

/-!
# GrpcNode.JsCore.CallEvents

A call as its listeners see it.

`client.ts` and `call.ts` do not look into the call stream. They listen to its events and
cancel it, and they rely on what a comment in `handleUnaryResponse` says: the status is
emitted once, an `OK` status comes after `'end'`, and a `cancelWithStatus` before the status
emits its own. `CallView` is a call of which nothing else is known. The `'status'` handlers
run inside of `cancelWithStatus`, also when another handler has called it.
-/

namespace GrpcNode.JsCore

open GrpcNode.Js
open Runs (when)

/-- What a call has emitted. -/
structure CallView where
  /-- The messages of the `'data'` events -/
  received : List Buffer := []
  /-- Whether `'end'` has been emitted -/
  ended : Bool := false
  /-- The status that the call has come to without the listener, as a rule the server's -/
  serverStatus : Option StatusObject := none
  /-- The status of the `'status'` event -/
  status : Option StatusObject := none
  deriving DecidableEq

/-- What happens to a call. -/
inductive CallEvent
  | data (message : Buffer)
  | end
  | status (status : StatusObject)

/-- `ServiceErrorImpl` -/
structure ServiceError where
  message : String
  code : Status
  metadata : Metadata
  deriving DecidableEq

/-- The error that both `'status'` handlers make of a status other than `OK`. -/
def ServiceError.ofStatus (status : StatusObject) : ServiceError :=
  ⟨status.details, status.code, status.metadata⟩

/-- A call and the state of its listener. -/
structure Listened (σ : Type) where
  call : CallView := {}
  listener : σ
  deriving DecidableEq

/-- The handlers of a listener. Those of `'data'` and `'end'` may cancel the call. -/
structure Listeners (σ : Type) where
  onData : Buffer → Listened σ → Listened σ
  onEnd : Listened σ → Listened σ
  onStatus : StatusObject → σ → σ

namespace Listened

variable {σ : Type} (onStatus : StatusObject → σ → σ)

/-- `endCall` -/
def endCall (s : Listened σ) (status : StatusObject) : Listened σ :=
  if s.call.status = none then
    { call := { s.call with status := some status }, listener := onStatus status s.listener }
  else s

/-- `cancelWithStatus` -/
def cancelWithStatus (s : Listened σ) (code : Status) (details : String) : Listened σ :=
  s.endCall onStatus ⟨code, details, Metadata.new⟩

variable {onStatus} {s : Listened σ} {status : StatusObject}

theorem endCall_of_none (h : s.call.status = none) :
    s.endCall onStatus status =
      ⟨{ s.call with status := some status }, onStatus status s.listener⟩ :=
  if_pos h

theorem endCall_of_some {old : StatusObject} (h : s.call.status = some old) :
    s.endCall onStatus status = s :=
  if_neg (by simp [h])

end Listened

/-- One event. Nothing comes after `'end'` but the status, and there is one status at most. -/
def Listeners.step {σ : Type} (handlers : Listeners σ) (s : Listened σ) :
    CallEvent → Option (Listened σ)
  | .data message => when (s.call.ended = false) <|
      handlers.onData message { s with call.received := s.call.received ++ [message] }
  | .end => when (s.call.ended = false) <| handlers.onEnd { s with call.ended := true }
  | .status status => when (s.call.serverStatus = none ∧ (status.code = .ok → s.call.ended)) <|
      Listened.endCall handlers.onStatus { s with call.serverStatus := some status } status

end GrpcNode.JsCore
