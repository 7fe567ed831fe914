import GrpcNode.Lib.Runs
import GrpcNode.NativeCore.Batch
import GrpcNode.NativeCore.ClientCompletion

/-!
# GrpcNode.NativeCore.Addon

The addon as a whole: the wrappers of `call.cc`, `channel.cc` and `server.cc`, with the `start` and
the `bind` of `server.js`, around the completion queue of `completion_queue.cc`.

JavaScript runs outside of `drain_completion_queue`, and inside of the callback that `CompleteTag`
calls. What the core decides is an input: whether it accepts a batch or a request, and which tag
completes next, and how. A pointer is the number of the wrapper that it was created with, or
`NULL`. What the core does with `NULL` is undefined; here it goes on as it does with any pointer.
Arguments of the wrong type are left out, since nothing happens then but an exception.
-/

namespace GrpcNode.NativeCore.Addon

open GrpcNode.Js

/-! ### Data -/

/-- The functions `grpc_server_*` -/
inductive ServerFunction
  | requestCall
  | addHttp2Port
  | start
  | shutdownAndNotify
  | cancelAllCalls
  | destroy
  deriving DecidableEq

/-- The functions `grpc_channel_*` -/
inductive ChannelFunction
  | createCall
  | getTarget
  | checkConnectivityState
  | watchConnectivityState
  | destroy
  deriving DecidableEq

/-- The functions `grpc_call_*` -/
inductive CallFunction
  | startBatch
  | cancel
  | cancelWithStatus
  | unref
  deriving DecidableEq

/-- A call of a function of the core. -/
inductive CoreCall
  | server (function : ServerFunction) (server : Option Nat)
  | channel (function : ChannelFunction) (channel : Option Nat)
  | call (function : CallFunction) (call : Nat)
  deriving DecidableEq

/-- The classes of operations -/
inductive Op
  | batch (op : CoreOp)
  | newCall
  /-- `ServerShutdownOp`, with the pointer that it captures -/
  | serverShutdown (server : Nat)
  /-- `TryShutdownOp`, with the wrapper -/
  | tryShutdown (server : Nat)
  deriving DecidableEq

inductive Callback
  /-- A function that was passed by JavaScript code, with a new number each time. -/
  | user (n : Nat)
  | handleNewCall (server : Nat)
  /-- `ServerShutdownCallback` -/
  | serverShutdown
  deriving DecidableEq

/-- `struct tag` -/
structure Tag where
  callback : Callback
  ops : List Op
  call : Option Nat := none
  deriving DecidableEq

inductive Event
  | core (call : CoreCall)
  /-- `grpc_completion_queue_next` has returned the tag. -/
  | delivered (tag : Tag) (success : Bool)
  | callback (callback : Callback) (err : Option JsError)
  /-- `CompleteTag` has returned. -/
  | completed (tag : Tag)
  | assertFails
  deriving DecidableEq

/-- `Call` -/
structure CallObject where
  /-- `wrapped_call` is not `NULL`. -/
  wrapped : Bool := true
  pendingBatches : Int := 0
  hasFinalOpCompleted : Bool := false

/-- `Channel` -/
structure ChannelObject where
  /-- `wrapped_channel` is not `NULL`. -/
  wrapped : Bool := true

/-- `Server`, of `server.cc` and of `server.js` -/
structure ServerObject where
  /-- `wrapped_server` is not `NULL`. -/
  wrapped : Bool := true
  /-- `this.started` -/
  started : Bool := false
  /-- The wrapper has been collected. -/
  collected : Bool := false

structure State where
  pendingBatches : Int := 0
  /-- `uv_is_active(&prepare)` -/
  prepare : Bool := false
  calls : List CallObject := []
  channels : List ChannelObject := []
  servers : List ServerObject := []
  /-- The tags that the core has accepted and not returned. -/
  tags : List Tag := []
  /-- `drain_completion_queue` is running. -/
  draining : Bool := false
  /-- The tag whose callback is running in `CompleteTag`, with `event.success` -/
  running : Option (Tag × Bool) := none
  /-- The number of functions that JavaScript code has passed. -/
  callbacks : Nat := 0
  trace : List Event := []

inductive Act
  | newChannel
  | close (channel : Nat)
  | getTarget (channel : Nat)
  | getConnectivityState (channel : Nat)
  | watchConnectivityState (channel : Nat)
  | newCall (channel : Nat)
  | startBatch (call : Nat) (batch : Batch) (accepted : Bool)
  | cancel (call : Nat)
  | cancelWithStatus (call : Nat)
  | newServer
  | bind (server : Nat)
  | start (server : Nat) (accepted : Bool)
  /-- Not by way of `start` -/
  | requestCall (server : Nat) (accepted : Bool)
  | tryShutdown (server : Nat)
  | forceShutdown (server : Nat)
  /-- The wrapper is collected. -/
  | collect (server : Nat)
  | drain
  /-- The tag at a position completes, and `handleNewCall`, if it is called, requests a call. -/
  | complete (i : Nat) (success accepted : Bool)
  | callbackReturns
  | drainEnds

/-! ### The parts of a step -/

namespace State

variable (s : State)

def call (i : Nat) : CallObject := s.calls.getD i {}

def channel (i : Nat) : ChannelObject := s.channels.getD i {}

def server (i : Nat) : ServerObject := s.servers.getD i {}

/-- `wrapped_channel` -/
def wrappedChannel (i : Nat) : Option Nat := if (s.channel i).wrapped then some i else none

/-- `wrapped_server` -/
def wrappedServer (i : Nat) : Option Nat := if (s.server i).wrapped then some i else none

/-- The tags that have not been completed by the drain loop. -/
def outstanding : List Tag := s.tags ++ s.running.toList.map Prod.fst

/-- JavaScript code can run. -/
def JsRuns : Prop := s.draining = false ∨ s.running.isSome = true

instance : Decidable s.JsRuns := inferInstanceAs (Decidable (_ ∨ _))

/-- JavaScript code can use the server. -/
def CanUse (i : Nat) : Prop :=
  s.JsRuns ∧ i < s.servers.length ∧ (s.server i).collected = false

instance (i : Nat) : Decidable (s.CanUse i) := inferInstanceAs (Decidable (_ ∧ _))

def record (e : Event) : State := { s with trace := s.trace ++ [e] }

def modifyCall (i : Nat) (f : CallObject → CallObject) : State :=
  { s with calls := s.calls.modify i f }

def modifyChannel (i : Nat) (f : ChannelObject → ChannelObject) : State :=
  { s with channels := s.channels.modify i f }

def modifyServer (i : Nat) (f : ServerObject → ServerObject) : State :=
  { s with servers := s.servers.modify i f }

/-- `new Call(call)` -/
def newCallObject : State := { s with calls := s.calls ++ [{}] }

/-- The core accepts a tag. -/
def addTag (tag : Tag) : State := { s with tags := s.tags ++ [tag] }

/-- A function is passed. -/
def passCallback : State := { s with callbacks := s.callbacks + 1 }

/-- `uv_prepare_start`, after the assertion -/
def startPrepare : State := if s.prepare then s.record .assertFails else { s with prepare := true }

/-- `CompletionQueueNext()` -/
def completionQueueNext : State :=
  let s := if s.pendingBatches = 0 then s.startPrepare else s
  { s with pendingBatches := s.pendingBatches + 1 }

/-! ### `channel.cc` -/

/-- `Channel::Close` -/
def close (i : Nat) : State :=
  match s.wrappedChannel i with
  | some handle =>
      (s.record (.core (.channel .destroy (some handle)))).modifyChannel i
        fun channel => { channel with wrapped := false }
  | none => s

/-- `Channel::GetTarget` -/
def getTarget (i : Nat) : State := s.record (.core (.channel .getTarget (s.wrappedChannel i)))

/-- `Channel::GetConnectivityState` -/
def getConnectivityState (i : Nat) : State :=
  s.record (.core (.channel .checkConnectivityState (s.wrappedChannel i)))

/-- `Channel::WatchConnectivityState` -/
def watchConnectivityState (i : Nat) : State :=
  let s' := s.passCallback.record (.core (.channel .watchConnectivityState (s.wrappedChannel i)))
  (s'.addTag { callback := .user s.callbacks, ops := [] }).completionQueueNext

/-! ### `call.cc` -/

/-- `Call::New` -/
def newCall (channel : Nat) : State :=
  match s.wrappedChannel channel with
  | some handle => (s.record (.core (.channel .createCall (some handle)))).newCallObject
  -- "Call cannot be created from a closed channel"
  | none => s

/-- `Call::StartBatch`, when the operations have been parsed -/
def startOps (i : Nat) (ops : List CoreOp) (accepted : Bool) : State :=
  let s' := s.passCallback.record (.core (.call .startBatch i))
  if accepted then
    let tag := { callback := .user s.callbacks, ops := ops.map .batch, call := some i }
    ((s'.addTag tag).modifyCall i fun call =>
      { call with pendingBatches := call.pendingBatches + 1 }).completionQueueNext
  -- "startBatch failed"
  else s'

/-- `Call::StartBatch` -/
def startBatch (core : Core) (i : Nat) (batch : Batch) (accepted : Bool) : State :=
  if (s.call i).wrapped then
    match NativeCore.startBatch core batch with
    | .ok ops => s.startOps i ops accepted
    | .error _ => s
  else s.passCallback.record (.callback (.user s.callbacks) (some callCompletedError))

/-- `Call::Cancel` and `Call::CancelWithStatus` -/
def cancelWith (function : CallFunction) (i : Nat) : State :=
  if (s.call i).wrapped then s.record (.core (.call function i)) else s

/-- `Call::DestroyCall` -/
def destroyCall (i : Nat) : State :=
  if (s.call i).wrapped then
    (s.record (.core (.call .unref i))).modifyCall i fun call => { call with wrapped := false }
  else s

/-- `Call::CompleteBatch` -/
def completeBatch (i : Nat) (isFinalOp : Bool) : State :=
  let s := s.modifyCall i fun call =>
    { call with
      hasFinalOpCompleted := isFinalOp || call.hasFinalOpCompleted
      pendingBatches := call.pendingBatches - 1 }
  if (s.call i).hasFinalOpCompleted = true ∧ (s.call i).pendingBatches = 0 then s.destroyCall i
  else s

/-! ### `server.cc` and `server.js` -/

/-- `Server::RequestCall` -/
def requestCall (i : Nat) (callback : Callback) (accepted : Bool) : State :=
  let s := s.record (.core (.server .requestCall (s.wrappedServer i)))
  if accepted then (s.addTag { callback, ops := [.newCall] }).completionQueueNext
  -- "requestCall failed"
  else s

/-- `Server.prototype.bind` -/
def bind (i : Nat) : State :=
  if (s.server i).started then s
  else s.record (.core (.server .addHttp2Port (s.wrappedServer i)))

/-- `Server.prototype.start` -/
def start (i : Nat) (accepted : Bool) : State :=
  if (s.server i).started then s
  else
    let s' := s.modifyServer i fun server => { server with started := true }
    (s'.record (.core (.server .start (s.wrappedServer i)))).requestCall i (.handleNewCall i) accepted

/-- `Server::TryShutdown` -/
def tryShutdown (i : Nat) : State :=
  match s.wrappedServer i with
  | some handle =>
      let s' := s.passCallback.record (.core (.server .shutdownAndNotify (some handle)))
      (s'.addTag { callback := .user s.callbacks, ops := [.tryShutdown i] }).completionQueueNext
  -- The server is already shut down.
  | none => s.passCallback.record (.callback (.user s.callbacks) none)

/-- `Server::ShutdownServer` -/
def shutdownServer (i : Nat) : State :=
  match s.wrappedServer i with
  | some handle =>
      let s := s.record (.core (.server .shutdownAndNotify (some handle)))
      let s := s.addTag { callback := .serverShutdown, ops := [.serverShutdown handle] }
      let s := s.record (.core (.server .cancelAllCalls (some handle)))
      s.completionQueueNext.modifyServer i fun server => { server with wrapped := false }
  | none => s

/-- `Server::DestroyWrappedServer` -/
def destroyWrappedServer (i : Nat) : State :=
  match s.wrappedServer i with
  | some handle =>
      (s.record (.core (.server .destroy (some handle)))).modifyServer i
        fun server => { server with wrapped := false }
  | none => s

/-- The destructor of `Server` -/
def collect (i : Nat) : State :=
  (s.modifyServer i fun server => { server with collected := true }).shutdownServer i

/-! ### `CompleteTag` and `drain_completion_queue` -/

/-- `GetNodeValue`, as far as it creates wrappers. A request that has succeeded has a call. -/
def getNodeValue : Op → State
  | .newCall => s.newCallObject
  | .batch _ | .serverShutdown _ | .tryShutdown _ => s

/-- `OnComplete` -/
def onComplete (success : Bool) : Op → State
  | .serverShutdown handle => s.record (.core (.server .destroy (some handle)))
  | .tryShutdown i => if success then s.destroyWrappedServer i else s
  | .batch _ | .newCall => s

/-- The callback is called. `handleNewCall` requests the next call before anything else. -/
def runCallback (callback : Callback) (success accepted : Bool) : State :=
  let s := s.record (.callback callback (if success then none else some (.error batchError)))
  match callback, success with
  | .handleNewCall i, true => s.requestCall i (.handleNewCall i) accepted
  | _, _ => s

/-- `drain_completion_queue` gets a tag, and `CompleteTag` calls its callback. -/
def deliver (i : Nat) (tag : Tag) (success accepted : Bool) : State :=
  let s := { s with tags := s.tags.eraseIdx i, running := some (tag, success) }
  let s := s.record (.delivered tag success)
  let s := if success then tag.ops.foldl getNodeValue s else s
  s.runCallback tag.callback success accepted

end State

/-- `IsFinalOp` -/
def Op.isFinalOp : Op → Bool
  | batch (.sendStatusFromServer _) | batch .recvStatusOnClient => true
  | batch _ | newCall | serverShutdown _ | tryShutdown _ => false

/-- `is_final_op` -/
def Tag.isFinal (tag : Tag) : Bool := tag.ops.any Op.isFinalOp

/-- The tag keeps the wrapper of a server from being collected. -/
def Tag.holds (tag : Tag) (server : Nat) : Bool :=
  tag.callback = .handleNewCall server || tag.ops.any (· = .tryShutdown server)

namespace State

variable (s : State)

/-- The rest of `CompleteTag` -/
def completeTag (tag : Tag) (success : Bool) : State :=
  let s := tag.ops.foldl (fun s op => s.onComplete success op) s
  let s := match tag.call with
    | some i => s.completeBatch i tag.isFinal
    | none => s
  s.record (.completed tag)

/-- The rest of an iteration of `drain_completion_queue` -/
def finishTag : State :=
  let s := { s with running := none, pendingBatches := s.pendingBatches - 1 }
  if s.pendingBatches = 0 then { s with prepare := false } else s

end State

def step (core : Core) (s : State) : Act → Option State
  | .newChannel => Runs.when s.JsRuns { s with channels := s.channels ++ [{}] }
  | .close i => Runs.when (s.JsRuns ∧ i < s.channels.length) (s.close i)
  | .getTarget i => Runs.when (s.JsRuns ∧ i < s.channels.length) (s.getTarget i)
  | .getConnectivityState i =>
      Runs.when (s.JsRuns ∧ i < s.channels.length) (s.getConnectivityState i)
  | .watchConnectivityState i =>
      Runs.when (s.JsRuns ∧ i < s.channels.length) (s.watchConnectivityState i)
  | .newCall i => Runs.when (s.JsRuns ∧ i < s.channels.length) (s.newCall i)
  | .startBatch i batch accepted =>
      Runs.when (s.JsRuns ∧ i < s.calls.length) (s.startBatch core i batch accepted)
  | .cancel i => Runs.when (s.JsRuns ∧ i < s.calls.length) (s.cancelWith .cancel i)
  | .cancelWithStatus i =>
      Runs.when (s.JsRuns ∧ i < s.calls.length) (s.cancelWith .cancelWithStatus i)
  | .newServer => Runs.when s.JsRuns { s with servers := s.servers ++ [{}] }
  | .bind i => Runs.when (s.CanUse i) (s.bind i)
  | .start i accepted => Runs.when (s.CanUse i) (s.start i accepted)
  | .requestCall i accepted =>
      Runs.when (s.CanUse i) (s.passCallback.requestCall i (.user s.callbacks) accepted)
  | .tryShutdown i => Runs.when (s.CanUse i) (s.tryShutdown i)
  | .forceShutdown i => Runs.when (s.CanUse i) (s.shutdownServer i)
  | .collect i =>
      Runs.when ((s.server i).collected = false ∧ i < s.servers.length ∧
        ∀ tag ∈ s.outstanding, tag.holds i = false) (s.collect i)
  | .drain => Runs.when (s.prepare = true ∧ s.draining = false) { s with draining := true }
  | .complete i success accepted =>
      match s.tags[i]? with
      | some tag =>
          Runs.when (s.draining = true ∧ s.running = none) (s.deliver i tag success accepted)
      | none => none
  | .callbackReturns =>
      match s.running with
      | some (tag, success) => some (s.completeTag tag success).finishTag
      | none => none
  | .drainEnds =>
      Runs.when (s.draining = true ∧ s.running = none) { s with draining := false }

end GrpcNode.NativeCore.Addon
