import GrpcNode.Js.Utf8
import GrpcNode.Lib.AsyncQueue
import GrpcNode.NativeCore.Timeval

/-!
# GrpcNode.NativeCore.AsyncCallbacks

The two queues from the threads of the core to the thread of Node: the requests for metadata in
`call_credentials.cc`, and the log messages in `node_grpc.cc`.

Both are made the same way. The core's thread pushes an item under a mutex and then calls
`uv_async_send`; the handler on the event loop swaps the queue under the mutex and calls a
JavaScript function for each item. Here a section under the mutex is one step, and so is a send.
The function may make the core push again, on the thread of Node: that is a producer, too.
-/

namespace GrpcNode.NativeCore.AsyncCallbacks

open GrpcNode.Js
open AsyncQueue (State Act)

/-! ### Requests for metadata -/

/-- `plugin_callback_data`. The last two are pointers. -/
structure PluginCallbackData where
  /-- The bytes of a C string. -/
  serviceUrl : Buffer
  cb : Nat
  userData : Nat

/-- What the generator is called with: the service, and an object that holds the pointers. The
third argument is always the same function. -/
structure PluginArguments where
  serviceUrl : String
  cb : Nat
  userData : Nat

/-- The arguments that `SendPluginCallback` makes. -/
def PluginCallbackData.arguments (data : PluginCallbackData) : PluginArguments where
  serviceUrl := fromUtf8 data.serviceUrl
  cb := data.cb
  userData := data.userData

/-- The steps of `plugin_get_metadata` and of `SendPluginCallback` -/
inductive PluginAct
  /-- `plugin_get_metadata`, up to its push, -/
  | pluginGetMetadata (thread : Nat) (serviceUrl : Buffer) (cb userData : Nat)
  /-- and its `uv_async_send`. -/
  | uvAsyncSend (thread : Nat)
  /-- The event loop calls `SendPluginCallback`, -/
  | sendPluginCallback
  /-- which takes the queue over, -/
  | swapPendingCallbacks
  /-- calls the generator for the first of the callbacks that it has, -/
  | callGenerator
  /-- and returns when there is none left. -/
  | leave

def PluginAct.act : PluginAct → Act PluginCallbackData
  | pluginGetMetadata thread serviceUrl cb userData => .push thread { serviceUrl, cb, userData }
  | uvAsyncSend thread => .send thread
  | sendPluginCallback => .start
  | swapPendingCallbacks => .swap
  | callGenerator => .hand
  | leave => .finish

/-- One step of a `plugin_state` -/
def pluginStep (s : State PluginCallbackData) (a : PluginAct) : Option (State PluginCallbackData) :=
  AsyncQueue.step s a.act

/-! ### Log messages -/

/-- `gpr_log_func_args` -/
structure GprLogFuncArgs where
  file : Buffer
  line : Nat
  severity : Nat
  message : Buffer

/-- `log_args` -/
structure LogArgs where
  coreArgs : GprLogFuncArgs
  timestamp : Timespec

/-- What the logger is called with. -/
structure LogArguments where
  file : String
  line : Nat
  severity : String
  message : String
  timestamp : JsNumber

/-- The arguments that `LogMessagesCallback` makes. `severityString` is
`gpr_log_severity_string`. -/
def LogArgs.arguments (core : TimeCore) (severityString : Nat → String) (args : LogArgs) :
    LogArguments where
  file := fromUtf8 args.coreArgs.file
  line := args.coreArgs.line
  severity := severityString args.coreArgs.severity
  message := fromUtf8 args.coreArgs.message
  timestamp := timespecToMilliseconds core args.timestamp

/-- The steps of `node_log_func` and of `LogMessagesCallback` -/
inductive LogAct
  /-- `node_log_func`, up to its push, at some time, -/
  | nodeLogFunc (thread : Nat) (args : GprLogFuncArgs) (now : Timespec)
  /-- and its `uv_async_send`. -/
  | uvAsyncSend (thread : Nat)
  /-- The event loop calls `LogMessagesCallback`, -/
  | logMessagesCallback
  /-- which takes the queue over, -/
  | swapPendingArgs
  /-- calls the logger with the first of the messages that it has, -/
  | callLogger
  /-- and returns when there is none left. -/
  | leave

def LogAct.act : LogAct → Act LogArgs
  | nodeLogFunc thread args now => .push thread { coreArgs := args, timestamp := now }
  | uvAsyncSend thread => .send thread
  | logMessagesCallback => .start
  | swapPendingArgs => .swap
  | callLogger => .hand
  | leave => .finish

/-- One step of `grpc_logger_state` -/
def logStep (s : State LogArgs) (a : LogAct) : Option (State LogArgs) := AsyncQueue.step s a.act

/-! ### Nothing is lost -/

/-- The calls of the JavaScript function are those for the first items, once each and in the order
of the queue; what has not been handed on is with the handler or in the queue; and if the queue is
not empty, then a signal is pending, or the handler has been called and has not swapped, or a
producer has not sent yet. If none of them is, all calls have been made, and it takes no further
item for all threads to get there. -/
structure LosesNothing {α β : Type*} (arguments : α → β) (s : State α) : Prop where
  calls : s.handed.map arguments <+: s.pushed.map arguments
  conserved : s.pushed = s.handed ++ s.handler.items ++ s.queue
  awake : s.queue ≠ [] → s.signal = true ∨ s.handler = .started ∨ s.sending ≠ []
  complete : s.signal = false → s.handler = .idle → s.sending = [] →
    s.handed.map arguments = s.pushed.map arguments
  drains : ∃ acts t, Runs.exec AsyncQueue.step s acts = some t ∧ AsyncQueue.Pushless acts ∧
    t.pushed = s.pushed ∧ t.handed = s.pushed

theorem losesNothing_of_good {α β : Type*} (arguments : α → β) {s : State α}
    (h : AsyncQueue.Good s) : LosesNothing arguments s where
  calls := h.handed_prefix.map arguments
  conserved := h.conserved
  awake := h.awake
  complete hsignal hhandler hsending := by rw [h.handed_of_quiescent hsignal hhandler hsending]
  drains := h.exists_drain

/-- **No interleaving strands an item**, in either of the two queues. -/
theorem queues_loseNothing (core : TimeCore) (severityString : Nat → String) :
    (∀ acts, Runs.Always pluginStep (LosesNothing PluginCallbackData.arguments) {} acts) ∧
    ∀ acts, Runs.Always logStep (LosesNothing (LogArgs.arguments core severityString)) {} acts := by
  refine ⟨fun acts => ?_, fun acts => ?_⟩
  · have hgood : Runs.Always pluginStep AsyncQueue.Good {} acts :=
      Runs.always_of_invariant (fun _ _ _ h hstep => h.next hstep) AsyncQueue.good_initial acts
    exact hgood.mono fun _ h => losesNothing_of_good _ h
  · have hgood : Runs.Always logStep AsyncQueue.Good {} acts :=
      Runs.always_of_invariant (fun _ _ _ h hstep => h.next hstep) AsyncQueue.good_initial acts
    exact hgood.mono fun _ h => losesNothing_of_good _ h

end GrpcNode.NativeCore.AsyncCallbacks
