import GrpcNode.JsCore.CallStream
import GrpcNode.JsCore.Filters

/-!
# GrpcNode.JsCore.Channel

`Http2Channel` of `channel.ts`, with the HTTP/2 sessions it creates, the `connect`
callbacks, and the calls that are started on it.

A step is a call of an API function, an event of a session, one callback, or one
continuation of the promises of a call. Events and continuations come only when no
JavaScript is running. The `'connectivityStateChanged'` event for `READY` is delivered
listener by listener, because the callbacks behind the listeners are foreign code that may
use the channel; for all other states the listeners do nothing, and the event is delivered
in one go.

The streams of the calls appear here with their final status only: that a call ends, for
whatever reason, is the action `callEnds`.
-/

namespace GrpcNode.JsCore

open GrpcNode.Js
open Runs (when)

/-- `ConnectivityState` -/
inductive ConnectivityState
  | connecting
  | ready
  | transientFailure
  | idle
  | shutdown
  deriving Repr, DecidableEq

/-- `CallOptions` -/
structure CallOptions (γ : Type) where
  deadline : Option Deadline := none
  credentials : Option (CallCredentials γ) := none

namespace Channel

/-- `http2.ClientHttp2Session`: whether its `'connect'` event has fired, and whether
`shutdown` was called. -/
structure Session where
  connected : Bool := false
  shutdown : Bool := false
  deriving Repr, DecidableEq

/-- `subChannel`. The field has no initialiser, so it starts as `undefined`. -/
inductive SubChannel
  | undefined
  | null
  | session (i : Nat)
  deriving Repr, DecidableEq

/-- A function passed to `connect`: the user's, that of `DeadlineFilter.sendMetadata`, or
that of `startHttp2Stream`. -/
inductive Callback
  | user
  | deadline (attempt : Nat)
  | start (attempt : Nat)
  deriving Repr, DecidableEq

/-- A callback that was passed to `connect`. The `id` tells the passes apart. -/
structure Listener where
  id : Nat
  callback : Callback
  deriving Repr, DecidableEq

/-- What `setImmediate` has been given. -/
inductive Immediate
  | callback (listener : Listener)
  /-- `this.startHttp2Stream(methodName, stream, metadata)` -/
  | restart (call : Nat)
  deriving Repr, DecidableEq

/-- A call: the arguments of `createStream`, the final options, and the final status of the
stream. `metadata` is the address of the user's object. -/
structure Call (γ : Type) where
  metadata : Nat
  methodName : String
  deadline : JsNumber
  credentials : CallCredentials γ
  status : Option StatusObject := none

/-- How far the filters of an attempt have got: which of them will hold the metadata next,
or what `finalMetadata` has settled to. -/
inductive Stage
  | compression
  | credentials
  | deadline
  | resolved
  | rejected (error : JsError)
  /-- The reactions to `finalMetadata` have run. -/
  | handled
  deriving Repr, DecidableEq

/-- One execution of `startHttp2Stream`. -/
structure Attempt where
  call : Nat
  stage : Stage := .compression
  /-- What `timeoutString` has resolved to. -/
  timeout : Option String := none
  /-- Whether the callback of `startHttp2Stream` has run, which waits for `finalMetadata`. -/
  connected : Bool := false
  deriving Repr, DecidableEq

/-- A call of `session.request`. -/
structure Request where
  call : Nat
  attempt : Nat
  session : SubChannel
  headers : Headers

/-- The channel and what surrounds it. -/
structure State (γ : Type) where
  connectivityState : ConnectivityState := .idle
  subChannel : SubChannel := .undefined
  sessions : List Session := []
  /-- The listeners of `'connectivityStateChanged'`. -/
  listeners : List Listener := []
  /-- While the event for `READY` is being delivered: the listeners still to be called. -/
  emitting : Option (List Listener) := none
  immediates : List Immediate := []
  nextId : Nat := 0
  /-- The `Metadata` objects of the user. -/
  heap : Nat → Metadata
  calls : List (Call γ) := []
  attempts : List Attempt := []
  requests : List Request := []
  /-- The exceptions that API functions have thrown, and the rejections nobody handles. -/
  thrown : List JsError := []
  unhandled : List JsError := []
  /-- History: the callbacks passed to `connect` before the channel was shut down, those
  whose listener was called for a state other than `READY`, and those that have run. -/
  passed : List Nat := []
  dropped : List Nat := []
  invoked : List Nat := []
  /-- History: how many sessions there were when `close` was called. -/
  closed : Option Nat := none

/-- The parameters of a channel. -/
structure Config (γ : Type) where
  hostname : String
  /-- `credentials.getCallCredentials()` -/
  callCredentials : CallCredentials γ

/-- What can happen. -/
inductive Act (γ : Type)
  | connect
  | createStream (metadata : Nat) (methodName : String) (options : CallOptions γ)
  | close
  /-- The `'connect'` event of the `i`-th session. -/
  | sessionConnect (i : Nat)
  /-- The idle-timeout callback of the `i`-th session. -/
  | sessionTimeout (i : Nat)
  /-- The event for `READY` reaches its next listener. -/
  | emitNext (now : Int)
  /-- The oldest function given to `setImmediate` runs. -/
  | runImmediate (now : Int)
  /-- The next filter of an attempt goes on. -/
  | filter (attempt : Nat)
  /-- The reactions to the `finalMetadata` of an attempt run. -/
  | settle (attempt : Nat)
  /-- The stream of a call gets its final status. -/
  | callEnds (call : Nat) (status : StatusObject)

namespace State

variable {γ : Type}

/-! ### Connectivity -/

/-- `this.emit('connectivityStateChanged', newState)` -/
def emit (s : State γ) (newState : ConnectivityState) : State γ :=
  -- The listeners are `once` listeners: for any other state they are used up at once.
  if newState = .ready then { s with emitting := some s.listeners }
  else { s with listeners := [], dropped := s.dropped ++ s.listeners.map Listener.id }

/-- `transitionToState(newState)` -/
def transitionToState (s : State γ) (newState : ConnectivityState) : State γ :=
  if newState = s.connectivityState then s
  else { s with connectivityState := newState }.emit newState

/-- `startConnecting()` -/
def startConnecting (s : State γ) : State γ :=
  { s.transitionToState .connecting with
    subChannel := .session s.sessions.length
    sessions := s.sessions ++ [{}] }

/-- `shutdown` of the `i`-th session. -/
def shutdownSession (s : State γ) (i : Nat) : State γ :=
  { s with sessions := s.sessions.modify i fun session => { session with shutdown := true } }

/-- Calling a method of `undefined`, and leaving the function with the exception. -/
def throwUndefined (s : State γ) : State γ :=
  { s with thrown := s.thrown ++ [JsError.typeError "Cannot read property 'shutdown' of undefined"] }

/-- `goIdle()` -/
def goIdle (s : State γ) : State γ :=
  match s.subChannel with
  -- It is the current session that is dropped, whichever session has timed out.
  | .session i => { s.shutdownSession i with subChannel := .null }.transitionToState .idle
  | .null => s.transitionToState .idle
  | .undefined => s.throwUndefined

/-- `kickConnectivityState()` -/
def kickConnectivityState (s : State γ) : State γ :=
  if s.connectivityState = .idle then s.startConnecting else s

/-- The `'connect'` listener of a session. -/
def onSessionConnect (s : State γ) (i : Nat) : State γ :=
  { s with
    sessions := s.sessions.modify i fun session => { session with connected := true }
  }.transitionToState .ready

/-- The next callback gets its number; it counts as passed unless the channel is shut
down. -/
def pass (s : State γ) : State γ :=
  { s with
    nextId := s.nextId + 1
    passed := if s.connectivityState = .shutdown then s.passed else s.passed ++ [s.nextId] }

/-- The callback is scheduled, or a listener waits for the next transition. -/
def waitReady (s : State γ) (listener : Listener) : State γ :=
  if s.connectivityState = .ready then
    { s with immediates := s.immediates ++ [.callback listener] }
  else { s with listeners := s.listeners ++ [listener] }

/-- `connect(callback)` -/
def connect (s : State γ) (callback : Callback) : State γ :=
  s.pass.kickConnectivityState.waitReady ⟨s.nextId, callback⟩

/-- `this.subChannel.shutdown({graceful: true})`, unless the subchannel is `null`. -/
def shutdownSubChannel (s : State γ) : State γ :=
  match s.subChannel with
  | .session i => s.shutdownSession i
  | .null => s
  | .undefined => s.throwUndefined

/-- `close()` -/
def close (s : State γ) : State γ :=
  if s.connectivityState = .shutdown then
    { s with thrown := s.thrown ++ [JsError.error "Channel has been shut down"] }
  else
    { s with closed := s.closed.or (some s.sessions.length) }.transitionToState .shutdown
      |>.shutdownSubChannel

/-! ### Calls -/

/-- `startHttp2Stream(methodName, stream, metadata)` up to its `connect`. The filters start
at once: the `DeadlineFilter` of a call with a deadline calls `connect` first. -/
def startHttp2Stream (s : State γ) (call : Nat) (deadline : JsNumber) : State γ :=
  let attempt := s.attempts.length
  let started := { s with attempts := s.attempts ++ [({ call } : Attempt)] }
  if deadline = noDeadline then started.connect (.start attempt)
  else (started.connect (.deadline attempt)).connect (.start attempt)

/-- The call that `createStream` makes. -/
def newCall (metadata : Nat) (methodName : String) (options : CallOptions γ) : Call γ where
  metadata := metadata
  methodName := methodName
  deadline := match options.deadline with
    | some deadline => deadline.getTime
    | none => noDeadline
  credentials := options.credentials.getD .empty

/-- `createStream(methodName, metadata, options)`, or the exception it throws. -/
def createStream (s : State γ) (metadata : Nat) (methodName : String)
    (options : CallOptions γ) : Except JsError (State γ) :=
  if s.connectivityState = .shutdown then .error (.error "Channel has been shut down")
  else
    let call := newCall metadata methodName options
    .ok ({ s with calls := s.calls ++ [call] }.startHttp2Stream s.calls.length call.deadline)

/-- The deadline of a call. -/
def deadlineOf (s : State γ) (call : Nat) : JsNumber :=
  match s.calls[call]? with
  | some c => c.deadline
  | none => noDeadline

/-- Change one attempt. -/
def setAttempt (s : State γ) (i : Nat) (f : Attempt → Attempt) : State γ :=
  { s with attempts := s.attempts.modify i f }

/-- The body of a callback of `connect`. -/
def runCallback (s : State γ) (now : Int) : Callback → State γ
  | .user => s
  | .deadline i =>
      match s.attempts[i]? with
      | some attempt =>
          -- A promise resolves once; later values are ignored.
          s.setAttempt i fun a =>
            { a with timeout := a.timeout.or (timeoutString (s.deadlineOf attempt.call) now) }
      | none => s
  | .start i => s.setAttempt i fun a => { a with connected := true }

/-- A callback of `connect` runs. -/
def invoke (s : State γ) (now : Int) (listener : Listener) : State γ :=
  { s with invoked := s.invoked ++ [listener.id] }.runCallback now listener.callback

/-- The function given to `setImmediate` runs. -/
def runImmediate (s : State γ) (now : Int) : Immediate → State γ
  | .callback listener => s.invoke now listener
  | .restart call => s.startHttp2Stream call (s.deadlineOf call)

/-- The event for `READY` reaches the next of its listeners, unless that one has been called
for another event in the meantime. -/
def emitNext (s : State γ) (now : Int) (listener : Listener) (rest : List Listener) : State γ :=
  let s := { s with emitting := some rest }
  if listener ∈ s.listeners then
    { s with listeners := s.listeners.erase listener }.invoke now listener
  else s

/-- Change one object of the user. -/
def setObject (s : State γ) (address : Nat) (m : Metadata) : State γ :=
  { s with heap := fun a => if a = address then m else s.heap a }

/-- A filter is done with the object at `address`: it has changed it, or thrown. -/
def filtered (s : State γ) (i address : Nat) (next : Stage) : Except JsError Metadata → State γ
  | .ok m => (s.setObject address m).setAttempt i fun a => { a with stage := next }
  | .error e => s.setAttempt i fun a => { a with stage := .rejected e }

/-- The next filter of the `i`-th attempt goes on with the object of its call. The
`DeadlineFilter` has to wait for `timeoutString` where there is a deadline. -/
def filter? (config : Config γ) (s : State γ) (i : Nat) (attempt : Attempt) (call : Call γ) :
    Option (State γ) :=
  let object := s.heap call.metadata
  match attempt.stage with
  | .compression =>
      some (s.filtered i call.metadata .credentials (CompressionFilter.sendMetadata object))
  | .credentials =>
      let credentials := config.callCredentials.compose call.credentials
      match CallCredentialsFilter.sendMetadata credentials object with
      | (m, none) => some (s.filtered i call.metadata .deadline (.ok m))
      | (m, some e) => some ((s.setObject call.metadata m).filtered i call.metadata .deadline (.error e))
  | .deadline =>
      if call.deadline = noDeadline then
        some (s.setAttempt i fun a => { a with stage := .resolved })
      else match attempt.timeout with
        | some timeout =>
            some (s.filtered i call.metadata .resolved (DeadlineFilter.setTimeout object timeout))
        | none => none
  | .resolved | .rejected _ | .handled => none

/-- The headers that `startHttp2Stream` opens a request with. -/
def requestHeaders (config : Config γ) (call : Call γ) (metadataValue : Metadata) :
    Except JsError Headers := do
  let headers ← metadataValue.toHttp2Headers
  return ((((headers.put ":authority" (.one config.hostname)).put
    "content-type" (.one "application/grpc")).put ":method" (.one "POST")).put
    ":path" (.one call.methodName)).put "te" (.one "trailers")

/-- `session.request(headers)` on the current subchannel. -/
def request (s : State γ) (i : Nat) (call : Nat) (headers : Headers) : State γ :=
  let s := { s with requests := s.requests ++ [Request.mk call i s.subChannel headers] }
  match s.subChannel with
  | .session _ => s
  | .null | .undefined => { s with
      unhandled := s.unhandled ++ [JsError.typeError "Cannot read property 'request' of null"] }

/-- `stream.cancelWithStatus(...)`, or any other end of the call. -/
def endCall (s : State γ) (call : Nat) (status : StatusObject) : State γ :=
  { s with calls := s.calls.modify call fun c => { c with status := c.status.or (some status) } }

/-- The reactions to the `finalMetadata` of the `i`-th attempt. -/
def settle? (config : Config γ) (s : State γ) (i : Nat) (attempt : Attempt) (call : Call γ) :
    Option (State γ) :=
  let handled := s.setAttempt i fun a => { a with stage := .handled }
  match attempt.stage with
  | .resolved =>
      match requestHeaders config call (s.heap call.metadata) with
      | .error e => some { handled with unhandled := s.unhandled ++ [e] }
      | .ok headers =>
          -- A call that has ended meanwhile makes no request.
          if call.status ≠ none then some handled
          else if s.connectivityState = .ready then some (handled.request i attempt.call headers)
          else some { handled with immediates := s.immediates ++ [.restart attempt.call] }
  | .rejected _ =>
      some (handled.endCall attempt.call ⟨.unknown, "Failed to generate metadata", Metadata.new⟩)
  | .compression | .credentials | .deadline | .handled => none

end State

/-! ### Steps -/

/-- Continue with the `i`-th attempt and its call. -/
def withAttempt {γ : Type} (s : State γ) (i : Nat)
    (f : Attempt → Call γ → Option (State γ)) : Option (State γ) := do
  let attempt ← s.attempts[i]?
  let call ← s.calls[attempt.call]?
  f attempt call

theorem withAttempt_eq_some {γ : Type} {s s' : State γ} {i : Nat}
    {f : Attempt → Call γ → Option (State γ)} :
    withAttempt s i f = some s' ↔ ∃ attempt call, s.attempts[i]? = some attempt ∧
      s.calls[attempt.call]? = some call ∧ f attempt call = some s' := by
  simp [withAttempt, Option.bind_eq_some_iff]

/-- One step; `none` if it is not possible. -/
def step {γ : Type} (config : Config γ) (s : State γ) : Act γ → Option (State γ)
  | .connect => some (s.connect .user)
  | .createStream metadata methodName options =>
      match s.createStream metadata methodName options with
      | .ok s' => some s'
      | .error e => some { s with thrown := s.thrown ++ [e] }
  | .close => some s.close
  | .sessionConnect i =>
      when (s.emitting = none ∧ (s.sessions[i]?.any fun session => !session.connected) = true)
        (s.onSessionConnect i)
  | .sessionTimeout i => when (s.emitting = none ∧ i < s.sessions.length) s.goIdle
  | .emitNext now =>
      match s.emitting with
      | none => none
      | some [] => some { s with emitting := none }
      | some (listener :: rest) => some (s.emitNext now listener rest)
  | .runImmediate now =>
      match s.emitting, s.immediates with
      | none, immediate :: rest => some ({ s with immediates := rest }.runImmediate now immediate)
      | _, _ => none
  | .filter i =>
      if s.emitting = none then withAttempt s i (s.filter? config i) else none
  | .settle i =>
      if s.emitting = none then
        withAttempt s i fun attempt call =>
          if attempt.connected then s.settle? config i attempt call else none
      else none
  | .callEnds call status => some (s.endCall call status)

/-- A new channel, and the objects that its user has. -/
def State.initial {γ : Type} (objects : Nat → Metadata) : State γ where
  heap := objects

/-! ### What a step can be -/

/-- The steps, each with what makes it possible. -/
inductive Effect {γ : Type} (config : Config γ) (s : State γ) : Act γ → State γ → Prop
  | connect : Effect config s .connect (s.connect .user)
  | create (metadata : Nat) (methodName : String) (options : CallOptions γ) :
      s.connectivityState ≠ .shutdown →
      Effect config s (.createStream metadata methodName options)
        ({ s with calls := s.calls ++ [State.newCall metadata methodName options] }.startHttp2Stream
          s.calls.length (State.newCall metadata methodName options).deadline)
  | refuse (metadata : Nat) (methodName : String) (options : CallOptions γ) :
      s.connectivityState = .shutdown →
      Effect config s (.createStream metadata methodName options)
        { s with thrown := s.thrown ++ [JsError.error "Channel has been shut down"] }
  | close : Effect config s .close s.close
  | sessionConnect {i : Nat} {session : Session} : s.emitting = none →
      s.sessions[i]? = some session → session.connected = false →
      Effect config s (.sessionConnect i) (s.onSessionConnect i)
  | sessionTimeout {i : Nat} : s.emitting = none → i < s.sessions.length →
      Effect config s (.sessionTimeout i) s.goIdle
  | emitted (now : Int) : s.emitting = some [] →
      Effect config s (.emitNext now) { s with emitting := none }
  | emitNext (now : Int) {listener : Listener} {rest : List Listener} :
      s.emitting = some (listener :: rest) →
      Effect config s (.emitNext now) (s.emitNext now listener rest)
  | invoke (now : Int) {listener : Listener} {rest : List Immediate} : s.emitting = none →
      s.immediates = .callback listener :: rest →
      Effect config s (.runImmediate now) ({ s with immediates := rest }.invoke now listener)
  | restart (now : Int) {call : Nat} {rest : List Immediate} : s.emitting = none →
      s.immediates = .restart call :: rest →
      Effect config s (.runImmediate now)
        ({ s with immediates := rest }.startHttp2Stream call (s.deadlineOf call))
  | filter {i : Nat} {attempt : Attempt} {call : Call γ} {s' : State γ} : s.emitting = none →
      s.attempts[i]? = some attempt → s.calls[attempt.call]? = some call →
      s.filter? config i attempt call = some s' → Effect config s (.filter i) s'
  | settle {i : Nat} {attempt : Attempt} {call : Call γ} {s' : State γ} : s.emitting = none →
      s.attempts[i]? = some attempt → s.calls[attempt.call]? = some call →
      attempt.connected = true → s.settle? config i attempt call = some s' →
      Effect config s (.settle i) s'
  | callEnds (call : Nat) (status : StatusObject) :
      Effect config s (.callEnds call status) (s.endCall call status)

theorem step_effect {γ : Type} {config : Config γ} {s s' : State γ} {a : Act γ}
    (h : step config s a = some s') : Effect config s a s' := by
  cases a with
  | connect =>
      obtain rfl := Option.some.inj h
      exact .connect
  | createStream metadata methodName options =>
      simp only [step, State.createStream] at h
      by_cases hshutdown : s.connectivityState = .shutdown
      · rw [if_pos hshutdown] at h
        obtain rfl := Option.some.inj h
        exact .refuse metadata methodName options hshutdown
      · rw [if_neg hshutdown] at h
        obtain rfl := Option.some.inj h
        exact .create metadata methodName options hshutdown
  | close =>
      obtain rfl := Option.some.inj h
      exact .close
  | sessionConnect i =>
      obtain ⟨⟨hemitting, hsession⟩, rfl⟩ := Runs.when_eq_some.mp h
      obtain ⟨session, hi, hconnected⟩ := (Option.any_eq_true _ _).mp hsession
      exact .sessionConnect hemitting hi (by simpa using hconnected)
  | sessionTimeout i =>
      obtain ⟨⟨hemitting, hi⟩, rfl⟩ := Runs.when_eq_some.mp h
      exact .sessionTimeout hemitting hi
  | emitNext now =>
      simp only [step] at h
      split at h
      · exact absurd h nofun
      · rename_i hemitting
        obtain rfl := Option.some.inj h
        exact .emitted now hemitting
      · rename_i hemitting
        obtain rfl := Option.some.inj h
        exact .emitNext now hemitting
  | runImmediate now =>
      simp only [step] at h
      split at h
      · rename_i immediate rest hemitting himmediates
        obtain rfl := Option.some.inj h
        cases immediate with
        | callback listener => exact .invoke now hemitting himmediates
        | restart call => exact .restart now hemitting himmediates
      · exact absurd h nofun
  | filter i =>
      simp only [step] at h
      split at h
      · rename_i hemitting
        obtain ⟨attempt, call, hattempt, hcall, hfilter⟩ := withAttempt_eq_some.mp h
        exact .filter hemitting hattempt hcall hfilter
      · exact absurd h nofun
  | settle i =>
      simp only [step] at h
      split at h
      · rename_i hemitting
        obtain ⟨attempt, call, hattempt, hcall, hsettle⟩ := withAttempt_eq_some.mp h
        split at hsettle
        · rename_i hconnected
          exact .settle hemitting hattempt hcall hconnected hsettle
        · exact absurd hsettle nofun
      · exact absurd h nofun
  | callEnds call status =>
      obtain rfl := Option.some.inj h
      exact .callEnds call status

/-! ### What leaves the channel alone -/

namespace State

variable {γ : Type} (s : State γ)

/-- The channel without the calls and the objects. -/
def bare : State γ :=
  { s with heap := fun _ => Metadata.new, calls := [], attempts := [], requests := [], unhandled := [] }

theorem bare_runCallback (now : Int) (callback : Callback) :
    (s.runCallback now callback).bare = s.bare := by
  cases callback with
  | user => rfl
  | start i => rfl
  | deadline i =>
      unfold runCallback
      dsimp only
      split <;> rfl

theorem bare_filtered (i address : Nat) (next : Stage) (r : Except JsError Metadata) :
    (s.filtered i address next r).bare = s.bare := by
  cases r <;> rfl

theorem bare_filter {config : Config γ} {i : Nat} {attempt : Attempt} {call : Call γ}
    {s' : State γ} (h : s.filter? config i attempt call = some s') : s'.bare = s.bare := by
  unfold filter? at h
  dsimp only at h
  split at h
  · rw [← Option.some.inj h, bare_filtered]
  · split at h
    · rw [← Option.some.inj h, bare_filtered]
    · rw [← Option.some.inj h, bare_filtered]
      rfl
  · split at h
    · rw [← Option.some.inj h]
      rfl
    · split at h
      · rw [← Option.some.inj h, bare_filtered]
      · exact absurd h nofun
  all_goals exact absurd h nofun

theorem bare_request (i call : Nat) (headers : Headers) :
    (s.request i call headers).bare = s.bare := by
  unfold request
  dsimp only
  split <;> rfl

/-- The reactions to `finalMetadata` can do one thing to the channel: if it is not ready, the
call is started anew later. -/
theorem bare_settle {config : Config γ} {i : Nat} {attempt : Attempt} {call : Call γ}
    {s' : State γ} (h : s.settle? config i attempt call = some s') :
    s'.bare = s.bare ∨
      s'.bare = { s with immediates := s.immediates ++ [Immediate.restart attempt.call] }.bare := by
  unfold settle? at h
  dsimp only at h
  split at h
  · split at h
    · rw [← Option.some.inj h]
      exact .inl rfl
    · split at h
      · rw [← Option.some.inj h]
        exact .inl rfl
      · split at h
        · rw [← Option.some.inj h, bare_request]
          exact .inl rfl
        · rw [← Option.some.inj h]
          exact .inr rfl
  · rw [← Option.some.inj h]
    exact .inl rfl
  all_goals exact absurd h nofun

end State

end Channel

end GrpcNode.JsCore
