import GrpcNode.JsCore.CallStreamEnd
import GrpcNode.JsCore.ChannelCalls

/-!
# GrpcNode.JsCore.Client

`Client` of `client.ts` with the writing side of `call.ts`: the channel, and the call streams
that the four request functions create on it.

A step is a call of a request function, a `_write` of a stream that the user writes to, a step
of the channel or a step of one of the call streams. `setCall` is where the two machines meet:
the channel sees the final status of a call as soon as its stream has one. When the channel
settles the metadata of a call, `settled` attaches the new request to the stream, or cancels it.
-/

namespace GrpcNode.JsCore

open GrpcNode.Js
open Runs (when)

/-- `getStatus()` of a call stream. -/
def CallStream.State.getStatus (s : CallStream.State) : Option StatusObject := s.call.getStatus

/-- How many requests a call has made. -/
def Channel.State.requestsOf {γ : Type} (s : Channel.State γ) (call : Nat) : Nat :=
  (s.requests.map Channel.Request.call).count call

namespace Client

/-- The request functions. -/
inductive RequestKind
  | unary
  | clientStream
  | serverStream
  | bidiStream
  deriving Repr, DecidableEq

/-- Whether the user writes the messages, through `tryWrite`. -/
def RequestKind.writes : RequestKind → Bool
  | .clientStream | .bidiStream => true
  | .unary | .serverStream => false

/-- The arguments that all request functions have. `metadata` is the address of the user's
object. -/
structure Arguments (γ : Type) where
  method : String
  metadata : Nat
  options : CallOptions γ
  /-- `options.flags` -/
  flags : Option Nat := none

/-- A call stream and what the client has put around it. A serializer may throw. -/
structure Call (ρ ε : Type) where
  kind : RequestKind
  serialize : ρ → Except ε Buffer
  stream : CallStream.State := CallStream.State.initial
  /-- Whether the request function has returned, so that the user has the call. -/
  returned : Bool := true
  /-- The exceptions that were given to the callbacks of writes. -/
  errors : List ε := []

/-- A serialization that has failed: for which call, and how many requests that call had made
by then. -/
structure Failure where
  call : Nat
  requests : Nat
  deriving DecidableEq

/-- A client. The streams of `calls` are those of the calls of the channel, in the same order. -/
structure State (γ ρ ε : Type) where
  channel : Channel.State γ
  calls : List (Call ρ ε) := []
  /-- The exceptions of serializers that have left a request function. -/
  thrown : List ε := []
  /-- History -/
  failures : List Failure := []

/-- What can happen. -/
inductive Act (γ ρ ε : Type)
  | makeUnaryRequest (serialize : ρ → Except ε Buffer) (argument : ρ) (arguments : Arguments γ)
  | makeClientStreamRequest (serialize : ρ → Except ε Buffer) (arguments : Arguments γ)
  | makeServerStreamRequest (serialize : ρ → Except ε Buffer) (argument : ρ)
      (arguments : Arguments γ)
  | makeBidiStreamRequest (serialize : ρ → Except ε Buffer) (arguments : Arguments γ)
  /-- `_write(chunk, encoding, cb)` of the stream of a call; `flags` is `Number(encoding)`
  unless that is `NaN`. -/
  | write (call : Nat) (chunk : ρ) (flags : Option Nat) (cb : Callback)
  | channel (a : Channel.Act γ)
  | stream (call : Nat) (a : CallStream.Act)

namespace State

variable {γ ρ ε : Type} (s : State γ ρ ε)

/-! ### The request functions -/

/-- A request function on a channel that is shut down throws what `createStream` throws. -/
def refuse (e : JsError) : State γ ρ ε :=
  { s with channel := { s.channel with thrown := s.channel.thrown ++ [e] } }

/-- The request functions whose messages are written later. -/
def openStream (kind : RequestKind) (serialize : ρ → Except ε Buffer) (arguments : Arguments γ) :
    State γ ρ ε :=
  match s.channel.createStream arguments.metadata arguments.method arguments.options with
  | .error e => s.refuse e
  | .ok channel => { s with channel, calls := s.calls ++ [{ kind, serialize }] }

/-- The request functions that have the one message as an argument. The stream exists before
the argument is serialized, and there is no `try`. -/
def sendArgument (kind : RequestKind) (serialize : ρ → Except ε Buffer) (argument : ρ)
    (arguments : Arguments γ) : State γ ρ ε :=
  match s.channel.createStream arguments.metadata arguments.method arguments.options with
  | .error e => s.refuse e
  | .ok channel =>
      match serialize argument with
      | .ok message =>
          let stream := CallStream.State.initial.write { message, flags := arguments.flags } 0
          { s with channel, calls := s.calls ++ [{ kind, serialize, stream }] }
      | .error e =>
          { s with
            channel
            calls := s.calls ++ [{ kind, serialize, returned := false }]
            thrown := s.thrown ++ [e]
            failures := s.failures ++ [⟨s.calls.length, channel.requestsOf s.calls.length⟩] }

def makeUnaryRequest := sendArgument s .unary

def makeClientStreamRequest := openStream s .clientStream

def makeServerStreamRequest := sendArgument s .serverStream

def makeBidiStreamRequest := openStream s .bidiStream

/-! ### Calls and channel -/

/-- The `i`-th call changes, and the channel sees its status. -/
def setCall (i : Nat) (call : Call ρ ε) : State γ ρ ε :=
  { s with
    calls := s.calls.set i call
    channel := match call.stream.getStatus with
      | some status => s.channel.endCall i status
      | none => s.channel }

/-- `tryWrite(call, serialize, chunk, encoding, cb)` -/
def tryWrite (i : Nat) (call : Call ρ ε) (chunk : ρ) (flags : Option Nat) (cb : Callback) :
    State γ ρ ε :=
  match call.serialize chunk with
  | .error e =>
      { s.setCall i { call with
          stream := call.stream.cancelWithStatus .internal "Serialization failure"
          errors := call.errors ++ [e] } with
        failures := s.failures ++ [⟨i, s.channel.requestsOf i⟩] }
  | .ok message => s.setCall i { call with stream := call.stream.write { message, flags } cb }

/-- What the reactions to the `finalMetadata` of an attempt do to the stream of its call. -/
def reactions (stage : Channel.Stage) (before after : Channel.State γ)
    (stream : CallStream.State) : CallStream.State :=
  match stage with
  | .rejected _ => stream.cancelWithStatus .unknown "Failed to generate metadata"
  | _ =>
      match after.requests.drop before.requests.length with
      | ⟨_, _, .session _, _⟩ :: _ => stream.attachHttp2Stream
      -- There is no new request, or `session.request` has thrown.
      | _ => stream

/-- The metadata of the `i`-th attempt has settled, which has made the channel `channel`. -/
def settled (channel : Channel.State γ) (i : Nat) : State γ ρ ε :=
  match s.channel.attempts[i]? with
  | none => { s with channel }
  | some attempt =>
      match s.calls[attempt.call]? with
      | none => { s with channel }
      | some call =>
          { s with channel }.setCall attempt.call
            { call with stream := reactions attempt.stage s.channel channel call.stream }

/-! ### Steps -/

/-- No function of a call stream is under way. -/
def quiet : Bool := s.calls.all fun call => call.stream.stack.isEmpty

/-- The user's code can run: the functions that are under way all wait for foreign code. -/
def canRun : Bool := s.calls.all fun call => call.stream.canRead

/-- Whether a step of the channel can come. Its calls are created and ended by the client. -/
def channelMay : Channel.Act γ → Bool
  | .createStream _ _ _ | .callEnds _ _ => false
  | .connect | .close => s.canRun
  | _ => s.quiet

/-- Whether a step of the stream of `call` can come. It is attached by the channel, and written
to by the client. -/
def streamMay (call : Call ρ ε) : CallStream.Act → Bool
  | .attachHttp2Stream | .write _ _ => false
  | .cancelWithStatus _ _ | .read => s.canRun
  -- `call.end()` comes after the argument, or from the user.
  | .final _ => call.returned && s.canRun
  | .advance | .pushReturns _ | .cancelReturns => true
  | _ => s.quiet && s.channel.emitting.isNone

def channelStep (config : Channel.Config γ) (a : Channel.Act γ) : Option (State γ ρ ε) :=
  if s.channelMay a then
    (Channel.step config s.channel a).map fun channel =>
      match a with
      | .settle i => s.settled channel i
      | _ => { s with channel }
  else none

def streamStep (filterStack : ReceiveFilter) (i : Nat) (call : Call ρ ε) (a : CallStream.Act) :
    Option (State γ ρ ε) :=
  if s.streamMay call a then
    (CallStream.step filterStack call.stream a).map fun stream => s.setCall i { call with stream }
  else none

end State

/-- One step; `none` if it is not possible. Each call has filters of its own. -/
def step {γ ρ ε : Type} (config : Channel.Config γ) (filterStack : Nat → ReceiveFilter)
    (s : State γ ρ ε) : Act γ ρ ε → Option (State γ ρ ε)
  | .makeUnaryRequest serialize argument arguments =>
      when s.canRun (s.makeUnaryRequest serialize argument arguments)
  | .makeClientStreamRequest serialize arguments =>
      when s.canRun (s.makeClientStreamRequest serialize arguments)
  | .makeServerStreamRequest serialize argument arguments =>
      when s.canRun (s.makeServerStreamRequest serialize argument arguments)
  | .makeBidiStreamRequest serialize arguments =>
      when s.canRun (s.makeBidiStreamRequest serialize arguments)
  | .write i chunk flags cb =>
      match s.calls[i]? with
      | some call =>
          when (s.canRun ∧ call.kind.writes ∧ call.stream.writing = none ∧ !call.stream.finished)
            (s.tryWrite i call chunk flags cb)
      | none => none
  | .channel a => s.channelStep config a
  | .stream i a =>
      match s.calls[i]? with
      | some call => s.streamStep (filterStack i) i call a
      | none => none

/-- A new client, and the objects that its user has. -/
def State.initial {γ ρ ε : Type} (objects : Nat → Metadata) : State γ ρ ε where
  channel := .initial objects

/-! ### What a step can be -/

/-- The steps, each with what makes it possible. -/
inductive Effect {γ ρ ε : Type} (config : Channel.Config γ) (filterStack : Nat → ReceiveFilter)
    (s : State γ ρ ε) : Act γ ρ ε → State γ ρ ε → Prop
  | makeUnaryRequest (serialize : ρ → Except ε Buffer) (argument : ρ) (arguments : Arguments γ) :
      Effect config filterStack s (.makeUnaryRequest serialize argument arguments)
        (s.sendArgument .unary serialize argument arguments)
  | makeClientStreamRequest (serialize : ρ → Except ε Buffer) (arguments : Arguments γ) :
      Effect config filterStack s (.makeClientStreamRequest serialize arguments)
        (s.openStream .clientStream serialize arguments)
  | makeServerStreamRequest (serialize : ρ → Except ε Buffer) (argument : ρ)
      (arguments : Arguments γ) :
      Effect config filterStack s (.makeServerStreamRequest serialize argument arguments)
        (s.sendArgument .serverStream serialize argument arguments)
  | makeBidiStreamRequest (serialize : ρ → Except ε Buffer) (arguments : Arguments γ) :
      Effect config filterStack s (.makeBidiStreamRequest serialize arguments)
        (s.openStream .bidiStream serialize arguments)
  | write {i : Nat} {call : Call ρ ε} (chunk : ρ) (flags : Option Nat) (cb : Callback) :
      s.calls[i]? = some call → call.stream.canRead = true → call.stream.writing = none →
      call.stream.finished = false →
      Effect config filterStack s (.write i chunk flags cb) (s.tryWrite i call chunk flags cb)
  | channel {a : Channel.Act γ} {channel : Channel.State γ} :
      Channel.step config s.channel a = some channel → (∀ i, a ≠ .settle i) →
      (∀ call status, a ≠ .callEnds call status) →
      (∀ metadata methodName options, a ≠ .createStream metadata methodName options) →
      Effect config filterStack s (.channel a) { s with channel }
  | settle {i : Nat} {channel : Channel.State γ} : s.quiet = true →
      Channel.step config s.channel (.settle i) = some channel →
      Effect config filterStack s (.channel (.settle i)) (s.settled channel i)
  | stream {i : Nat} {call : Call ρ ε} {a : CallStream.Act} {stream : CallStream.State} :
      s.calls[i]? = some call → CallStream.step (filterStack i) call.stream a = some stream →
      Effect config filterStack s (.stream i a) (s.setCall i { call with stream })

section Steps

variable {γ ρ ε : Type} {config : Channel.Config γ} {filterStack : Nat → ReceiveFilter}
  {s s' : State γ ρ ε}

theorem State.canRead_of_canRun (h : s.canRun = true) {i : Nat} {call : Call ρ ε}
    (hcall : s.calls[i]? = some call) : call.stream.canRead = true :=
  List.all_eq_true.mp h call (List.mem_of_getElem? hcall)

theorem State.stack_of_quiet (h : s.quiet = true) {i : Nat} {call : Call ρ ε}
    (hcall : s.calls[i]? = some call) : call.stream.stack = [] :=
  List.isEmpty_iff.mp (List.all_eq_true.mp h call (List.mem_of_getElem? hcall))

theorem channelStep_effect {a : Channel.Act γ} (h : s.channelStep config a = some s') :
    Effect config filterStack s (.channel a) s' := by
  unfold State.channelStep at h
  split at h
  · rename_i hmay
    obtain ⟨channel, hchannel, rfl⟩ := Option.map_eq_some_iff.mp h
    cases a with
    | settle i => exact .settle hmay hchannel
    | createStream metadata methodName options => simp [State.channelMay] at hmay
    | callEnds call status => simp [State.channelMay] at hmay
    | _ => exact .channel hchannel (by simp) (by simp) (by simp)
  · simp at h

theorem step_effect {a : Act γ ρ ε} (h : step config filterStack s a = some s') :
    Effect config filterStack s a s' := by
  cases a with
  | makeUnaryRequest serialize argument arguments =>
      obtain ⟨-, rfl⟩ := Runs.when_eq_some.mp h
      exact .makeUnaryRequest serialize argument arguments
  | makeClientStreamRequest serialize arguments =>
      obtain ⟨-, rfl⟩ := Runs.when_eq_some.mp h
      exact .makeClientStreamRequest serialize arguments
  | makeServerStreamRequest serialize argument arguments =>
      obtain ⟨-, rfl⟩ := Runs.when_eq_some.mp h
      exact .makeServerStreamRequest serialize argument arguments
  | makeBidiStreamRequest serialize arguments =>
      obtain ⟨-, rfl⟩ := Runs.when_eq_some.mp h
      exact .makeBidiStreamRequest serialize arguments
  | write i chunk flags cb =>
      simp only [step] at h
      split at h
      · rename_i call hcall
        obtain ⟨⟨hrun, -, hwriting, hfinished⟩, rfl⟩ := Runs.when_eq_some.mp h
        exact .write chunk flags cb hcall (s.canRead_of_canRun hrun hcall) hwriting
          (by simpa using hfinished)
      · simp at h
  | channel a => exact channelStep_effect h
  | stream i a =>
      simp only [step] at h
      split at h
      · rename_i call hcall
        unfold State.streamStep at h
        split at h
        · obtain ⟨stream, hstream, rfl⟩ := Option.map_eq_some_iff.mp h
          exact .stream hcall hstream
        · simp at h
      · simp at h

end Steps

end Client

end GrpcNode.JsCore
