import GrpcNode.Js.Uri
import GrpcNode.JsCore.Framing
import GrpcNode.JsCore.Metadata
import GrpcNode.JsCore.Status
import GrpcNode.Lib.Runs

/-!
# GrpcNode.JsCore.CallStream

`Http2CallStream` of `call-stream.ts`, as one state machine with its surroundings: the
HTTP/2 stream it is attached to, the consumer that reads from it, the writer, and the
promises of the filter stack.

A step is one event, one call of an API function, or one piece of a running function.
Functions are cut where foreign code can run inside them and something is left to do
afterwards: at every `this.push(...)`, which may run the consumer's listeners, and at the
`emit('status')` of a `cancelWithStatus`. The foreign code may call `_read` or
`cancelWithStatus` before `push` or `emit` returns. `State.stack` holds the functions that
are under way, the innermost first; an event of the event loop finds it empty.
-/

namespace GrpcNode.JsCore

open GrpcNode.Js
open Runs (when)

/-- `StatusObject` -/
structure StatusObject where
  code : Status
  details : String
  metadata : Metadata
  deriving DecidableEq

/-- The filters of a call, as far as they process what is received: what the promise of
`receiveMetadata` or `receiveTrailers` settles to. -/
structure ReceiveFilter where
  receiveMetadata : Metadata → Except JsError Metadata
  receiveTrailers : StatusObject → Except JsError StatusObject

/-- The filters of `BaseFilter`, which hand everything on. -/
def ReceiveFilter.base : ReceiveFilter := ⟨.ok, .ok⟩

/-- A function that the writer waits for. -/
abbrev Callback := Nat

/-- `http2.ClientHttp2Stream`, as far as the call stream uses it. -/
structure Http2Stream where
  /-- Whether `attachHttp2Stream` has added its listeners. -/
  listening : Bool := false
  paused : Bool := false
  written : List Buffer := []
  /-- The callbacks of the writes under way, the oldest first. -/
  callbacks : List Callback := []
  ended : Option Callback := none
  rst : Bool := false
  deriving DecidableEq

namespace Http2Stream

/-- The calls of `on` in `attachHttp2Stream`. -/
def listen (stream : Http2Stream) : Http2Stream := { stream with listening := true }

def pause (stream : Http2Stream) : Http2Stream := { stream with paused := true }

def resume (stream : Http2Stream) : Http2Stream := { stream with paused := false }

def write (stream : Http2Stream) (chunk : Buffer) (cb : Callback) : Http2Stream :=
  { stream with written := stream.written ++ [chunk], callbacks := stream.callbacks ++ [cb] }

def endWith (stream : Http2Stream) (cb : Callback) : Http2Stream := { stream with ended := some cb }

def rstWithCancel (stream : Http2Stream) : Http2Stream := { stream with rst := true }

end Http2Stream

/-- The fields of `Http2CallStream`. Those that only the `'data'` handler uses are in
`decoder`. -/
structure Http2CallStream where
  http2Stream : Option Http2Stream := none
  pendingRead : Bool := false
  pendingWrite : Option Buffer := none
  pendingWriteCallback : Option Callback := none
  pendingFinalCallback : Option Callback := none
  decoder : Decoder := Decoder.initial
  unpushedReadMessages : List (Option Buffer) := []
  mappedStatusCode : Status := .unknown
  finalStatus : Option StatusObject := none
  deriving DecidableEq

/-- `getStatus()` -/
def Http2CallStream.getStatus (call : Http2CallStream) : Option StatusObject := call.finalStatus

/-- Do something to the attached HTTP/2 stream. -/
def Http2CallStream.onStream (call : Http2CallStream) (f : Http2Stream → Http2Stream) :
    Http2CallStream :=
  { call with http2Stream := call.http2Stream.map f }

/-! ### Status codes -/

/-- `String(value)` of a header value. -/
def HeaderValue.toText : HeaderValue → String
  | .one s => s
  | .many values => String.intercalate "," values

/-- The `switch` of the `'response'` handler. -/
def mapHttpStatus : Option HeaderValue → Status
  | some (.one s) =>
      if s = "400" then .internal
      else if s = "401" then .unauthenticated
      else if s = "403" then .permissionDenied
      else if s = "404" then .unimplemented
      else if s ∈ ["429", "502", "503", "504"] then .unavailable
      else .unknown
  | _ => .unknown

/-- The header object of a `'trailers'` event. Whether it inherits from `Object.prototype` is up to
the HTTP/2 stream: an object that is made for any names may have no prototype. -/
structure HeaderObject where
  own : Headers
  inherits : Bool := true
  deriving DecidableEq

/-- The method `hasOwnProperty` can be called: it is inherited, and no header of that name, whose
value would be no function, is in the way. -/
def HeaderObject.Accessible (headers : HeaderObject) : Prop :=
  headers.inherits = true ∧ headers.own.lookup "hasOwnProperty" = none

instance (headers : HeaderObject) : Decidable headers.Accessible :=
  inferInstanceAs (Decidable (_ ∧ _))

/-- `headers.hasOwnProperty(name)`, and then `headers[name]` -/
def HeaderObject.ownProperty (headers : HeaderObject) (name : String) :
    Except JsError (Option HeaderValue) :=
  if headers.Accessible then .ok (headers.own.lookup name)
  else .error (.typeError "headers.hasOwnProperty is not a function")

theorem HeaderObject.ownProperty_of_accessible {headers : HeaderObject} (h : headers.Accessible)
    (name : String) : headers.ownProperty name = .ok (headers.own.lookup name) := if_pos h

/-- The code that the `'trailers'` handler finds. -/
def trailersCode (mappedStatusCode : Status) (headers : HeaderObject) : Except JsError Status :=
  match headers.ownProperty "grpc-status" with
  | .ok (some received) => .ok ((Status.ofNumber? (.ofString received.toText)).getD .unknown)
  | .ok none => .ok mappedStatusCode
  | .error e => .error e

/-- The details that the `'trailers'` handler finds. -/
def trailersDetails (headers : HeaderObject) : Except JsError String :=
  match headers.ownProperty "grpc-message" with
  | .ok (some message) => decodeURI message.toText
  | .ok none => .ok ""
  | .error e => .error e

/-- The status that the `'trailers'` handler makes of the headers. Only the conversion to metadata
is in a `try`. -/
def trailersStatus (mappedStatusCode : Status) (headers : HeaderObject) :
    Except JsError StatusObject := do
  let code ← trailersCode mappedStatusCode headers
  let details ← trailersDetails headers
  let metadata := match Metadata.fromHttp2Headers (headers.own.erase "grpc-status") with
    | .ok metadata => metadata
    | .error _ => Metadata.new
  return { code, details, metadata }

/-- There is always a code if the handler can look for it. -/
theorem trailersCode_of_accessible {headers : HeaderObject} (h : headers.Accessible)
    (mappedStatusCode : Status) : ∃ code, trailersCode mappedStatusCode headers = .ok code := by
  unfold trailersCode
  rw [HeaderObject.ownProperty_of_accessible h]
  cases headers.own.lookup "grpc-status" <;> exact ⟨_, rfl⟩

theorem trailersDetails_of_accessible {headers : HeaderObject} (h : headers.Accessible) :
    trailersDetails headers = match headers.own.lookup "grpc-message" with
      | some message => decodeURI message.toText
      | none => .ok "" := by
  rw [trailersDetails, HeaderObject.ownProperty_of_accessible h]
  cases headers.own.lookup "grpc-message" <;> rfl

/-- If it cannot, the exception comes from the first call of `hasOwnProperty`. -/
theorem trailersStatus_of_not_accessible {headers : HeaderObject} (h : ¬ headers.Accessible)
    (mappedStatusCode : Status) : trailersStatus mappedStatusCode headers =
      .error (.typeError "headers.hasOwnProperty is not a function") := by
  rw [trailersStatus, trailersCode, HeaderObject.ownProperty, if_neg h]
  rfl

/-- The status that the `'streamClosed'` handler makes of an HTTP/2 error code. -/
def streamClosedStatus (errorCode : Nat) : StatusObject :=
  let closed (code : Status) (details : String) : StatusObject := ⟨code, details, Metadata.new⟩
  match errorCode with
  | 7 => closed .unavailable ""  -- NGHTTP2_REFUSED_STREAM
  | 8 => closed .cancelled ""  -- NGHTTP2_CANCEL
  | 11 => closed .resourceExhausted "Bandwidth exhausted"  -- NGHTTP2_ENHANCE_YOUR_CALM
  | 12 => closed .permissionDenied "Protocol not secure enough"  -- NGHTTP2_INADEQUATE_SECURITY
  | _ => closed .internal ""

/-! ### The state -/

namespace CallStream

/-- A function under way. -/
inductive Frame
  /-- The `'data'` handler at the head of its loop. -/
  | data (chunk : Buffer) (readHead : Nat) (canPush : Bool)
  /-- The `'data'` handler inside the `push` of its `tryPush`. -/
  | tryPush (chunk : Buffer) (readHead : Nat)
  /-- The `'end'` handler inside its `push(null)`. -/
  | endPush
  /-- `_read` at the head of its loop. -/
  | read
  /-- `_read` inside its `push(nextMessage)`. -/
  | readPush (nextMessage : Option Buffer)
  /-- `cancelWithStatus` inside the `emit('status')` of its `endCall`. -/
  | cancel
  deriving Repr, DecidableEq

/-- A promise of the filter stack that has not settled. -/
inductive Job
  | receiveMetadata (metadata : Metadata)
  | receiveTrailers (status : StatusObject)
  deriving DecidableEq

/-- The call stream, what happens around it, and what has come out of it. -/
structure State where
  call : Http2CallStream := {}
  stack : List Frame := []
  jobs : List Job := []
  /-- The bytes of the `'data'` events so far. -/
  received : Buffer := []
  /-- Which of the events that come once have come. -/
  responded : Bool := false
  trailed : Bool := false
  ended : Bool := false
  /-- The `_write` whose callback has not been called, and whether `_final` was. -/
  writing : Option Callback := none
  finished : Bool := false
  /-- The arguments of the `push` calls. -/
  pushed : List (Option Buffer) := []
  /-- The `'status'` and the `'metadata'` events. -/
  statuses : List StatusObject := []
  metadatas : List Metadata := []
  /-- The HTTP/2 streams that came after the end of the call. -/
  refused : List Http2Stream := []
  /-- Whether `cancelWithStatus` has been called. -/
  cancelled : Bool := false
  /-- The exceptions that escaped from a function. -/
  uncaught : List JsError := []
  deriving DecidableEq

/-- What can happen. -/
inductive Act
  | attachHttp2Stream
  | onResponse (headers : Headers)
  | onTrailers (headers : HeaderObject)
  | onData (chunk : Buffer)
  | onEnd
  | onStreamClosed (errorCode : Nat)
  | onError
  /-- The promise of the `i`-th job settles. -/
  | settle (i : Nat)
  | cancelWithStatus (status : Status) (details : String)
  | read
  | write (chunk : WriteObject) (cb : Callback)
  | final (cb : Callback)
  /-- The HTTP/2 stream is done with its oldest write. -/
  | writeDone
  /-- The innermost function goes through its loop once. -/
  | advance
  /-- The innermost `push` returns. -/
  | pushReturns (result : Bool)
  /-- The `emit` of the innermost `cancelWithStatus` returns. -/
  | cancelReturns
  deriving DecidableEq

namespace State

/-! ### The functions of the class -/

/-- `endCall(status)` -/
def endCall (s : State) (status : StatusObject) : State :=
  match s.call.finalStatus with
  | none =>
      { s with
        call := { s.call with finalStatus := some status }
        statuses := s.statuses ++ [status] }
  | some _ => s

/-- The end of `cancelWithStatus(status, details)`, after its `endCall`. -/
def resetStream (s : State) : State :=
  { s with call := s.call.onStream Http2Stream.rstWithCancel }

/-- `cancelWithStatus(status, details)`, up to the `emit` of its `endCall` if there is one. -/
def cancelWithStatus (s : State) (status : Status) (details : String) : State :=
  match s.call.finalStatus with
  | none =>
      { s.endCall ⟨status, details, Metadata.new⟩ with
        cancelled := true
        stack := .cancel :: s.stack }
  -- The HTTP/2 stream is reset even if the call had ended before.
  | some _ => { s.resetStream with cancelled := true }

/-- An exception that leaves the function. -/
def throw (s : State) (e : JsError) : State := { s with uncaught := s.uncaught ++ [e] }

/-- The end of `attachHttp2Stream(stream)`: `pendingFinalCallback`. -/
def attachFinal (s : State) (stream : Http2Stream) : State :=
  let stream := match s.call.pendingFinalCallback with
    | some cb => stream.endWith cb
    | none => stream
  { s with call := { s.call with http2Stream := some stream } }

/-- `attachHttp2Stream(stream)` -/
def attachHttp2Stream (s : State) : State :=
  match s.call.finalStatus with
  | some _ => { s with refused := s.refused ++ [Http2Stream.rstWithCancel {}] }
  | none =>
      let stream := Http2Stream.listen {}
      let stream := if s.call.pendingRead then stream else stream.pause
      match s.call.pendingWrite, s.call.pendingWriteCallback with
      | none, _ => s.attachFinal stream
      | some chunk, some cb => s.attachFinal (stream.write chunk cb)
      | some _, none =>
          { s with call := { s.call with http2Stream := some stream } }.throw
            (.error "Invalid state in write handling code")

/-- The `'response'` handler. -/
def onResponse (s : State) (headers : Headers) : State :=
  let s := { s with
    responded := true
    call := { s.call with mappedStatusCode := mapHttpStatus (headers.lookup ":status") } }
  match Metadata.fromHttp2Headers ((headers.erase ":status").erase "content-type") with
  | .ok metadata => { s with jobs := s.jobs ++ [.receiveMetadata metadata] }
  | .error e => s.cancelWithStatus .unknown e.message

/-- The `'trailers'` handler. -/
def onTrailers (s : State) (headers : HeaderObject) : State :=
  let s := { s with trailed := true }
  match trailersStatus s.call.mappedStatusCode headers with
  | .ok status => { s with jobs := s.jobs ++ [.receiveTrailers status] }
  | .error e => s.throw e

/-- What the handlers wait for: the promise of a job settles. -/
def settle (filterStack : ReceiveFilter) (s : State) : Job → State
  | .receiveMetadata metadata =>
      match filterStack.receiveMetadata metadata with
      | .ok finalMetadata => { s with metadatas := s.metadatas ++ [finalMetadata] }
      | .error e => s.cancelWithStatus .unknown e.message
  | .receiveTrailers status =>
      match filterStack.receiveTrailers status with
      | .ok finalStatus => s.endCall finalStatus
      | .error _ => s.endCall ⟨.internal, "Failed to process received status", Metadata.new⟩

/-- The `'data'` handler starts. -/
def onData (s : State) (chunk : Buffer) : State :=
  { s with received := s.received ++ chunk, stack := .data chunk 0 true :: s.stack }

/-- One pass through the loop of the `'data'` handler, up to the `push` of `tryPush`. -/
def dataPass (s : State) (rest : List Frame) (chunk : Buffer) (readHead : Nat)
    (canPush : Bool) : State :=
  if readHead < chunk.length then
    match s.call.decoder.pass chunk readHead with
    | (decoder, readHead, none) =>
        { s with
          call := { s.call with decoder := decoder }
          stack := .data chunk readHead canPush :: rest }
    | (decoder, readHead, some message) =>
        if canPush then
          -- The decoder is reset when `push` has returned.
          { s with
            call := { s.call with decoder := decoder }
            pushed := s.pushed ++ [some message]
            stack := .tryPush chunk readHead :: rest }
        else
          { s with
            call := { s.call with
              decoder := decoder.reset
              unpushedReadMessages := s.call.unpushedReadMessages ++ [some message] }
            stack := .data chunk readHead false :: rest }
  else { s with stack := rest }

/-- `tryPush` after its `push`, and `this.readState = ReadState.NO_DATA`. -/
def tryPushReturns (s : State) (rest : List Frame) (chunk : Buffer) (readHead : Nat)
    (result : Bool) : State :=
  let call := if result then s.call else s.call.onStream Http2Stream.pause
  { s with
    call := { call with decoder := call.decoder.reset }
    stack := .data chunk readHead result :: rest }

/-- The `'end'` handler. -/
def onEnd (s : State) : State :=
  if s.call.unpushedReadMessages.length = 0 then
    { s with ended := true, pushed := s.pushed ++ [none], stack := .endPush :: s.stack }
  else
    { s with
      ended := true
      call := { s.call with unpushedReadMessages := s.call.unpushedReadMessages ++ [none] } }

/-- `_read()` starts. -/
def read (s : State) : State :=
  match s.call.http2Stream with
  | none => { s with call := { s.call with pendingRead := true } }
  | some _ => { s with stack := .read :: s.stack }

/-- One pass through the loop of `_read`, up to its `push`. -/
def readPass (s : State) (rest : List Frame) : State :=
  match s.call.unpushedReadMessages with
  | nextMessage :: more =>
      { s with
        call := { s.call with unpushedReadMessages := more }
        pushed := s.pushed ++ [nextMessage]
        stack := .readPush nextMessage :: rest }
  | [] => { s with call := s.call.onStream Http2Stream.resume, stack := rest }

/-- `_write(chunk, encoding, cb)` -/
def write (s : State) (chunk : WriteObject) (cb : Callback) : State :=
  let encodedMessage := encodeMessage chunk
  let call := match s.call.http2Stream with
    | none =>
        { s.call with pendingWrite := some encodedMessage, pendingWriteCallback := some cb }
    | some stream => { s.call with http2Stream := some (stream.write encodedMessage cb) }
  { s with call, writing := some cb }

/-- `_final(cb)` -/
def final (s : State) (cb : Callback) : State :=
  let call := match s.call.http2Stream with
    | none => { s.call with pendingFinalCallback := some cb }
    | some stream => { s.call with http2Stream := some (stream.endWith cb) }
  { s with call, finished := true }

/-- The HTTP/2 stream calls the callback of its oldest write. -/
def writeDone? (s : State) : Option State := do
  let stream ← s.call.http2Stream
  match stream.callbacks with
  | [] => none
  | cb :: callbacks =>
      some { s with
        call := { s.call with http2Stream := some { stream with callbacks } }
        writing := if s.writing = some cb then none else s.writing }

/-! ### Steps -/

/-- Whether the HTTP/2 stream is paused. -/
def paused (s : State) : Bool := s.call.http2Stream.any Http2Stream.paused

/-- An event of the HTTP/2 stream can be delivered: handlers are attached, and no
JavaScript is running. -/
def idle (s : State) : Bool := s.stack.isEmpty && s.call.http2Stream.isSome

/-- Whether the consumer can call `_read`, or anybody `cancelWithStatus`: nothing is
running, or foreign code is, which a `push` or an `emit` runs. -/
def canRead (s : State) : Bool :=
  match s.stack with
  | [] | .tryPush _ _ :: _ | .endPush :: _ | .readPush _ :: _ | .cancel :: _ => true
  | .data _ _ _ :: _ | .read :: _ => false

end State

/-- One step; `none` if it is not possible. The HTTP/2 stream emits `'data'` and `'end'`
only while it is not paused, and nothing after `'end'`; the writer keeps Node's contract,
one `_write` at a time and `_final` last. The channel attaches one HTTP/2 stream to a call
that has not ended; to one that has, any number may be offered. -/
def step (filterStack : ReceiveFilter) (s : State) : Act → Option State
  | .attachHttp2Stream =>
      when (s.stack = [] ∧ (s.call.http2Stream = none ∨ s.call.finalStatus ≠ none))
        s.attachHttp2Stream
  | .onResponse headers => when (s.idle ∧ !s.responded) (s.onResponse headers)
  | .onTrailers headers => when (s.idle ∧ !s.trailed) (s.onTrailers headers)
  | .onData chunk => when (s.idle ∧ !s.paused ∧ !s.ended) (s.onData chunk)
  | .onEnd => when (s.idle ∧ !s.paused ∧ !s.ended) s.onEnd
  | .onStreamClosed errorCode => when s.idle (s.endCall (streamClosedStatus errorCode))
  | .onError =>
      when s.idle (s.endCall ⟨.internal, "Internal HTTP2 error", Metadata.new⟩)
  | .settle i =>
      match s.stack, s.jobs[i]? with
      | [], some job => some ({ s with jobs := s.jobs.eraseIdx i }.settle filterStack job)
      | _, _ => none
  | .cancelWithStatus status details => when s.canRead (s.cancelWithStatus status details)
  | .read => when s.canRead s.read
  | .write chunk cb => when (s.writing = none ∧ !s.finished) (s.write chunk cb)
  | .final cb => when (s.writing = none ∧ !s.finished) (s.final cb)
  | .writeDone => if s.stack = [] then s.writeDone? else none
  | .advance =>
      match s.stack with
      | .data chunk readHead canPush :: rest => some (s.dataPass rest chunk readHead canPush)
      | .read :: rest => some (s.readPass rest)
      | _ => none
  | .pushReturns result =>
      match s.stack with
      | .tryPush chunk readHead :: rest => some (s.tryPushReturns rest chunk readHead result)
      | .endPush :: rest => some { s with stack := rest }
      | .readPush nextMessage :: rest =>
          -- The loop of `_read` goes on as long as `push` asks for more.
          if nextMessage = none ∨ result = false then some { s with stack := rest }
          else some { s with stack := .read :: rest }
      | _ => none
  | .cancelReturns =>
      match s.stack with
      | .cancel :: rest => some { s.resetStream with stack := rest }
      | _ => none

/-- A new `Http2CallStream`. -/
def State.initial : State := {}

/-! ### What a step can be -/

theorem State.idle_iff {s : State} : s.idle = true ↔ s.stack = [] ∧ s.call.http2Stream ≠ none := by
  simp [State.idle, Option.isSome_iff_ne_none]

/-- Where foreign code runs, no loop is at its head. -/
theorem State.not_looping_of_canRead {s : State} (h : s.canRead = true) :
    (∀ chunk readHead canPush rest, s.stack ≠ .data chunk readHead canPush :: rest) ∧
      ∀ rest, s.stack ≠ .read :: rest := by
  constructor
  · intro chunk readHead canPush rest hstack
    simp [canRead, hstack] at h
  · intro rest hstack
    simp [canRead, hstack] at h

theorem State.canRead_of_idle {s : State} (h : s.stack = []) : s.canRead = true := by
  rw [canRead, h]

/-- The steps, each with what makes it possible. -/
inductive Effect (filterStack : ReceiveFilter) (s : State) : Act → State → Prop
  | attachHttp2Stream : s.stack = [] →
      s.call.http2Stream = none ∨ s.call.finalStatus ≠ none →
      Effect filterStack s .attachHttp2Stream s.attachHttp2Stream
  | onResponse (headers : Headers) : s.idle = true → s.responded = false →
      Effect filterStack s (.onResponse headers) (s.onResponse headers)
  | onTrailers (headers : HeaderObject) : s.idle = true → s.trailed = false →
      Effect filterStack s (.onTrailers headers) (s.onTrailers headers)
  | onData (chunk : Buffer) : s.idle = true → s.paused = false → s.ended = false →
      Effect filterStack s (.onData chunk) (s.onData chunk)
  | onEnd : s.idle = true → s.paused = false → s.ended = false →
      Effect filterStack s .onEnd s.onEnd
  | onStreamClosed (errorCode : Nat) : s.idle = true →
      Effect filterStack s (.onStreamClosed errorCode) (s.endCall (streamClosedStatus errorCode))
  | onError : s.idle = true →
      Effect filterStack s .onError
        (s.endCall ⟨.internal, "Internal HTTP2 error", Metadata.new⟩)
  | settle {i : Nat} {job : Job} : s.stack = [] → s.jobs[i]? = some job →
      Effect filterStack s (.settle i) ({ s with jobs := s.jobs.eraseIdx i }.settle filterStack job)
  | cancelWithStatus (status : Status) (details : String) : s.canRead = true →
      Effect filterStack s (.cancelWithStatus status details) (s.cancelWithStatus status details)
  | read : s.canRead = true → Effect filterStack s .read s.read
  | write (chunk : WriteObject) (cb : Callback) : s.writing = none → s.finished = false →
      Effect filterStack s (.write chunk cb) (s.write chunk cb)
  | final (cb : Callback) : s.writing = none → s.finished = false →
      Effect filterStack s (.final cb) (s.final cb)
  | writeDone {s' : State} : s.stack = [] → s.writeDone? = some s' →
      Effect filterStack s .writeDone s'
  | dataPass {chunk : Buffer} {readHead : Nat} {canPush : Bool} {rest : List Frame} :
      s.stack = .data chunk readHead canPush :: rest →
      Effect filterStack s .advance (s.dataPass rest chunk readHead canPush)
  | readPass {rest : List Frame} : s.stack = .read :: rest →
      Effect filterStack s .advance (s.readPass rest)
  | tryPushReturns {chunk : Buffer} {readHead : Nat} {rest : List Frame} (result : Bool) :
      s.stack = .tryPush chunk readHead :: rest →
      Effect filterStack s (.pushReturns result) (s.tryPushReturns rest chunk readHead result)
  | endPushReturns {rest : List Frame} (result : Bool) : s.stack = .endPush :: rest →
      Effect filterStack s (.pushReturns result) { s with stack := rest }
  | readStops {nextMessage : Option Buffer} {rest : List Frame} {result : Bool} :
      s.stack = .readPush nextMessage :: rest → nextMessage = none ∨ result = false →
      Effect filterStack s (.pushReturns result) { s with stack := rest }
  | readGoesOn {nextMessage : Option Buffer} {rest : List Frame} {result : Bool} :
      s.stack = .readPush nextMessage :: rest → ¬ (nextMessage = none ∨ result = false) →
      Effect filterStack s (.pushReturns result) { s with stack := .read :: rest }
  | cancelReturns {rest : List Frame} : s.stack = .cancel :: rest →
      Effect filterStack s .cancelReturns { s.resetStream with stack := rest }

theorem step_effect {filterStack : ReceiveFilter} {s s' : State} {a : Act}
    (h : step filterStack s a = some s') : Effect filterStack s a s' := by
  cases a with
  | attachHttp2Stream =>
      obtain ⟨⟨hstack, hfree⟩, rfl⟩ := Runs.when_eq_some.mp h
      exact .attachHttp2Stream hstack hfree
  | onResponse headers =>
      obtain ⟨⟨hidle, hfirst⟩, rfl⟩ := Runs.when_eq_some.mp h
      exact .onResponse headers hidle (by simpa using hfirst)
  | onTrailers headers =>
      obtain ⟨⟨hidle, hfirst⟩, rfl⟩ := Runs.when_eq_some.mp h
      exact .onTrailers headers hidle (by simpa using hfirst)
  | onData chunk =>
      obtain ⟨⟨hidle, hpaused, hended⟩, rfl⟩ := Runs.when_eq_some.mp h
      exact .onData chunk hidle (by simpa using hpaused) (by simpa using hended)
  | onEnd =>
      obtain ⟨⟨hidle, hpaused, hended⟩, rfl⟩ := Runs.when_eq_some.mp h
      exact .onEnd hidle (by simpa using hpaused) (by simpa using hended)
  | onStreamClosed errorCode =>
      obtain ⟨hidle, rfl⟩ := Runs.when_eq_some.mp h
      exact .onStreamClosed errorCode hidle
  | onError =>
      obtain ⟨hidle, rfl⟩ := Runs.when_eq_some.mp h
      exact .onError hidle
  | settle i =>
      simp only [step] at h
      split at h
      · rename_i hstack hjob
        obtain rfl := Option.some.inj h
        exact .settle hstack hjob
      · exact absurd h nofun
  | cancelWithStatus status details =>
      obtain ⟨hrun, rfl⟩ := Runs.when_eq_some.mp h
      exact .cancelWithStatus status details hrun
  | read =>
      obtain ⟨hread, rfl⟩ := Runs.when_eq_some.mp h
      exact .read hread
  | write chunk cb =>
      obtain ⟨⟨hwriting, hfinished⟩, rfl⟩ := Runs.when_eq_some.mp h
      exact .write chunk cb hwriting (by simpa using hfinished)
  | final cb =>
      obtain ⟨⟨hwriting, hfinished⟩, rfl⟩ := Runs.when_eq_some.mp h
      exact .final cb hwriting (by simpa using hfinished)
  | writeDone =>
      simp only [step] at h
      split at h
      · rename_i hstack
        exact .writeDone hstack h
      · exact absurd h nofun
  | advance =>
      simp only [step] at h
      split at h
      · rename_i hstack
        obtain rfl := Option.some.inj h
        exact .dataPass hstack
      · rename_i hstack
        obtain rfl := Option.some.inj h
        exact .readPass hstack
      · exact absurd h nofun
  | pushReturns result =>
      simp only [step] at h
      split at h
      · rename_i hstack
        obtain rfl := Option.some.inj h
        exact .tryPushReturns result hstack
      · rename_i hstack
        obtain rfl := Option.some.inj h
        exact .endPushReturns result hstack
      · rename_i hstack
        split at h
        · rename_i hstops
          obtain rfl := Option.some.inj h
          exact .readStops hstack hstops
        · rename_i hgoesOn
          obtain rfl := Option.some.inj h
          exact .readGoesOn hstack hgoesOn
      · exact absurd h nofun
  | cancelReturns =>
      simp only [step] at h
      split at h
      · rename_i hstack
        obtain rfl := Option.some.inj h
        exact .cancelReturns hstack
      · exact absurd h nofun

end CallStream

end GrpcNode.JsCore
