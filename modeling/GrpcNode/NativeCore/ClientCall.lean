import GrpcNode.Lib.Discipline
import GrpcNode.NativeCore.ClientReadStream
import GrpcNode.NativeCore.ServerWriteStream
import GrpcNode.NativeCore.ServiceDefinition

/-!
# GrpcNode.NativeCore.ClientCall

The batches of a call of `client.js`: those of `makeUnaryRequest`, `makeClientStreamRequest`,
`makeServerStreamRequest` and `makeBidiStreamRequest`, those of `_write` and of `'finish'`, and those
of the streams that read.

The core refuses a batch with an operation that is in progress, or that may be used only once and
has been. `client.js` does not look at what `startBatch` has to say about this, so the streams have
to see to it that it does not happen: `always_obeys`. `always_writes` is about the messages that
are written, and about the callbacks of the writes.
-/

namespace GrpcNode.NativeCore

open GrpcNode.Js
open GrpcNode.JsCore (Status)

/-- `new ClientWritableStream(call, …)` or `new ClientDuplexStream(call, …)` is made. -/
def MethodType.writes : MethodType → Bool
  | clientStream | bidi => true
  | unary | serverStream => false

/-- `new ClientReadableStream(call, …)` or `new ClientDuplexStream(call, …)` is made. -/
def MethodType.reads : MethodType → Bool
  | serverStream | bidi => true
  | unary | clientStream => false

namespace ClientCall

/-- The rules of the core for the operations of a client -/
def coreRules : Discipline.Rules OpType where
  once type := type ≠ .sendMessage ∧ type ≠ .recvMessage
  ends type type' := type = .sendCloseFromClient ∧ type' = .sendMessage

/-- What has been started on a call, and what has been completed. -/
abbrev History := List (Discipline.Event CoreOp OpType)

structure State (β : Type*) where
  type : MethodType
  /-- The stream, if it reads. `RECV_STATUS_ON_CLIENT` and the release of the call are kept track
  of here, whether it does or not. -/
  reader : ClientReadStream.State β := {}
  /-- The first batch of a call that starts two has not completed. -/
  metadataOutstanding : Bool := false
  /-- `stream.writeFailed` -/
  writeFailed : Bool := false
  /-- `_write` has been called, and its callback has not. -/
  writing : Bool := false
  /-- The callback of `_write` is called by `setImmediate`. -/
  immediate : Bool := false
  /-- The batch of `_write` has not completed. -/
  writeOutstanding : Bool := false
  /-- An exception has come out of `_write`. -/
  threw : Bool := false
  /-- `end()` has been called. -/
  ended : Bool := false
  /-- `'finish'` has been emitted. -/
  finished : Bool := false
  /-- The batch with `SEND_CLOSE_FROM_CLIENT` alone has not completed. -/
  closeOutstanding : Bool := false
  /-- The messages that have been serialized. -/
  serialized : List Buffer := []
  /-- The arguments of `call.cancelWithStatus` in `_write`. -/
  cancelled : List (Nat × String) := []
  history : History := []

inductive Act (γ : Type*)
  /-- There is no chunk if it is `undefined`. -/
  | write (chunk : Option γ) (encoding : JsValue)
  | writeCompletes (completion : Completion Unit)
  /-- The callback of `setImmediate` runs. -/
  | immediate
  | streamEnd
  | finish
  | closeCompletes
  /-- The first batch of a call that starts two completes. -/
  | metadataCompletes
  /-- The batch with `RECV_STATUS_ON_CLIENT` completes, of a call without a stream that reads. -/
  | responseCompletes
  /-- Something happens to the stream that reads. -/
  | reader (a : ClientReadStream.Act)
  | releaseCall

/-! ### The requests -/

variable {core : Core} {ε α β γ : Type*}

/-- `message = serialize(argument)`, with the flags of the options for its flags. `none` is an
exception. -/
def requestMessage (serialize : α → Except ε JsValue) (argument : α) (flags : Option JsValue) :
    Option JsValue := do
  let message ← (serialize argument).toOption
  match flags with
  | some flags => message.put "grpcWriteFlags" flags
  | none => some message

/-- The message that a value is, if it can be sent. -/
def message? : JsValue → Option Buffer
  | .buffer bytes _ => some bytes
  | _ => none

/-- `client_batch` of `makeUnaryRequest` -/
def unaryBatch (metadata : Metadata core) (message : JsValue) : Batch :=
  [(.sendInitialMetadata, metadata.getCoreRepresentation),
    (.sendMessage, message),
    (.sendCloseFromClient, .boolean true),
    (.recvInitialMetadata, .boolean true),
    (.recvMessage, .boolean true),
    (.recvStatusOnClient, .boolean true)]

/-- `metadata_batch` of `makeClientStreamRequest`, and `start_batch` of `makeBidiStreamRequest` -/
def metadataBatch (metadata : Metadata core) : Batch :=
  [(.sendInitialMetadata, metadata.getCoreRepresentation),
    (.recvInitialMetadata, .boolean true)]

/-- `start_batch` of `makeServerStreamRequest` -/
def messageBatch (metadata : Metadata core) (message : JsValue) : Batch :=
  [(.sendInitialMetadata, metadata.getCoreRepresentation),
    (.sendMessage, message),
    (.sendCloseFromClient, .boolean true),
    (.recvInitialMetadata, .boolean true)]

/-- `client_batch` of `makeClientStreamRequest` -/
def responseBatch : Batch :=
  [(.recvMessage, .boolean true), (.recvStatusOnClient, .boolean true)]

/-- `status_batch` -/
def statusBatch : Batch := [(.recvStatusOnClient, .boolean true)]

/-- A batch is started. -/
def State.start (s : State β) (ops : List CoreOp) : State β :=
  { s with history := s.history ++ [.start ops] }

/-- `call.startBatch(batch, …)` on a new call, for one batch after the other. -/
def State.startBatches (core : Core) (s : State β) : List Batch → Option (State β)
  | [] => some s
  | batch :: batches =>
      match NativeCore.startBatch core batch with
      | .ok ops => (s.start ops).startBatches core batches
      | .error _ => none

/-- `makeUnaryRequest`, `makeClientStreamRequest`, `makeServerStreamRequest` and
`makeBidiStreamRequest`, once the arguments are sorted out. `none` is an exception. -/
def make (core : Core) (serialize : α → Except ε JsValue) (argument : α)
    (metadata : Metadata core) (flags : Option JsValue) : MethodType → Option (State β)
  | .unary =>
      (requestMessage serialize argument flags).bind fun message =>
        State.startBatches core { type := .unary, serialized := (message? message).toList }
          [unaryBatch metadata.clone message]
  | .clientStream =>
      State.startBatches core { type := .clientStream, metadataOutstanding := true }
        [metadataBatch metadata.clone, responseBatch]
  | .serverStream =>
      (requestMessage serialize argument flags).bind fun message =>
        State.startBatches core
          { type := .serverStream
            metadataOutstanding := true
            serialized := (message? message).toList }
          [messageBatch metadata.clone message, statusBatch]
  | .bidi =>
      State.startBatches core { type := .bidi, metadataOutstanding := true }
        [metadataBatch metadata.clone, statusBatch]

/-- The operations of the first batch of a call that starts two. -/
def metadataOps : MethodType → List OpType
  | .unary => []
  | .clientStream | .bidi => [.sendInitialMetadata, .recvInitialMetadata]
  | .serverStream =>
      [.sendInitialMetadata, .sendMessage, .sendCloseFromClient, .recvInitialMetadata]

/-- The operations of the batch with `RECV_STATUS_ON_CLIENT`. -/
def statusOps : MethodType → List OpType
  | .unary => [.sendInitialMetadata, .sendMessage, .sendCloseFromClient, .recvInitialMetadata,
      .recvMessage, .recvStatusOnClient]
  | .clientStream => [.recvMessage, .recvStatusOnClient]
  | .serverStream | .bidi => [.recvStatusOnClient]

/-! ### The streams -/

namespace State

variable (s : State β)

/-- What has been started on the call and has not completed. -/
def outstanding : List OpType :=
  (if s.metadataOutstanding then metadataOps s.type else []) ++
  (if s.reader.statusOutstanding then statusOps s.type else []) ++
  (if s.writeOutstanding then [.sendMessage] else []) ++
  (if s.closeOutstanding then [.sendCloseFromClient] else []) ++
  List.replicate s.reader.reads .recvMessage

/-- A batch with such operations completes. -/
def complete (types : List OpType) : State β :=
  { s with history := s.history ++ [.complete types] }

/-- `call.startBatch(batch, callback)`, in `_write` -/
def startWrite (core : Core) (batch : Batch) : State β :=
  if s.reader.callReleased then
    -- The callback is called with an error, at once.
    { s with writeFailed := true, writing := false }
  else match NativeCore.startBatch core batch with
    | .ok ops => { s with writeOutstanding := true }.start ops
    | .error _ => { s with threw := true }

/-- The message, with the encoding for its flags if it is a finite number. `none` is an exception. -/
def flagged (message encoding : JsValue) : Option JsValue :=
  if encoding.isFinite then message.put "grpcWriteFlags" encoding else some message

/-- `_write`, when the message has been serialized -/
def writeMessage (core : Core) (message : JsValue) (encoding : JsValue) : State β :=
  match flagged message encoding with
  | some value =>
      { s with serialized := s.serialized ++ (message? message).toList }.startWrite core
        [(.sendMessage, value)]
  | none => { s with threw := true }

/-- `_write(chunk, encoding, callback)` -/
def write (core : Core) (serialize : γ → Except ε JsValue) (chunk : Option γ) (encoding : JsValue) :
    State β :=
  if s.writeFailed then { s with writing := true, immediate := true }
  else match wrapIgnoreNull serialize chunk with
    | .error _ =>
        -- The callback is called with the exception.
        { s with cancelled := s.cancelled ++ [(Status.internal.toNat, "Serialization failure")] }
    | .ok message => { s with writing := true }.writeMessage core (message.getD .null) encoding

/-- The callback of the batch in `_write` -/
def writeCompletes (completion : Completion Unit) : State β :=
  { s with
    writeOutstanding := false
    writeFailed := s.writeFailed || completion.err?.isSome
    writing := false }.complete [.sendMessage]

/-- The listener of `'finish'` -/
def finish (core : Core) : State β :=
  if s.reader.callReleased then { s with finished := true }
  else match NativeCore.startBatch core [(.sendCloseFromClient, .boolean true)] with
    | .ok ops => { s with finished := true, closeOutstanding := true }.start ops
    | .error _ => { s with finished := true }

/-- The batch with `RECV_STATUS_ON_CLIENT` completes if it is no longer outstanding. -/
def statusEvents (outstanding outstanding' : Bool) : History :=
  if outstanding && !outstanding' then [.complete (statusOps s.type)] else []

/-- What a step of the stream that reads completes and starts, by the number of its batches that
are outstanding before and after it. -/
def readEvents (reads reads' : Nat) : History :=
  if reads' < reads then [.complete [.recvMessage]]
  else if reads < reads' then [.start [.recvMessage]]
  else []

/-- A step of the stream that reads -/
def withReader (reader : ClientReadStream.State β) : State β :=
  { s with
    reader
    history := s.history ++
      s.statusEvents s.reader.statusOutstanding reader.statusOutstanding ++
      readEvents s.reader.reads reader.reads }

end State

/-- Node calls `_write` when the callback of the write before it has been called, and emits
`'finish'` once, after `end()` and when no write is going on. The addon releases the call when
nothing is outstanding. -/
def step (core : Core) (serialize : γ → Except ε JsValue) (deserialize : Buffer → Except ε β)
    (s : State β) : Act γ → Option (State β)
  | .write chunk encoding =>
      Runs.when (s.type.writes = true ∧ s.writing = false ∧ s.finished = false)
        (s.write core serialize chunk encoding)
  | .writeCompletes completion =>
      Runs.when (s.writeOutstanding = true) (s.writeCompletes completion)
  | .immediate =>
      Runs.when (s.immediate = true) { s with immediate := false, writing := false }
  | .streamEnd => Runs.when (s.type.writes = true) { s with ended := true }
  | .finish =>
      Runs.when (s.ended = true ∧ s.writing = false ∧ s.finished = false) (s.finish core)
  | .closeCompletes =>
      Runs.when (s.closeOutstanding = true)
        ({ s with closeOutstanding := false }.complete [.sendCloseFromClient])
  | .metadataCompletes =>
      Runs.when (s.metadataOutstanding = true)
        ({ s with metadataOutstanding := false }.complete (metadataOps s.type))
  | .responseCompletes =>
      Runs.when (s.type.reads = false ∧ s.reader.statusOutstanding = true)
        ({ s with reader := { s.reader with statusOutstanding := false } }.complete
          (statusOps s.type))
  | .reader .releaseCall => none
  | .reader a =>
      if s.type.reads then (ClientReadStream.step deserialize s.reader a).map s.withReader else none
  | .releaseCall =>
      Runs.when (s.outstanding = [])
        { s with reader := { s.reader with callReleased := true } }

end ClientCall

/-! ### Types -/

theorem parseOp_type {core : Core} {type : OpType} {value : JsValue} {op : CoreOp}
    (h : parseOp core type value = some op) : op.type = type := by
  cases type with
  | sendInitialMetadata =>
      simp only [parseOp, SendMetadataOp.parseOp] at h
      split at h
      · obtain ⟨array, -, rfl⟩ := Option.map_eq_some_iff.mp h
        rfl
      · cases h
  | sendMessage =>
      cases value with
      | buffer bytes own => exact congrArg CoreOp.type (Option.some.inj h).symm
      | _ => cases h
  | sendStatusFromServer =>
      simp only [parseOp, SendServerStatusOp.parseOp, Option.bind_eq_bind] at h
      split at h
      · cases h
      · split at h
        · cases h
        · simp only [Option.pure_def, Option.bind_eq_some_iff] at h
          obtain ⟨code, -, details, -, array, -, hop⟩ := h
          exact congrArg CoreOp.type (Option.some.inj hop).symm
  | sendCloseFromClient | recvInitialMetadata | recvMessage | recvStatusOnClient
  | recvCloseOnServer => exact congrArg CoreOp.type (Option.some.inj h).symm

theorem startBatch_types {core : Core} {batch : Batch} {ops : List CoreOp}
    (h : startBatch core batch = .ok ops) : ops.map CoreOp.type = batch.map Prod.fst := by
  induction batch generalizing ops with
  | nil =>
      obtain rfl := Except.ok.inj h
      rfl
  | cons e batch ih =>
      obtain ⟨type, value⟩ := e
      simp only [startBatch] at h
      cases hop : parseOp core type value with
      | none => simp [hop] at h
      | some op =>
          rw [hop] at h
          cases hops : startBatch core batch with
          | error e => simp [hops, Except.map] at h
          | ok ops' =>
              rw [hops] at h
              obtain rfl := Except.ok.inj h
              rw [List.map_cons, List.map_cons, parseOp_type hop, ih hops]

end GrpcNode.NativeCore
