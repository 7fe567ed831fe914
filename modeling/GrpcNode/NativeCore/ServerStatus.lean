import GrpcNode.JsCore.Status
import GrpcNode.NativeCore.Batch

/-!
# GrpcNode.NativeCore.ServerStatus

The statuses that `server.js` makes of the errors of handlers: `handleError` for unary and
client-streaming calls, and `setStatus` with `sendStatus` for the others.

Both copy whatever the error has under `code`, `details` and `message`. `Sendable` says which
errors survive the typed check of the batch (`errorSent_iff`).
-/

namespace GrpcNode.NativeCore

open GrpcNode.Js
open GrpcNode.JsCore (Status)

variable {core : Core}

/-- An error that a handler reports, by its own properties. -/
structure ErrorObject (core : Core) where
  code : Option JsValue := none
  details : Option JsValue := none
  message : Option JsValue := none
  metadata : Option (Metadata core) := none

/-- A status object, before the metadata is given in its core representation. -/
structure StatusObject (core : Core) where
  code : JsValue
  details : JsValue
  metadata : Metadata core

/-- `constants.status` -/
def statusCode (status : Status) : JsValue := .number (.finite status.toNat)

/-- An error that was thrown by the serializer or the deserializer, after
`e.code = constants.status.INTERNAL` -/
def ErrorObject.internal (e : ErrorObject core) : ErrorObject core :=
  { e with code := some (statusCode .internal) }

/-- The object that goes into the batch. -/
def StatusObject.toValue (status : StatusObject core) : JsValue :=
  .object [("code", status.code), ("details", status.details),
    ("metadata", status.metadata.getCoreRepresentation)]

/-- The batch of a status, with empty initial metadata if none have been sent. -/
def statusBatch (metadataSent : Bool) (status : StatusObject core) : Batch :=
  (if metadataSent then []
    else [(.sendInitialMetadata, (Metadata.new : Metadata core).getCoreRepresentation)]) ++
  [(.sendStatusFromServer, status.toValue)]

/-! ### Unary and client-streaming calls -/

/-- The status that `handleError` makes. -/
def handleErrorStatus (error : ErrorObject core) : StatusObject core :=
  let status : StatusObject core :=
    { code := statusCode .unknown, details := .string "Unknown Error", metadata := .new }
  let status := match error.message with
    | some message => { status with details := message }
    | none => status
  let status := match error.code with
    | some code =>
        -- The details of an error without a code are not looked at.
        let status := { status with code }
        match error.details with
        | some details => { status with details }
        | none => status
    | none => status
  match error.metadata with
  | some metadata => { status with metadata }
  | none => status

/-- `handleError(call, error)`, as what `startBatch` does -/
def handleError (metadataSent : Bool) (error : ErrorObject core) : Except JsError (List CoreOp) :=
  startBatch core (statusBatch metadataSent (handleErrorStatus error))

/-- The callback of a handler, `callback(err, value, trailer)`, with an error -/
def sendUnaryError (metadataSent : Bool) (err : ErrorObject core)
    (trailer : Option (Metadata core)) : Except JsError (List CoreOp) :=
  match trailer with
  | some trailer => handleError metadataSent { err with metadata := some trailer }
  | none => handleError metadataSent err

/-! ### Server-streaming and bidirectional calls -/

/-- What `setUpWritable` adds to a stream, and the flag of its call. -/
structure WritableStream (core : Core) where
  metadataSent : Bool := false
  status : StatusObject core :=
    { code := statusCode .ok, details := .string "OK", metadata := .new }

/-- `setStatus(err)` -/
def WritableStream.setStatus (stream : WritableStream core) (err : ErrorObject core) :
    WritableStream core :=
  let code := statusCode .unknown
  let details := JsValue.string "Unknown Error"
  let metadata : Metadata core := .new
  let details := err.message.getD details
  let (code, details) := match err.code with
    | some code => (code, err.details.getD details)
    | none => (code, details)
  let metadata := err.metadata.getD metadata
  { stream with status := { code, details, metadata } }

/-- `sendStatus()`, as what `startBatch` does -/
def WritableStream.sendStatus (stream : WritableStream core) : Except JsError (List CoreOp) :=
  startBatch core (statusBatch stream.metadataSent stream.status)

/-! ### Errors and what becomes of them -/

/-- The ways in which a handler can report an error: to its callback, with a trailer or
without, or with the event `'error'`. -/
inductive Report (core : Core)
  | unaryCallback (trailer : Option (Metadata core))
  | unaryEvent
  | clientStreamCallback (trailer : Option (Metadata core))
  | clientStreamEvent
  | serverStreamEvent
  | bidiEvent

/-- What `startBatch` does in the end. For the streams `metadataSent` is about the time when the
writes have been drained. -/
def Report.send (report : Report core) (metadataSent : Bool) (error : ErrorObject core) :
    Except JsError (List CoreOp) :=
  match report with
  | unaryCallback trailer | clientStreamCallback trailer =>
      sendUnaryError metadataSent error trailer
  | unaryEvent | clientStreamEvent => handleError metadataSent error
  | serverStreamEvent | bidiEvent =>
      (({ metadataSent } : WritableStream core).setStatus error).sendStatus

/-- `startBatch` does not throw, and the core gets a status that is not `OK`. -/
def ErrorSent (result : Except JsError (List CoreOp)) : Prop :=
  ∃ ops status, result = .ok ops ∧ .sendStatusFromServer status ∈ ops ∧
    status.status ≠ Status.ok.toNat

/-- The code, if the error has one, is a uint32 other than `OK`, and what is taken for the
details, if it has that, is a string: its details, if it has both these and a code, and its
message otherwise. -/
structure ErrorObject.Sendable (error : ErrorObject core) : Prop where
  code : ∀ code, error.code = some code → ∃ n, code.uint32? = some n ∧ n ≠ Status.ok.toNat
  details : ∀ details, error.details = some details → error.code ≠ none →
    ∃ s, details = .string s
  message : ∀ message, error.message = some message → error.code = none ∨ error.details = none →
    ∃ s, message = .string s

/-- Both functions make the same status of an error. -/
theorem setStatus_eq_handleErrorStatus (stream : WritableStream core) (err : ErrorObject core) :
    (stream.setStatus err).status = handleErrorStatus err := by
  rcases err with ⟨code, details, message, metadata⟩
  cases code <;> cases details <;> cases message <;> cases metadata <;> rfl

/-- Empty initial metadata are always accepted. -/
theorem startBatch_initialMetadata (metadataSent : Bool) (batch : Batch) :
    startBatch core ((if metadataSent then []
        else [(.sendInitialMetadata, (Metadata.new : Metadata core).getCoreRepresentation)]) ++
      batch) =
      (startBatch core batch).map
        ((if metadataSent then [] else [.sendInitialMetadata []]) ++ ·) := by
  cases metadataSent with
  | true =>
      show startBatch core batch = (startBatch core batch).map ([] ++ ·)
      cases startBatch core batch <;> rfl
  | false => rfl

/-- The loop over a batch with one more operation. -/
theorem startBatch_initialMetadata_append (metadataSent : Bool) (type : OpType) (value : JsValue) :
    startBatch core ((if metadataSent then []
        else [(.sendInitialMetadata, (Metadata.new : Metadata core).getCoreRepresentation)]) ++
      [(type, value)]) =
      match parseOp core type value with
      | some op => .ok ((if metadataSent then [] else [.sendInitialMetadata []]) ++ [op])
      | none => .error (.typeError "Incorrectly typed arguments to startBatch") := by
  rw [startBatch_initialMetadata, startBatch]
  cases parseOp core type value <;> rfl

theorem startBatch_statusBatch_eq (metadataSent : Bool) (status : StatusObject core) :
    startBatch core (statusBatch metadataSent status) =
      match SendServerStatusOp.parseOp core status.toValue with
      | some op => .ok ((if metadataSent then [] else [.sendInitialMetadata []]) ++ [op])
      | none => .error (.typeError "Incorrectly typed arguments to startBatch") :=
  startBatch_initialMetadata_append metadataSent .sendStatusFromServer status.toValue

/-- What is sent first does not matter for the status. -/
theorem startBatch_statusBatch (metadataSent : Bool) (status : StatusObject core) :
    ∃ first : List CoreOp, (∀ s, .sendStatusFromServer s ∉ first) ∧
      startBatch core (statusBatch metadataSent status) =
        match SendServerStatusOp.parseOp core status.toValue with
        | some op => .ok (first ++ [op])
        | none => .error (.typeError "Incorrectly typed arguments to startBatch") := by
  refine ⟨_, fun s => ?_, startBatch_statusBatch_eq metadataSent status⟩
  cases metadataSent with
  | true => exact List.not_mem_nil
  | false => exact fun hs => absurd (List.mem_singleton.mp hs) nofun

/-- The batch is accepted, and as an error, exactly if the code and the details are right. -/
theorem errorSent_statusBatch {metadataSent : Bool} {status : StatusObject core} :
    ErrorSent (startBatch core (statusBatch metadataSent status)) ↔
      (∃ n, status.code.uint32? = some n ∧ n ≠ Status.ok.toNat) ∧
        ∃ s, status.details = .string s := by
  obtain ⟨first, hfirst, hbatch⟩ := startBatch_statusBatch metadataSent status
  rw [hbatch]
  constructor
  · rintro ⟨ops, sent, hops, hmem, hcode⟩
    cases hop : SendServerStatusOp.parseOp core status.toValue with
    | none =>
        rw [hop] at hops
        exact absurd hops nofun
    | some op =>
        obtain ⟨n, s, array, hn, hs, -, rfl⟩ := sendServerStatusOp_eq_some_iff.mp hop
        rw [hop, Except.ok.injEq] at hops
        rw [← hops, List.mem_append, List.mem_singleton] at hmem
        obtain rfl := CoreOp.sendStatusFromServer.inj (hmem.resolve_left (hfirst sent))
        exact ⟨⟨n, hn, hcode⟩, s, JsValue.string?_eq_some_iff.mp hs⟩
  · rintro ⟨⟨n, hn, hcode⟩, s, hs⟩
    obtain ⟨array, harray⟩ := createMetadataArray_coreRepresentation status.metadata
    have hop : SendServerStatusOp.parseOp core status.toValue =
        some (.sendStatusFromServer ⟨array, n, createSliceFromString s⟩) :=
      sendServerStatusOp_eq_some_iff.mpr
        ⟨n, s, array, hn, JsValue.string?_eq_some_iff.mpr hs, harray, rfl⟩
    rw [hop]
    exact ⟨_, _, rfl, List.mem_append_right first (List.mem_singleton_self _), hcode⟩

theorem handleErrorStatus_code (error : ErrorObject core) :
    (handleErrorStatus error).code = error.code.getD (statusCode .unknown) := by
  rcases error with ⟨code, details, message, metadata⟩
  cases code <;> cases details <;> cases message <;> cases metadata <;> rfl

/-- The details are only looked at if there is a code. -/
theorem handleErrorStatus_details (error : ErrorObject core) :
    (handleErrorStatus error).details = match error.code, error.details with
      | some _, some details => details
      | _, _ => error.message.getD (.string "Unknown Error") := by
  rcases error with ⟨code, details, message, metadata⟩
  cases code <;> cases details <;> cases message <;> cases metadata <;> rfl

theorem ErrorObject.Sendable.status {error : ErrorObject core} (h : error.Sendable) :
    (∃ n, (handleErrorStatus error).code.uint32? = some n ∧ n ≠ Status.ok.toNat) ∧
      ∃ s, (handleErrorStatus error).details = .string s := by
  have hmessage : error.code = none ∨ error.details = none →
      ∃ s, error.message.getD (.string "Unknown Error") = .string s := by
    intro hnone
    cases hmessage : error.message with
    | none => exact ⟨"Unknown Error", rfl⟩
    | some message => exact h.message message hmessage hnone
  rw [handleErrorStatus_code, handleErrorStatus_details]
  cases hcode : error.code with
  -- `UNKNOWN`
  | none => exact ⟨⟨2, by decide, by decide⟩, hmessage (.inl hcode)⟩
  | some code =>
      refine ⟨h.code code hcode, ?_⟩
      cases hdetails : error.details with
      | none => exact hmessage (.inr hdetails)
      | some details => exact h.details details hdetails (by rw [hcode]; exact nofun)

theorem sendable_of_status {error : ErrorObject core}
    (hcode : ∃ n, (handleErrorStatus error).code.uint32? = some n ∧ n ≠ Status.ok.toNat)
    (hdetails : ∃ s, (handleErrorStatus error).details = .string s) : error.Sendable := by
  rw [handleErrorStatus_code] at hcode
  rw [handleErrorStatus_details] at hdetails
  refine ⟨fun code h => ?_, fun details h hsome => ?_, fun message h hnone => ?_⟩
  · rwa [h] at hcode
  · obtain ⟨code, hc⟩ := Option.ne_none_iff_exists'.mp hsome
    rwa [hc, h] at hdetails
  · rcases hnone with hc | hd
    · rwa [hc, h] at hdetails
    · cases hc : error.code with
      | none => rwa [hc, h] at hdetails
      | some code => rwa [hc, hd, h] at hdetails

/-- The status of an error has a code and details that are right exactly if the error is
sendable. -/
theorem sendable_iff {error : ErrorObject core} :
    error.Sendable ↔ (∃ n, (handleErrorStatus error).code.uint32? = some n ∧ n ≠ Status.ok.toNat) ∧
      ∃ s, (handleErrorStatus error).details = .string s :=
  ⟨fun h => h.status, fun h => sendable_of_status h.1 h.2⟩

/-- The trailer of a callback is only about the metadata. -/
theorem sendable_withMetadata {error : ErrorObject core} {metadata : Option (Metadata core)} :
    ({ error with metadata } : ErrorObject core).Sendable ↔ error.Sendable :=
  ⟨fun ⟨hcode, hdetails, hmessage⟩ => ⟨hcode, hdetails, hmessage⟩,
    fun ⟨hcode, hdetails, hmessage⟩ => ⟨hcode, hdetails, hmessage⟩⟩

theorem errorSent_handleError {metadataSent : Bool} {error : ErrorObject core} :
    ErrorSent (handleError metadataSent error) ↔ error.Sendable := by
  rw [handleError, errorSent_statusBatch, sendable_iff]

/-- **When the error of a handler gets sent.** For every way to report it, and whatever has been
sent before, `startBatch` takes the status of the error, with a code that is not `OK`, if and
only if the error is sendable. -/
theorem errorSent_iff (report : Report core) (metadataSent : Bool) (error : ErrorObject core) :
    ErrorSent (report.send metadataSent error) ↔ error.Sendable := by
  have hcallback : ∀ trailer : Option (Metadata core),
      ErrorSent (sendUnaryError metadataSent error trailer) ↔ error.Sendable := by
    intro trailer
    cases trailer with
    | none => exact errorSent_handleError
    | some trailer => exact errorSent_handleError.trans sendable_withMetadata
  have hstream : ErrorSent (({ metadataSent } : WritableStream core).setStatus error).sendStatus ↔
      error.Sendable := by
    rw [WritableStream.sendStatus, setStatus_eq_handleErrorStatus, errorSent_statusBatch,
      sendable_iff]
  cases report with
  | unaryCallback trailer => exact hcallback trailer
  | unaryEvent => exact errorSent_handleError
  | clientStreamCallback trailer => exact hcallback trailer
  | clientStreamEvent => exact errorSent_handleError
  | serverStreamEvent => exact hstream
  | bidiEvent => exact hstream

/-- A system error of Node: its code is a string. -/
def systemError : ErrorObject Core.ascii where
  code := some (.string "ENOENT")
  message := some (.string "ENOENT: no such file or directory")

/-- `startBatch` throws, and nothing is sent. -/
theorem systemError_not_sent :
    Report.send (.unaryCallback none) false systemError =
      .error (.typeError "Incorrectly typed arguments to startBatch") ∧
    ¬ ErrorSent (Report.send (.unaryCallback none) false systemError) := by
  have hthrows : Report.send (.unaryCallback none) false systemError =
      .error (.typeError "Incorrectly typed arguments to startBatch") := rfl
  refine ⟨hthrows, ?_⟩
  rw [hthrows]
  rintro ⟨ops, status, hops, -⟩
  exact absurd hops nofun

/-- An error with the code 0 is sent, as a success. -/
example : Report.send .bidiEvent true ({ code := some (.number (.finite 0)) } :
    ErrorObject Core.ascii) =
    .ok [.sendStatusFromServer ⟨[], 0, toUtf8 "Unknown Error"⟩] := by decide

end GrpcNode.NativeCore
