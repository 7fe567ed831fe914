import GrpcNode.NativeCore.Metadata

/-!
# GrpcNode.NativeCore.Batch

The operations of a batch in `call.cc`: what `ParseOp` accepts for each of them, and the loop
of `Call::StartBatch` that hands them to the core.
-/

namespace GrpcNode.NativeCore

open GrpcNode.Js
open GrpcNode.JsCore (MetadataValue PropertyValue)

/-- `grpc.opType` -/
inductive OpType
  | sendInitialMetadata
  | sendMessage
  | sendCloseFromClient
  | sendStatusFromServer
  | recvInitialMetadata
  | recvMessage
  | recvStatusOnClient
  | recvCloseOnServer
  deriving Repr, DecidableEq

/-- A batch, as `startBatch` gets it: an object whose keys are operation types, in the order in
which its properties are enumerated. -/
abbrev Batch := List (OpType × JsValue)

/-- `grpc_metadata_array`, as far as it is filled -/
abbrev MetadataArray := List (Buffer × Buffer)

/-- `data.send_status_from_server` -/
structure ServerStatus where
  trailingMetadata : MetadataArray
  status : Nat
  statusDetails : Buffer
  deriving Repr, DecidableEq

/-- `grpc_op`. What a receiving operation will be filled with is not here. -/
inductive CoreOp
  | sendInitialMetadata (metadata : MetadataArray)
  | sendMessage (message : Buffer) (flags : Nat)
  | sendCloseFromClient
  | sendStatusFromServer (status : ServerStatus)
  | recvInitialMetadata
  | recvMessage
  | recvStatusOnClient
  | recvCloseOnServer
  deriving Repr, DecidableEq

/-- The operation type of an operation -/
def CoreOp.type : CoreOp → OpType
  | sendInitialMetadata _ => .sendInitialMetadata
  | sendMessage _ _ => .sendMessage
  | sendCloseFromClient => .sendCloseFromClient
  | sendStatusFromServer _ => .sendStatusFromServer
  | recvInitialMetadata => .recvInitialMetadata
  | recvMessage => .recvMessage
  | recvStatusOnClient => .recvStatusOnClient
  | recvCloseOnServer => .recvCloseOnServer

/-- The message that an operation sends -/
def CoreOp.message? : CoreOp → Option Buffer
  | sendMessage message _ => some message
  | _ => none

/-- The status that an operation sends -/
def CoreOp.status? : CoreOp → Option ServerStatus
  | sendStatusFromServer status => some status
  | _ => none

variable (core : Core)

/-- One element of the array that `CreateMetadataArray` fills. -/
def createMetadata (key : Buffer) (value : JsValue) : Option (Buffer × Buffer) :=
  -- Only allow binary headers for "-bin" keys
  if core.isBinaryHeader key then
    match value with
    | .buffer bytes _ => some (key, bytes)
    | _ => none
  else
    match value with
    | .string s => some (key, createSliceFromString s)
    | _ => none

/-- The inner loop, over the values of one key. -/
def createValues (key : Buffer) : List JsValue → Option MetadataArray
  | [] => some []
  | value :: values => do
      let entry ← createMetadata core key value
      return entry :: (← createValues key values)

/-- The second loop of `CreateMetadataArray`, over the keys. -/
def createEntries : List (String × List JsValue) → Option MetadataArray
  | [] => some []
  | (key, values) :: properties => do
      let entries ← createValues core (createSliceFromString key) values
      return entries ++ (← createEntries properties)

/-- The first loop of `CreateMetadataArray`: all values have to be arrays. -/
def arrayProperties : List (String × JsValue) → Option (List (String × List JsValue))
  | [] => some []
  | (key, .array values) :: properties => do return (key, values) :: (← arrayProperties properties)
  | _ => none

/-- `CreateMetadataArray` -/
def createMetadataArray (metadata : JsValue) : Option MetadataArray := do
  createEntries core (← arrayProperties metadata.ownProperties)

/-! ### `ParseOp` -/

/-- `SendMetadataOp::ParseOp` -/
def SendMetadataOp.parseOp (value : JsValue) : Option CoreOp :=
  if value.isObject then (createMetadataArray core value).map .sendInitialMetadata else none

/-- `SendMessageOp::ParseOp` -/
def SendMessageOp.parseOp : JsValue → Option CoreOp
  | .buffer message own =>
      let flags := (JsValue.get (.buffer message own) "grpcWriteFlags").uint32?
      some (.sendMessage message (flags.getD 0 &&& core.writeUsedMask))
  | _ => none

/-- `SendServerStatusOp::ParseOp` -/
def SendServerStatusOp.parseOp (value : JsValue) : Option CoreOp := do
  if !value.isObject then none
  let metadata := value.get "metadata"
  if !metadata.isObject then none
  let code ← (value.get "code").uint32?
  let details ← (value.get "details").string?
  let statusMetadata ← createMetadataArray core metadata
  return .sendStatusFromServer ⟨statusMetadata, code, createSliceFromString details⟩

/-- `ParseOp` of the operation that a type stands for. -/
def parseOp : OpType → JsValue → Option CoreOp
  | .sendInitialMetadata, value => SendMetadataOp.parseOp core value
  | .sendMessage, value => SendMessageOp.parseOp core value
  | .sendCloseFromClient, _ => some .sendCloseFromClient
  | .sendStatusFromServer, value => SendServerStatusOp.parseOp core value
  | .recvInitialMetadata, _ => some .recvInitialMetadata
  | .recvMessage, _ => some .recvMessage
  | .recvStatusOnClient, _ => some .recvStatusOnClient
  | .recvCloseOnServer, _ => some .recvCloseOnServer

/-- The loop of `Call::StartBatch`: the operations for `grpc_call_start_batch`, or the exception
that it throws before it gets there. -/
def startBatch : Batch → Except JsError (List CoreOp)
  | [] => .ok []
  | (type, value) :: batch =>
      match parseOp core type value with
      | some op => (startBatch batch).map (op :: ·)
      | none => .error (.typeError "Incorrectly typed arguments to startBatch")

/-! ### What is accepted -/

variable {core}

theorem createMetadata_of_fitsKey {key : String} {value : MetadataValue}
    (h : FitsKey core key value) :
    ∃ entry, createMetadata core (createSliceFromString key)
      (Metadata.valueRepresentation value) = some entry := by
  cases value with
  | buffer b => exact ⟨_, if_pos h⟩
  | string s =>
      have hnot : ¬ core.isBinaryHeader (createSliceFromString key) = true := by
        rw [show core.isBinaryHeader (createSliceFromString key) = false from h]
        exact nofun
      exact ⟨_, if_neg hnot⟩

theorem createValues_of_fitsKey {key : String} {values : List MetadataValue}
    (h : ∀ value ∈ values, FitsKey core key value) :
    ∃ array, createValues core (createSliceFromString key)
      (values.map Metadata.valueRepresentation) = some array := by
  induction values with
  | nil => exact ⟨[], rfl⟩
  | cons value values ih =>
      obtain ⟨entry, hentry⟩ := createMetadata_of_fitsKey (h value (.head values))
      obtain ⟨array, harray⟩ := ih fun v hv => h v (.tail value hv)
      refine ⟨entry :: array, ?_⟩
      rw [List.map_cons, createValues, hentry, harray]
      rfl

/-- Both loops get through the entries of a `Metadata` object. -/
theorem createEntries_of_valid {entries : List (String × PropertyValue)}
    (h : ∀ e ∈ entries, ValidEntry core e.1 e.2) :
    ∃ properties array, arrayProperties (entries.map Metadata.entryRepresentation) =
      some properties ∧ createEntries core properties = some array := by
  induction entries with
  | nil => exact ⟨[], [], rfl, rfl⟩
  | cons e entries ih =>
      obtain ⟨key, v⟩ := e
      obtain ⟨values, rfl, hvalues⟩ := h (key, v) (.head entries)
      obtain ⟨first, hfirst⟩ := createValues_of_fitsKey hvalues
      obtain ⟨properties, rest, hproperties, hrest⟩ := ih fun e he => h e (.tail _ he)
      refine ⟨(key, values.map Metadata.valueRepresentation) :: properties, first ++ rest, ?_, ?_⟩
      · rw [List.map_cons, Metadata.entryRepresentation, arrayProperties, hproperties]
        rfl
      · rw [createEntries, hfirst, hrest]
        rfl

/-- **The addon accepts what a `Metadata` object represents.** -/
theorem createMetadataArray_coreRepresentation (m : Metadata core) :
    ∃ array, createMetadataArray core m.getCoreRepresentation = some array := by
  obtain ⟨properties, array, hproperties, harray⟩ := createEntries_of_valid m.valid
  refine ⟨array, ?_⟩
  rw [createMetadataArray, Metadata.getCoreRepresentation, JsValue.ownProperties, hproperties]
  exact harray

theorem sendMetadataOp_coreRepresentation (m : Metadata core) :
    ∃ array, SendMetadataOp.parseOp core m.getCoreRepresentation =
      some (.sendInitialMetadata array) := by
  obtain ⟨array, harray⟩ := createMetadataArray_coreRepresentation m
  refine ⟨array, ?_⟩
  rw [SendMetadataOp.parseOp, harray]
  rfl

/-- A batch that sends metadata alone -/
theorem startBatch_sendInitialMetadata (m : Metadata core) :
    ∃ array, startBatch core [(.sendInitialMetadata, m.getCoreRepresentation)] =
      .ok [.sendInitialMetadata array] := by
  obtain ⟨array, harray⟩ := sendMetadataOp_coreRepresentation m
  refine ⟨array, ?_⟩
  rw [startBatch, parseOp, harray]
  rfl

/-- A status object is accepted exactly if the code is a uint32 and the details are a string. -/
theorem sendServerStatusOp_eq_some_iff {code details : JsValue} {m : Metadata core} {op : CoreOp} :
    SendServerStatusOp.parseOp core (.object [("code", code), ("details", details),
      ("metadata", m.getCoreRepresentation)]) = some op ↔
    ∃ n s array, code.uint32? = some n ∧ details.string? = some s ∧
      createMetadataArray core m.getCoreRepresentation = some array ∧
      op = .sendStatusFromServer ⟨array, n, createSliceFromString s⟩ := by
  -- The lookups, and the checks that the two objects are objects, compute.
  show (do
    let n ← code.uint32?
    let s ← details.string?
    let array ← createMetadataArray core m.getCoreRepresentation
    return CoreOp.sendStatusFromServer ⟨array, n, createSliceFromString s⟩) = some op ↔ _
  simp only [Option.bind_eq_bind, Option.bind_eq_some_iff, Option.pure_def, Option.some.injEq]
  constructor
  · rintro ⟨n, hn, s, hs, array, harray, rfl⟩
    exact ⟨n, s, array, hn, hs, harray, rfl⟩
  · rintro ⟨n, s, array, hn, hs, harray, rfl⟩
    exact ⟨n, hn, s, hs, array, harray, rfl⟩

end GrpcNode.NativeCore
