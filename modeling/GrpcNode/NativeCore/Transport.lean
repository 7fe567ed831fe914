import GrpcNode.NativeCore.ClientCompletion
import GrpcNode.NativeCore.MetadataRoundTrip
import GrpcNode.NativeCore.ServerCall
import Mathlib.Data.List.Induction

/-!
# GrpcNode.NativeCore.Transport

What is between the two ends of a call: the gRPC core of the client, the network, and the gRPC core
of the server. None of it is in the repository, so it is a parameter of everything that is said of
both ends of a call. `Transport` is what the addon can observe of it, and `Transport.Documented` is
what gRPC documents:

* A batch is refused as a whole if it has an operation that may be used only once and has been used
  (`GRPC_CALL_ERROR_TOO_MANY_OPERATIONS`). Otherwise it is taken, if metadata and flags are legal.
* A call with one response completes when there is a status, with what has been taken.
* A read completes with the next message; with none only after all of them, when the other end is
  closed. The batch with the status of a stream waits for the messages, too.
* A call may fail at any time. The status is then made up by the core, and it is not `OK`.

Which of the things that may happen do happen, and when, is left open. `Transport.direct` is a
transport that does what it is documented to do.
-/

namespace GrpcNode.NativeCore

open GrpcNode.Js
open GrpcNode.JsCore (Status)

/-! ### What the core takes -/

/-- The metadata that `grpc_call_start_batch` takes: legal keys, and legal values under the keys
that are not binary headers -/
def LegalMetadata (core : Core) (array : MetadataArray) : Prop :=
  ∀ e ∈ array, core.headerKeyIsLegal e.1 = true ∧
    (core.isBinaryHeader e.1 = true ∨ core.headerNonbinValueIsLegal e.2 = true)

/-- The operations in which the core finds nothing illegal -/
def CoreOp.Legal (core : Core) : CoreOp → Prop
  | sendInitialMetadata array => LegalMetadata core array
  | sendMessage _ flags => flags &&& core.writeUsedMask = flags
  | sendStatusFromServer status => LegalMetadata core status.trailingMetadata
  | _ => True

/-- The operations that may be used only once in a call -/
def OpType.Single (type : OpType) : Prop := type ≠ .sendMessage ∧ type ≠ .recvMessage

instance (type : OpType) : Decidable type.Single := inferInstanceAs (Decidable (_ ∧ _))

/-- None of the operations is of a type that is among the types of the others. -/
def Unused (sent batch : List CoreOp) : Prop := ∀ op ∈ batch, ∀ op' ∈ sent, op'.type ≠ op.type

instance (sent batch : List CoreOp) : Decidable (Unused sent batch) :=
  inferInstanceAs (Decidable (∀ op ∈ batch, ∀ op' ∈ sent, _))

/-! ### The parameter -/

/-- What the core fills the receiving operations of a call with one response with -/
structure Response where
  metadata : MetadataArray := []
  message : Option Buffer := none
  status : ClientStatusOp

/-- The status that a client receives when a server has sent this one -/
def ServerStatus.arrived (status : ServerStatus) : ClientStatusOp :=
  ⟨status.trailingMetadata, status.status, status.statusDetails⟩

/-- The values that the addon makes of a response -/
def Response.value (core : Core) (response : Response) : UnaryResponse where
  metadata := parseMetadata core response.metadata
  read := response.message
  status := response.status.getNodeValue core

/-- What can be observed of the core and the network -/
structure Transport where
  /-- `grpc_call_start_batch` takes a batch, after the operations of the first argument. -/
  accepts : List CoreOp → List CoreOp → Bool
  /-- What a call with one response completes with, when these operations have been taken from the
  server. There is `none` if it does not complete yet. -/
  response : List CoreOp → Option Response
  /-- When the other end has started these operations, and so many of its messages have been read, a
  read may complete with this message. -/
  message : List CoreOp → Nat → Buffer → Bool
  /-- A read may complete without a message. -/
  noMessage : List CoreOp → Nat → Bool
  /-- When the server has started these operations, and so many of its messages have been read, the
  batch with the status may complete with this status. -/
  status : List CoreOp → Nat → ClientStatusOp → Bool
  /-- A call may fail with this status. -/
  failure : ClientStatusOp → Bool

namespace Transport

/-- What gRPC documents -/
structure Documented (core : Core) (transport : Transport) : Prop where
  /-- What may be used only once is refused when it has been used. -/
  once {sent batch : List CoreOp} {op op' : CoreOp} (hop : op ∈ sent) (hop' : op' ∈ batch)
    (hsingle : op.type.Single) (htype : op'.type = op.type) : transport.accepts sent batch = false
  /-- What is legal is taken when nothing like it has been used. -/
  accepts {sent batch : List CoreOp} (hunused : Unused sent batch)
    (hnodup : (batch.map CoreOp.type).Nodup) (hlegal : ∀ op ∈ batch, op.Legal core) :
    transport.accepts sent batch = true
  /-- There is no response without a status. -/
  incomplete {ops : List CoreOp} (h : ¬ HasStatus ops) : transport.response ops = none
  /-- A response is what has been sent: initial metadata, a message or none, and a status. -/
  complete (metadata : MetadataArray) (message : Option (Buffer × Nat)) (status : ServerStatus) :
    transport.response (.sendInitialMetadata metadata ::
        ((message.map fun m => CoreOp.sendMessage m.1 m.2).toList ++
          [.sendStatusFromServer status])) =
      some ⟨metadata, message.map Prod.fst, status.arrived⟩
  /-- Messages are delivered in order, each of them once, -/
  inOrder {ops : List CoreOp} {read : Nat} {data : Buffer}
    (h : transport.message ops read data = true) : (ops.filterMap CoreOp.message?)[read]? = some data
  /-- and the next one can be read. -/
  arrives {ops : List CoreOp} {read : Nat} {data : Buffer} (hlegal : ∀ op ∈ ops, op.Legal core)
    (hnext : (ops.filterMap CoreOp.message?)[read]? = some data) :
    transport.message ops read data = true
  /-- A read only completes without a message when the other end, a client, has been closed and all
  messages have been read. -/
  noMessage {ops : List CoreOp} {read : Nat} (h : transport.noMessage ops read = true) :
    .sendCloseFromClient ∈ ops ∧ (ops.filterMap CoreOp.message?).length ≤ read
  /-- The status of a stream is that of the server. It comes when all messages have been read. -/
  status {ops : List CoreOp} {read : Nat} {status : ClientStatusOp}
    (h : transport.status ops read status = true) :
    (∃ sent : ServerStatus, .sendStatusFromServer sent ∈ ops ∧ status = sent.arrived) ∧
      (ops.filterMap CoreOp.message?).length ≤ read
  /-- A call does not fail with `OK`. -/
  failure {status : ClientStatusOp} (h : transport.failure status = true) :
    status.status ≠ Status.ok.toNat

/-! ### The batches that are taken -/

/-- The operations of the batches that are taken, of those that are started -/
def taken (transport : Transport) (batches : List (List CoreOp)) : List CoreOp :=
  batches.foldl (fun ops batch => if transport.accepts ops batch then ops ++ batch else ops) []

variable {core : Core} {transport : Transport}

theorem taken_append (batches : List (List CoreOp)) (batch : List CoreOp) :
    transport.taken (batches ++ [batch]) =
      if transport.accepts (transport.taken batches) batch then transport.taken batches ++ batch
      else transport.taken batches := by
  rw [taken, List.foldl_append]
  rfl

/-- A batch that is legal is taken when nothing like it has been. -/
theorem taken_of_unused (h : transport.Documented core) {batches : List (List CoreOp)}
    {batch : List CoreOp} (hunused : Unused (transport.taken batches) batch)
    (hnodup : (batch.map CoreOp.type).Nodup) (hlegal : ∀ op ∈ batch, op.Legal core) :
    transport.taken (batches ++ [batch]) = transport.taken batches ++ batch := by
  rw [taken_append, if_pos (h.accepts hunused hnodup hlegal)]

/-- A batch with something that may be used only once, and has been used, leaves no trace. -/
theorem taken_of_used (h : transport.Documented core) {batches : List (List CoreOp)}
    {batch : List CoreOp} {op op' : CoreOp} (hop : op ∈ transport.taken batches) (hop' : op' ∈ batch)
    (hsingle : op.type.Single) (htype : op'.type = op.type) :
    transport.taken (batches ++ [batch]) = transport.taken batches := by
  rw [taken_append, h.once hop hop' hsingle htype]
  rfl

/-- What is taken has been started. -/
theorem taken_subset (batches : List (List CoreOp)) : transport.taken batches ⊆ batches.flatten := by
  induction batches using List.reverseRecOn with
  | nil => exact List.nil_subset _
  | append_singleton batches batch ih =>
      rw [taken_append, List.flatten_append, List.flatten_singleton]
      split
      · exact List.append_subset.mpr ⟨List.Subset.trans ih (List.subset_append_left _ _),
          List.subset_append_right _ _⟩
      · exact List.Subset.trans ih (List.subset_append_left _ _)

/-! ### A transport -/

/-- The initial metadata that an operation sends -/
def initialMetadata? : CoreOp → Option MetadataArray
  | .sendInitialMetadata metadata => some metadata
  | _ => none

/-- Whatever is sent arrives at once. -/
def direct : Transport where
  accepts sent batch := decide (Unused sent batch)
  response ops := (ops.findSome? CoreOp.status?).map fun status => {
    metadata := (ops.findSome? initialMetadata?).getD []
    message := ops.findSome? CoreOp.message?
    status := status.arrived }
  message ops read data := (ops.filterMap CoreOp.message?)[read]? = some data
  noMessage ops read :=
    .sendCloseFromClient ∈ ops ∧ (ops.filterMap CoreOp.message?).length ≤ read
  status ops read status :=
    (ops.filterMap CoreOp.status?).any (·.arrived = status) &&
      (ops.filterMap CoreOp.message?).length ≤ read
  failure status := status.status ≠ Status.ok.toNat

theorem mem_filterMap_status? {ops : List CoreOp} {status : ServerStatus} :
    status ∈ ops.filterMap CoreOp.status? ↔ .sendStatusFromServer status ∈ ops := by
  rw [List.mem_filterMap]
  constructor
  · rintro ⟨op, hop, hstatus⟩
    cases op with
    | sendStatusFromServer sent =>
        obtain rfl := Option.some.inj hstatus
        exact hop
    | _ => cases hstatus
  · exact fun h => ⟨_, h, rfl⟩

theorem direct_documented (core : Core) : direct.Documented core where
  once hop hop' _ htype :=
    decide_eq_false fun hunused => hunused _ hop' _ hop htype.symm
  accepts hunused _ _ := decide_eq_true hunused
  incomplete := by
    intro ops h
    have hnone : ops.findSome? CoreOp.status? = none := by
      refine List.findSome?_eq_none_iff.mpr fun op hop => ?_
      cases op with
      | sendStatusFromServer status => exact absurd ⟨status, hop⟩ h
      | _ => rfl
    exact congrArg (Option.map _) hnone
  complete metadata message status := by cases message <;> rfl
  inOrder := of_decide_eq_true
  arrives _ := decide_eq_true
  noMessage := of_decide_eq_true
  status := by
    intro ops read status h
    obtain ⟨hany, hread⟩ := Bool.and_eq_true_iff.mp h
    obtain ⟨sent, hsent, heq⟩ := List.any_eq_true.mp hany
    exact ⟨⟨sent, mem_filterMap_status?.mp hsent, (of_decide_eq_true heq).symm⟩,
      of_decide_eq_true hread⟩
  failure := of_decide_eq_true

end Transport

end GrpcNode.NativeCore
