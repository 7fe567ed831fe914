import GrpcNode.NativeCore.ServerStatus

/-!
# GrpcNode.NativeCore.ServerCall

What the functions of `server.js` send on a call: `handleError`, `sendUnaryResponse` and
`sendMetadata`, with the flag `metadataSent` that they share.

`Sends` is what each of them may do to the operations that have been started on the call, and
`Sends.keepsOneStatus_iff` says when this leaves one status: always, if there was none, and only by
sending nothing, if there was one.
-/

namespace GrpcNode.NativeCore

open GrpcNode.Js
open GrpcNode.JsCore (Status)

/-- A call of the server, as far as it sends something. -/
structure ServerCall (core : Core) where
  metadataSent : Bool := false
  /-- The addon has released the call. -/
  released : Bool := false
  /-- The batches that send something and have been handed to the core. -/
  started : List (List CoreOp) := []

variable {core : Core}

/-- An `Error` of the addon, by its own properties -/
def ErrorObject.ofAddon (err : JsError) : ErrorObject core :=
  { message := some (.string err.message) }

namespace ServerCall

variable (call : ServerCall core)

/-- The operations that send something, in the order in which they were started. -/
def ops : List CoreOp := call.started.flatten

/-- `call.startBatch(batch, …)`, for a batch that sends something. Nothing is started on a call
that has been released, or by a batch with a wrong type in it. -/
def startBatch (batch : Batch) : ServerCall core :=
  if call.released then call
  else match NativeCore.startBatch core batch with
    | .ok ops => { call with started := call.started ++ [ops] }
    | .error _ => call

/-- Empty initial metadata, if none have been sent. -/
def initialMetadata : Batch :=
  if call.metadataSent then []
  else [(.sendInitialMetadata, (Metadata.new : Metadata core).getCoreRepresentation)]

/-- `handleError(call, error)`. The flag stays as it is. -/
def handleError (error : ErrorObject core) : ServerCall core :=
  call.startBatch (statusBatch call.metadataSent (handleErrorStatus error))

/-- `sendUnaryResponse(call, value, serialize, metadata, flags)` -/
def sendUnaryResponse {γ : Type*} (value : γ) (serialize : γ → Except (ErrorObject core) JsValue)
    (metadata : Option (Metadata core)) (flags : JsValue) : ServerCall core :=
  match serialize value with
  | .error e => call.handleError e.internal
  | .ok message =>
      let status : StatusObject core :=
        { code := statusCode .ok, details := .string "OK", metadata := metadata.getD .new }
      let sent := { call with metadataSent := true }
      match message.put "grpcWriteFlags" flags with
      -- A `TypeError`: the message is not an object.
      | none => sent
      | some message =>
          sent.startBatch (call.initialMetadata ++
            [(.sendMessage, message), (.sendStatusFromServer, status.toValue)])

/-- `sendUnaryData(err, value, trailer, flags)`, the callback of a handler -/
def sendUnaryData {γ : Type*} (serialize : γ → Except (ErrorObject core) JsValue)
    (err : Option (ErrorObject core)) (value : γ) (trailer : Option (Metadata core))
    (flags : JsValue) : ServerCall core :=
  match err, trailer with
  | some err, some trailer => call.handleError { err with metadata := some trailer }
  | some err, none => call.handleError err
  | none, trailer => call.sendUnaryResponse value serialize trailer flags

/-- `sendMetadata(responseMetadata)` -/
def sendMetadata (responseMetadata : Metadata core) : ServerCall core :=
  if !call.metadataSent then
    { call with metadataSent := true }.startBatch
      [(.sendInitialMetadata, responseMetadata.getCoreRepresentation)]
  else call

end ServerCall

/-! ### One status -/

/-- The operation sends initial metadata. -/
def CoreOp.isInitialMetadata : CoreOp → Bool
  | sendInitialMetadata _ => true
  | _ => false

/-- A status is among the operations. -/
def HasStatus (ops : List CoreOp) : Prop := ∃ status, .sendStatusFromServer status ∈ ops

/-- Nothing comes after a status. -/
def StatusLast (ops : List CoreOp) : Prop :=
  ∀ before status after, ops = before ++ .sendStatusFromServer status :: after → after = []

/-- At most one status is sent, after everything else, and initial metadata at most once. -/
structure OneStatus (ops : List CoreOp) : Prop where
  statusLast : StatusLast ops
  metadataOnce : ops.countP CoreOp.isInitialMetadata ≤ 1

/-- What a function may do to a call: it adds some operations, initial metadata only if the flag
is not set, and it leaves the flag set if it adds some, unless there is a status too. -/
structure Sends (call call' : ServerCall core) (more : List CoreOp) : Prop where
  ops : call'.ops = call.ops ++ more
  statusLast : StatusLast more
  metadata : more.countP CoreOp.isInitialMetadata ≤ if call.metadataSent then 0 else 1
  keeps : call.metadataSent = true → call'.metadataSent = true
  marks : 0 < more.countP CoreOp.isInitialMetadata → HasStatus more ∨ call'.metadataSent = true

/-- Initial metadata are only sent before the status if the flag is set. -/
def ServerCall.Marked (call : ServerCall core) : Prop :=
  0 < call.ops.countP CoreOp.isInitialMetadata → HasStatus call.ops ∨ call.metadataSent = true

/-- A status is in one part of the operations or in the other. -/
theorem hasStatus_append {ops more : List CoreOp} :
    HasStatus (ops ++ more) ↔ HasStatus ops ∨ HasStatus more := by
  unfold HasStatus
  simp only [List.mem_append, exists_or]

/-- A status that is followed by something is not last. -/
theorem StatusLast.eq_nil {ops more : List CoreOp} (h : StatusLast (ops ++ more))
    (hstatus : HasStatus ops) : more = [] := by
  obtain ⟨status, hmem⟩ := hstatus
  obtain ⟨before, after, rfl⟩ := List.append_of_mem hmem
  have hrest := h before status (after ++ more) (by rw [List.append_assoc, List.cons_append])
  exact (List.append_eq_nil_iff.mp hrest).2

/-- The status stays last if it is in what is added. -/
theorem StatusLast.append {ops more : List CoreOp} (hops : ¬ HasStatus ops)
    (hmore : StatusLast more) : StatusLast (ops ++ more) := by
  intro before status after h
  rcases List.append_eq_append_iff.mp h with ⟨mid, rfl, hmid⟩ | ⟨mid, rfl, hmid⟩
  · exact hmore mid status after hmid
  · cases mid with
    | nil => exact hmore [] status after (by simpa using hmid.symm)
    | cons op mid =>
        obtain ⟨rfl, -⟩ := List.cons.inj hmid
        exact absurd ⟨status, List.mem_append_right before List.mem_cons_self⟩ hops

/-- Nothing stands behind a status if there is none. -/
theorem statusLast_of_not_hasStatus {ops : List CoreOp} (h : ¬ HasStatus ops) : StatusLast ops := by
  rintro before status after rfl
  exact absurd ⟨status, List.mem_append_right before List.mem_cons_self⟩ h

/-- Nothing stands behind a status that is alone. -/
theorem statusLast_singleton (status : ServerStatus) :
    StatusLast [.sendStatusFromServer status] := by
  intro before status' after h
  cases before with
  | nil => exact (List.cons.inj h).2.symm
  | cons op before =>
      exact absurd (List.cons.inj h).2.symm
        (List.append_ne_nil_of_right_ne_nil _ (List.cons_ne_nil _ _))

/-- **When a function leaves one status.** -/
theorem Sends.keepsOneStatus_iff {call call' : ServerCall core} {more : List CoreOp}
    (h : Sends call call' more) (hmarked : call.Marked) (hone : OneStatus call.ops) :
    OneStatus call'.ops ↔ (HasStatus call.ops → more = []) := by
  rw [h.ops]
  constructor
  · intro hone'
    exact hone'.statusLast.eq_nil
  · intro hnone
    by_cases hstatus : HasStatus call.ops
    · rw [hnone hstatus, List.append_nil]
      exact hone
    · refine ⟨.append hstatus h.statusLast, ?_⟩
      have hmetadata := h.metadata
      have hold : 0 < call.ops.countP CoreOp.isInitialMetadata → call.metadataSent = true :=
        fun hpos => (hmarked hpos).resolve_left hstatus
      have honce := hone.metadataOnce
      rw [List.countP_append]
      split at hmetadata
      · omega
      · rename_i hunset
        have hzero : ¬ 0 < call.ops.countP CoreOp.isInitialMetadata := fun hpos => hunset (hold hpos)
        omega

/-- The flag still tells of the metadata after what is sent next. -/
theorem Sends.marked {call call' : ServerCall core} {more : List CoreOp}
    (h : Sends call call' more) (hmarked : call.Marked) : call'.Marked := by
  intro hpos
  rw [h.ops, List.countP_append] at hpos
  rw [h.ops, hasStatus_append]
  by_cases hold : 0 < call.ops.countP CoreOp.isInitialMetadata
  · exact (hmarked hold).imp .inl h.keeps
  · exact (h.marks (by omega)).imp .inr id

/-! ### What the functions send -/

/-- The status of an error is rightly typed. -/
def ErrorObject.Accepted (error : ErrorObject core) : Prop :=
  (∃ n, (handleErrorStatus error).code.uint32? = some n) ∧
    ∃ s, (handleErrorStatus error).details = .string s

/-- There is a message, or the status of an error that is rightly typed. -/
def ResponseAccepted {γ : Type*} (serialize : γ → Except (ErrorObject core) JsValue) (value : γ) :
    Prop :=
  match serialize value with
  | .ok message => message.isBuffer = true
  | .error e => e.internal.Accepted

/-- The operation of a status with a code and details that are right, and no other. -/
theorem parseOp_status_cases (status : StatusObject core) :
    (∃ sent, SendServerStatusOp.parseOp core status.toValue = some (.sendStatusFromServer sent) ∧
      (∃ n, status.code.uint32? = some n) ∧ ∃ s, status.details = .string s) ∨
    SendServerStatusOp.parseOp core status.toValue = none ∧
      ¬ ((∃ n, status.code.uint32? = some n) ∧ ∃ s, status.details = .string s) := by
  cases hop : SendServerStatusOp.parseOp core status.toValue with
  | some op =>
      obtain ⟨n, s, array, hn, hs, -, rfl⟩ := sendServerStatusOp_eq_some_iff.mp hop
      exact .inl ⟨_, rfl, ⟨n, hn⟩, s, JsValue.string?_eq_some_iff.mp hs⟩
  | none =>
      refine .inr ⟨rfl, ?_⟩
      rintro ⟨⟨n, hn⟩, s, hs⟩
      obtain ⟨array, harray⟩ := createMetadataArray_coreRepresentation status.metadata
      have hsome := sendServerStatusOp_eq_some_iff.mpr
        ⟨n, s, array, hn, JsValue.string?_eq_some_iff.mpr hs, harray, rfl⟩
      exact absurd (hop.symm.trans hsome) nofun

/-- Nothing is sent. -/
theorem sends_nil {call call' : ServerCall core} (hstarted : call'.started = call.started)
    (hkeeps : call.metadataSent = true → call'.metadataSent = true) : Sends call call' [] where
  ops := by rw [ServerCall.ops, ServerCall.ops, hstarted, List.append_nil]
  statusLast _ _ _ h := absurd h.symm (List.append_ne_nil_of_right_ne_nil _ (List.cons_ne_nil _ _))
  metadata := Nat.zero_le _
  keeps := hkeeps
  marks hpos := absurd hpos (Nat.lt_irrefl 0)

/-- A batch is sent, and the flag is set. -/
theorem sends_started {call call' : ServerCall core} {batch : List CoreOp}
    (hstarted : call'.started = call.started ++ [batch]) (hsent : call'.metadataSent = true)
    (hlast : StatusLast batch)
    (hmetadata : batch.countP CoreOp.isInitialMetadata ≤ if call.metadataSent then 0 else 1) :
    Sends call call' batch where
  ops := by
    rw [ServerCall.ops, ServerCall.ops, hstarted, List.flatten_append, List.flatten_singleton]
  statusLast := hlast
  metadata := hmetadata
  keeps _ := hsent
  marks _ := .inr hsent

/-- A batch with a status at its end is sent. -/
theorem sends_status {call call' : ServerCall core} {first : List CoreOp} {status : ServerStatus}
    (hstarted : call'.started = call.started ++ [first ++ [.sendStatusFromServer status]])
    (hkeeps : call.metadataSent = true → call'.metadataSent = true) (hfirst : ¬ HasStatus first)
    (hmetadata : first.countP CoreOp.isInitialMetadata ≤ if call.metadataSent then 0 else 1) :
    Sends call call' (first ++ [.sendStatusFromServer status]) where
  ops := by
    rw [ServerCall.ops, ServerCall.ops, hstarted, List.flatten_append, List.flatten_singleton]
  statusLast := .append hfirst (statusLast_singleton status)
  metadata := by
    rw [List.countP_append]
    exact hmetadata
  keeps := hkeeps
  marks _ := .inl ⟨status, List.mem_append_right first (List.mem_singleton_self _)⟩

theorem not_hasStatus_sendInitialMetadata (array : MetadataArray) :
    ¬ HasStatus [.sendInitialMetadata array] := by
  rintro ⟨status, hmem⟩
  cases List.mem_singleton.mp hmem

/-- Metadata that is put in front is no status. -/
theorem not_hasStatus_initialMetadata (metadataSent : Bool) :
    ¬ HasStatus (if metadataSent then [] else [.sendInitialMetadata []]) := by
  cases metadataSent with
  | true => exact fun ⟨_, hmem⟩ => absurd hmem List.not_mem_nil
  | false => exact not_hasStatus_sendInitialMetadata []

/-- Metadata is put in front unless it has been sent. -/
theorem countP_initialMetadata (metadataSent : Bool) :
    (if metadataSent then [] else [CoreOp.sendInitialMetadata []]).countP CoreOp.isInitialMetadata =
      if metadataSent then 0 else 1 := by
  split <;> rfl

/-- `handleError` sends a status exactly if the call is there and the addon accepts the error. -/
theorem sends_handleError (call : ServerCall core) (error : ErrorObject core) :
    ∃ more, Sends call (call.handleError error) more ∧
      (more ≠ [] ↔ call.released = false ∧ error.Accepted) := by
  unfold ServerCall.handleError ServerCall.startBatch
  rw [startBatch_statusBatch_eq]
  cases hreleased : call.released with
  | true => exact ⟨[], sends_nil rfl id, by simp⟩
  | false =>
      rcases parseOp_status_cases (handleErrorStatus error) with
        ⟨sent, hop, haccepted⟩ | ⟨hop, hrejected⟩
      · rw [hop]
        refine ⟨_, sends_status rfl id (not_hasStatus_initialMetadata _)
          (Nat.le_of_eq (countP_initialMetadata _)), iff_of_true ?_ ⟨rfl, haccepted⟩⟩
        exact List.append_ne_nil_of_right_ne_nil _ (List.cons_ne_nil _ _)
      · rw [hop]
        exact ⟨[], sends_nil rfl id, iff_of_false (fun h => h rfl) fun h => hrejected h.2⟩

/-- The batch of a response: the message decides. -/
theorem startBatch_response (message : JsValue) (metadata : Metadata core) :
    (message.isBuffer = false ∧ ∃ e, startBatch core [(.sendMessage, message),
      (.sendStatusFromServer,
        (⟨statusCode .ok, .string "OK", metadata⟩ : StatusObject core).toValue)] = .error e) ∨
    message.isBuffer = true ∧ ∃ bytes flags status, startBatch core [(.sendMessage, message),
      (.sendStatusFromServer,
        (⟨statusCode .ok, .string "OK", metadata⟩ : StatusObject core).toValue)] =
      .ok [.sendMessage bytes flags, .sendStatusFromServer status] := by
  have hstatus := parseOp_status_cases (⟨statusCode .ok, .string "OK", metadata⟩ : StatusObject core)
  cases message with
  | buffer bytes own =>
      refine .inr ⟨rfl, ?_⟩
      rcases hstatus with ⟨sent, hop, -⟩ | ⟨-, hrejected⟩
      · obtain ⟨messageFlags, hmessage⟩ : ∃ messageFlags, SendMessageOp.parseOp core
            (.buffer bytes own) = some (.sendMessage bytes messageFlags) := ⟨_, rfl⟩
        refine ⟨bytes, messageFlags, sent, ?_⟩
        simp only [startBatch, parseOp, hmessage, hop]
        rfl
      · exact absurd ⟨⟨0, rfl⟩, "OK", rfl⟩ hrejected
  | _ => exact .inl ⟨rfl, _, rfl⟩

/-- The message comes before the status. -/
theorem sends_response {call call' : ServerCall core} {first : List CoreOp} {bytes : Buffer}
    {messageFlags : Nat} {status : ServerStatus}
    (hstarted : call'.started = call.started ++
      [first ++ [.sendMessage bytes messageFlags, .sendStatusFromServer status]])
    (hkeeps : call.metadataSent = true → call'.metadataSent = true) (hfirst : ¬ HasStatus first)
    (hmetadata : first.countP CoreOp.isInitialMetadata = if call.metadataSent then 0 else 1) :
    Sends call call'
      (first ++ [.sendMessage bytes messageFlags] ++ [.sendStatusFromServer status]) := by
  refine sends_status ?_ hkeeps ?_ ?_
  · rw [hstarted, List.append_assoc]
    rfl
  · rw [hasStatus_append]
    rintro (hstatus | ⟨status', hmem⟩)
    · exact hfirst hstatus
    · exact absurd (List.mem_singleton.mp hmem) nofun
  · rw [List.countP_append, hmetadata]
    exact Nat.le_refl _

/-- A property that is set does not make a buffer of a value. -/
theorem isBuffer_of_put {message v sent : JsValue} {name : String}
    (h : message.put name v = some sent) : sent.isBuffer = message.isBuffer := by
  unfold JsValue.put at h
  split at h
  all_goals
    cases h
    try rfl

/-- `sendUnaryResponse` sends one batch with the status last, if it does not throw. -/
theorem sends_sendUnaryResponse {γ : Type*} (call : ServerCall core) (value : γ)
    (serialize : γ → Except (ErrorObject core) JsValue) (metadata : Option (Metadata core))
    (flags : JsValue) :
    ∃ more, Sends call (call.sendUnaryResponse value serialize metadata flags) more ∧
      (more ≠ [] ↔ call.released = false ∧ ResponseAccepted serialize value) := by
  unfold ServerCall.sendUnaryResponse ResponseAccepted
  cases serialize value with
  | error e => exact sends_handleError call e.internal
  | ok message =>
      dsimp only
      cases hput : message.put "grpcWriteFlags" flags with
      | none =>
          have hbuffer : message.isBuffer = false := by
            cases message <;> first | rfl | exact absurd hput nofun
          exact ⟨[], sends_nil rfl fun _ => rfl, by simp [hbuffer]⟩
      | some sent =>
          rw [← isBuffer_of_put hput]
          simp only [ServerCall.startBatch, ServerCall.initialMetadata, startBatch_initialMetadata]
          cases hreleased : call.released with
          | true => exact ⟨[], sends_nil rfl fun _ => rfl, by simp⟩
          | false =>
              rcases startBatch_response sent (metadata.getD .new) with
                ⟨hbuffer, e, hbatch⟩ | ⟨hbuffer, bytes, messageFlags, status, hbatch⟩
              · rw [hbatch]
                exact ⟨[], sends_nil rfl fun _ => rfl, by simp [hbuffer]⟩
              · rw [hbatch]
                exact ⟨_, sends_response rfl (fun _ => rfl) (not_hasStatus_initialMetadata _)
                  (countP_initialMetadata _), by simp [hbuffer]⟩

/-- The callback is called with an error whose status is rightly typed, or with a response. -/
def DataAccepted {γ : Type*} (serialize : γ → Except (ErrorObject core) JsValue)
    (err : Option (ErrorObject core)) (value : γ) : Prop :=
  match err with
  | some err => err.Accepted
  | none => ResponseAccepted serialize value

/-- The metadata of an error do not matter. -/
theorem accepted_withMetadata {error : ErrorObject core} {metadata : Option (Metadata core)} :
    ({ error with metadata } : ErrorObject core).Accepted ↔ error.Accepted := by
  unfold ErrorObject.Accepted
  rw [handleErrorStatus_code, handleErrorStatus_details, handleErrorStatus_code,
    handleErrorStatus_details]

/-- An error of the addon is accepted by it. -/
theorem accepted_ofAddon (err : JsError) : (ErrorObject.ofAddon err : ErrorObject core).Accepted :=
  ⟨⟨2, rfl⟩, err.message, rfl⟩

/-- The errors of the addon are always sent. -/
theorem sends_addonError (call : ServerCall core) (err : JsError) :
    ∃ more, Sends call (call.handleError (.ofAddon err)) more ∧
      (more ≠ [] ↔ call.released = false ∧ True) := by
  obtain ⟨more, hsends, hmore⟩ := sends_handleError call (.ofAddon err)
  exact ⟨more, hsends, hmore.trans (and_congr_right fun _ => iff_of_true (accepted_ofAddon err) trivial)⟩

/-- Who does not report sends nothing. -/
theorem sends_silent {call call' : ServerCall core} (hstarted : call'.started = call.started)
    (hsent : call'.metadataSent = call.metadataSent) :
    ∃ more, Sends call call' more ∧ (more ≠ [] ↔ call.released = false ∧ False) :=
  ⟨[], sends_nil hstarted fun h => hsent.trans h, iff_of_false (fun h => h rfl) And.right⟩

/-- `sendUnaryData` sends the error or the response, and the error of a response that cannot be
sent. -/
theorem sends_sendUnaryData {γ : Type*} (call : ServerCall core)
    (serialize : γ → Except (ErrorObject core) JsValue) (err : Option (ErrorObject core)) (value : γ)
    (trailer : Option (Metadata core)) (flags : JsValue) :
    ∃ more, Sends call (call.sendUnaryData serialize err value trailer flags) more ∧
      (more ≠ [] ↔ call.released = false ∧ DataAccepted serialize err value) := by
  cases err with
  | none => exact sends_sendUnaryResponse call value serialize trailer flags
  | some err =>
      cases trailer with
      | none => exact sends_handleError call err
      | some trailer =>
          obtain ⟨more, hsends, hmore⟩ :=
            sends_handleError call { err with metadata := some trailer }
          exact ⟨more, hsends, hmore.trans (and_congr_right fun _ => accepted_withMetadata)⟩

/-- `sendMetadata` sends metadata exactly if the call is there and none has been sent. -/
theorem sends_sendMetadata (call : ServerCall core) (responseMetadata : Metadata core) :
    ∃ more, Sends call (call.sendMetadata responseMetadata) more ∧
      (more ≠ [] ↔ call.released = false ∧ call.metadataSent = false) := by
  unfold ServerCall.sendMetadata
  cases hsent : call.metadataSent with
  | true => exact ⟨[], sends_nil rfl id, by simp⟩
  | false =>
      obtain ⟨array, hbatch⟩ := startBatch_sendInitialMetadata responseMetadata
      simp only [ServerCall.startBatch, hbatch]
      cases hreleased : call.released with
      | true => exact ⟨[], sends_nil rfl fun _ => rfl, by simp⟩
      | false =>
          refine ⟨[.sendInitialMetadata array], sends_started rfl rfl
            (statusLast_of_not_hasStatus (not_hasStatus_sendInitialMetadata array)) ?_, by simp⟩
          rw [hsent]
          exact Nat.le_refl 1

/-- A new call has sent no metadata. -/
theorem marked_new : ({} : ServerCall core).Marked := fun h => absurd h (Nat.lt_irrefl 0)

/-- A new call has sent no status. -/
theorem oneStatus_new : OneStatus ({} : ServerCall core).ops :=
  ⟨statusLast_of_not_hasStatus fun ⟨_, h⟩ => absurd h List.not_mem_nil, Nat.zero_le 1⟩

end GrpcNode.NativeCore
