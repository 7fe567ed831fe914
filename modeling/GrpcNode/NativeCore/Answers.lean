import GrpcNode.NativeCore.ServerHandlers
import GrpcNode.NativeCore.Transport

/-!
# GrpcNode.NativeCore.Answers

What a server says on a call with one response, as a client understands it: initial metadata, and
answers. `Speaks` ties this to the batches that `handleError`, `sendUnaryResponse` and
`sendMetadata` start.

None of these functions knows whether the call has been answered, so there may be any number of
answers. The core takes the first one (`told`) and refuses the batches of all others, since they
have a status in them. `Corresponds` is what connects the two.
-/

namespace GrpcNode.NativeCore

open GrpcNode.Js
open GrpcNode.JsCore (MetadataObject Status)

variable {core : Core}

/-- How a call is answered: with a status, and a message before it or none. -/
structure Answer (core : Core) where
  message : Option Buffer := none
  code : Nat
  details : String
  trailer : Metadata core

/-- Something that a server says on a call. -/
inductive Said (core : Core)
  | initialMetadata (metadata : Metadata core)
  /-- An answer opens the call if empty initial metadata go with it. -/
  | answer (answer : Answer core) (opens : Bool)

namespace Said

/-- The answer that something that is said consists of -/
def answer? : Said core → Option (Answer core)
  | initialMetadata _ => none
  | answer a _ => some a

end Said

/-- What the client is told: the first answer, and the initial metadata that came with it or before
it. There are none of them if the flag `metadataSent` is set, but nothing has been sent: a response
that cannot be sent leaves the flag like this. -/
def told : List (Said core) → Option (Option (Metadata core) × Answer core)
  | [] => none
  | .answer a opens :: _ => some (if opens then some .new else none, a)
  | .initialMetadata m :: said => (said.findSome? Said.answer?).map fun a => (some m, a)

/-- What the client is told does not change. -/
theorem told_append {said : List (Said core)} {t : Option (Metadata core) × Answer core}
    (h : told said = some t) (more : List (Said core)) : told (said ++ more) = some t := by
  cases said with
  | nil => cases h
  | cons first said =>
      cases first with
      | answer a opens => exact h
      | initialMetadata m =>
          obtain ⟨a, ha, rfl⟩ := Option.map_eq_some_iff.mp h
          rw [List.cons_append, told, List.findSome?_append, ha]
          rfl

/-! ### What the functions of the server say -/

/-- The answer that `handleError` makes of an error, unless the batch is refused. -/
def ErrorObject.answer (error : ErrorObject core) : Option (Answer core) := do
  let status := handleErrorStatus error
  return {
    code := ← status.code.uint32?
    details := ← status.details.string?
    trailer := status.metadata }

namespace ServerCall

variable (call : ServerCall core)

/-- Nothing is said on a call that has been released. -/
def heard (answer : Option (Answer core)) : Option (Said core) :=
  if call.released then none else answer.map (.answer · (!call.metadataSent))

/-- What `handleError(call, error)` says. -/
def errorSaid (error : ErrorObject core) : Option (Said core) := call.heard error.answer

/-- What `sendUnaryData(err, value, trailer, flags)` says. -/
def dataSaid {γ : Type*} (serialize : γ → Except (ErrorObject core) JsValue)
    (err : Option (ErrorObject core)) (value : γ) (trailer : Option (Metadata core)) :
    Option (Said core) :=
  match err with
  | some err => call.errorSaid { err with metadata := trailer.or err.metadata }
  | none =>
      match serialize value with
      | .error e => call.errorSaid e.internal
      | .ok (.buffer bytes _) =>
          call.heard (some {
            message := some bytes
            code := Status.ok.toNat
            details := "OK"
            trailer := trailer.getD .new })
      | .ok _ => none

/-- What `sendMetadata(responseMetadata)` says. -/
def metadataSaid (responseMetadata : Metadata core) : Option (Said core) :=
  if call.released || call.metadataSent then none else some (.initialMetadata responseMetadata)

end ServerCall

/-! ### What they start -/

/-- The array that `CreateMetadataArray` makes of a `Metadata` object. -/
def Metadata.array (m : Metadata core) : MetadataArray :=
  (createMetadataArray core m.getCoreRepresentation).getD []

theorem Metadata.createMetadataArray_eq (m : Metadata core) :
    createMetadataArray core m.getCoreRepresentation = some m.array := by
  obtain ⟨array, harray⟩ := createMetadataArray_coreRepresentation m
  rw [Metadata.array, harray, Option.getD_some]

/-- The status of an answer -/
def Answer.status (a : Answer core) : ServerStatus :=
  ⟨a.trailer.array, a.code, createSliceFromString a.details⟩

/-- The operations of an answer. -/
def Answer.ops (a : Answer core) (flags : Nat) : List CoreOp :=
  (a.message.map fun message => CoreOp.sendMessage message flags).toList ++
    [.sendStatusFromServer a.status]

/-- What a function may start on a call, and what it says by that. -/
inductive Speaks (call call' : ServerCall core) : Option (Said core) → Prop
  | silent (started : call'.started = call.started)
      (keeps : call.metadataSent = true → call'.metadataSent = true) : Speaks call call' none
  | initialMetadata (metadata : Metadata core) (unset : call.metadataSent = false)
      (started : call'.started = call.started ++ [[.sendInitialMetadata metadata.array]])
      (sets : call'.metadataSent = true) : Speaks call call' (some (.initialMetadata metadata))
  | answer (a : Answer core) (first : List CoreOp) (flags : Nat)
      (first_eq : first = if call.metadataSent then [] else [.sendInitialMetadata []])
      (flags_eq : flags &&& core.writeUsedMask = flags)
      (started : call'.started = call.started ++ [first ++ a.ops flags]) :
      Speaks call call' (some (.answer a (!call.metadataSent)))

/-- The status object of an answer is accepted, -/
theorem parseOp_answer (status : StatusObject core) {code : Nat} {details : String}
    (hcode : status.code.uint32? = some code) (hdetails : status.details = .string details)
    (message : Option Buffer) :
    SendServerStatusOp.parseOp core status.toValue =
      some (.sendStatusFromServer
        (Answer.status { message, code, details, trailer := status.metadata })) :=
  sendServerStatusOp_eq_some_iff.mpr ⟨code, details, _, hcode, by rw [hdetails]; rfl,
    status.metadata.createMetadataArray_eq, rfl⟩

/-- and no other. -/
theorem parseOp_eq_none {status : StatusObject core}
    (h : ¬ ((∃ n, status.code.uint32? = some n) ∧ ∃ s, status.details = .string s)) :
    SendServerStatusOp.parseOp core status.toValue = none := by
  rcases parseOp_status_cases status with ⟨_, _, haccepted⟩ | ⟨hnone, _⟩
  · exact absurd haccepted h
  · exact hnone

theorem ErrorObject.answer_eq_some_iff {error : ErrorObject core} {a : Answer core} :
    error.answer = some a ↔ ∃ code details,
      (handleErrorStatus error).code.uint32? = some code ∧
      (handleErrorStatus error).details = .string details ∧
      a = { code, details, trailer := (handleErrorStatus error).metadata } := by
  simp only [ErrorObject.answer, Option.bind_eq_bind, Option.bind_eq_some_iff, Option.pure_def,
    Option.some.injEq, JsValue.string?_eq_some_iff]
  constructor
  · rintro ⟨code, hcode, details, hdetails, rfl⟩
    exact ⟨code, details, hcode, hdetails, rfl⟩
  · rintro ⟨code, details, hcode, hdetails, rfl⟩
    exact ⟨code, hcode, details, hdetails, rfl⟩

theorem speaks_handleError (call : ServerCall core) (error : ErrorObject core) :
    Speaks call (call.handleError error) (call.errorSaid error) := by
  unfold ServerCall.handleError ServerCall.startBatch ServerCall.errorSaid ServerCall.heard
  cases hreleased : call.released with
  | true => exact .silent rfl id
  | false =>
      rw [startBatch_statusBatch_eq]
      cases hanswer : error.answer with
      | some a =>
          obtain ⟨code, details, hcode, hdetails, rfl⟩ :=
            ErrorObject.answer_eq_some_iff.mp hanswer
          rw [parseOp_answer _ hcode hdetails none]
          exact .answer _ _ 0 rfl (Nat.zero_and _) rfl
      | none =>
          have hrejected : ¬ ((∃ n, (handleErrorStatus error).code.uint32? = some n) ∧
              ∃ s, (handleErrorStatus error).details = .string s) := by
            rintro ⟨⟨n, hn⟩, s, hs⟩
            have hsome := ErrorObject.answer_eq_some_iff.mpr ⟨n, s, hn, hs, rfl⟩
            exact absurd (hanswer.symm.trans hsome) (Option.some_ne_none _).symm
          rw [parseOp_eq_none hrejected]
          exact .silent rfl id

theorem speaks_sendMetadata (call : ServerCall core) (responseMetadata : Metadata core) :
    Speaks call (call.sendMetadata responseMetadata) (call.metadataSaid responseMetadata) := by
  unfold ServerCall.sendMetadata ServerCall.metadataSaid
  cases hsent : call.metadataSent with
  | true =>
      rw [Bool.or_true]
      exact .silent rfl id
  | false =>
      have hop : startBatch core [(.sendInitialMetadata, responseMetadata.getCoreRepresentation)] =
          .ok [.sendInitialMetadata responseMetadata.array] := by
        simp only [startBatch, parseOp, SendMetadataOp.parseOp,
          responseMetadata.createMetadataArray_eq]
        rfl
      simp only [ServerCall.startBatch, hop]
      cases hreleased : call.released with
      | true => exact .silent rfl fun h => absurd h (by rw [hsent]; exact Bool.false_ne_true)
      | false => exact .initialMetadata _ hsent rfl rfl

/-- The batch of a response that is a buffer. -/
theorem startBatch_buffer (bytes : Buffer) (own : List (String × JsValue)) (metadata : Metadata core) :
    ∃ flags, flags &&& core.writeUsedMask = flags ∧
      startBatch core [(.sendMessage, .buffer bytes own),
        (.sendStatusFromServer,
          (⟨statusCode .ok, .string "OK", metadata⟩ : StatusObject core).toValue)] =
        .ok (Answer.ops {
          message := some bytes
          code := Status.ok.toNat
          details := "OK"
          trailer := metadata } flags) := by
  obtain ⟨flags, hflags, hmessage⟩ : ∃ flags, flags &&& core.writeUsedMask = flags ∧
      SendMessageOp.parseOp core (.buffer bytes own) = some (.sendMessage bytes flags) := by
    refine ⟨_, ?_, rfl⟩
    rw [Nat.and_assoc, Nat.and_self]
  have hstatus := parseOp_answer (⟨statusCode .ok, .string "OK", metadata⟩ : StatusObject core)
    (show (statusCode .ok).uint32? = some Status.ok.toNat from rfl) rfl (some bytes)
  refine ⟨flags, hflags, ?_⟩
  simp only [startBatch, parseOp, hmessage, hstatus]
  rfl

/-- A message that is not a buffer is refused by the addon. -/
theorem startBatch_not_buffer (core : Core) {message : JsValue} (h : message.isBuffer = false)
    (batch : Batch) : ∃ e, startBatch core ((.sendMessage, message) :: batch) = .error e := by
  cases message with
  | buffer bytes own => cases h
  | _ => exact ⟨_, rfl⟩

theorem speaks_sendUnaryResponse {γ : Type*} (call : ServerCall core) (value : γ)
    (serialize : γ → Except (ErrorObject core) JsValue) (metadata : Option (Metadata core))
    (flags : JsValue) :
    Speaks call (call.sendUnaryResponse value serialize metadata flags)
      (call.dataSaid serialize none value metadata) := by
  unfold ServerCall.sendUnaryResponse ServerCall.dataSaid
  cases serialize value with
  | error e => exact speaks_handleError call e.internal
  | ok message =>
      dsimp only
      cases hput : message.put "grpcWriteFlags" flags with
      | none =>
          -- The message is no object, let alone a buffer.
          cases message with
          | buffer bytes own => cases hput
          | _ => exact .silent rfl fun _ => rfl
      | some sent =>
          have hbuffer := isBuffer_of_put hput
          simp only [ServerCall.startBatch, ServerCall.initialMetadata, startBatch_initialMetadata]
          cases message with
          | buffer bytes own =>
              obtain ⟨own', rfl⟩ : ∃ own', sent = .buffer bytes own' := by
                obtain rfl := Option.some.inj hput
                exact ⟨_, rfl⟩
              obtain ⟨messageFlags, hflags, hbatch⟩ :=
                startBatch_buffer bytes own' (metadata.getD .new)
              simp only [hbatch, ServerCall.heard]
              cases hreleased : call.released with
              | true => exact .silent rfl fun _ => rfl
              | false => exact .answer _ _ messageFlags rfl hflags rfl
          | _ =>
              obtain ⟨e, hbatch⟩ := startBatch_not_buffer core hbuffer
                [(.sendStatusFromServer, (⟨statusCode .ok, .string "OK", metadata.getD .new⟩ :
                  StatusObject core).toValue)]
              rw [hbatch]
              cases call.released <;> exact .silent rfl fun _ => rfl

theorem speaks_sendUnaryData {γ : Type*} (call : ServerCall core)
    (serialize : γ → Except (ErrorObject core) JsValue) (err : Option (ErrorObject core)) (value : γ)
    (trailer : Option (Metadata core)) (flags : JsValue) :
    Speaks call (call.sendUnaryData serialize err value trailer flags)
      (call.dataSaid serialize err value trailer) := by
  cases err with
  | none => exact speaks_sendUnaryResponse call value serialize trailer flags
  | some err =>
      cases trailer with
      | none => exact speaks_handleError call err
      | some trailer => exact speaks_handleError call { err with metadata := some trailer }

/-! ### What the core takes of it -/

/-- The response that an answer makes. -/
def Answer.response (a : Answer core) (metadata : Metadata core) : UnaryResponse where
  metadata := parseMetadata core metadata.array
  read := a.message
  status := {
    code := a.code
    details := copyStringFromSlice (createSliceFromString a.details)
    metadata := parseMetadata core a.trailer.array }

/-- What the client is told can be sent: there are initial metadata, and the core finds nothing
illegal in them and in the trailer. -/
structure Sendable (t : Option (Metadata core) × Answer core) (metadata : Metadata core) : Prop where
  sent : t.1 = some metadata
  metadata : LegalMetadata core metadata.array
  trailer : LegalMetadata core t.2.trailer.array

theorem legal_ops {a : Answer core} {flags : Nat} (hflags : flags &&& core.writeUsedMask = flags)
    (htrailer : LegalMetadata core a.trailer.array) : ∀ op ∈ a.ops flags, op.Legal core := by
  intro op hop
  rcases List.mem_append.mp hop with hop | hop
  · obtain ⟨message, -, rfl⟩ := Option.map_eq_some_iff.mp (Option.mem_toList.mp hop)
    exact hflags
  · obtain rfl := List.mem_singleton.mp hop
    exact htrailer

/-- The types of the operations of an answer are different. -/
theorem nodup_ops (a : Answer core) (flags : Nat) : ((a.ops flags).map CoreOp.type).Nodup := by
  rcases a with ⟨message, code, details, trailer⟩
  cases message <;> exact of_decide_eq_true rfl

theorem mem_ops_status (a : Answer core) (flags : Nat) :
    .sendStatusFromServer a.status ∈ a.ops flags :=
  List.mem_append_right _ (List.mem_singleton_self _)

/-- The operations of an answer other than the initial metadata are of other types. -/
theorem unused_ops (a : Answer core) (flags : Nat) (array : MetadataArray) :
    Unused [.sendInitialMetadata array] (a.ops flags) := by
  intro op hop op' hop'
  obtain rfl := List.mem_singleton.mp hop'
  rcases List.mem_append.mp hop with hop | hop
  · obtain ⟨message, -, rfl⟩ := Option.map_eq_some_iff.mp (Option.mem_toList.mp hop)
    exact OpType.noConfusion
  · obtain rfl := List.mem_singleton.mp hop
    exact OpType.noConfusion

variable {transport : Transport}

/-- **What the core makes of initial metadata and an answer.** -/
theorem response_ops (h : transport.Documented core) (a : Answer core) (flags : Nat)
    (metadata : Metadata core) :
    (transport.response (.sendInitialMetadata metadata.array :: a.ops flags)).map
      (Response.value core) = some (a.response metadata) := by
  obtain ⟨message, code, details, trailer⟩ := a
  have hcomplete := h.complete metadata.array (message.map (·, flags))
    (Answer.status { message, code, details, trailer })
  cases message <;> exact congrArg (Option.map (Response.value core)) hcomplete

/-- The batches that have been started make the response that the client is told. -/
inductive Corresponds (transport : Transport) (call : ServerCall core) (said : List (Said core)) :
    Prop
  | silent (said_eq : said = []) (started_eq : call.started = [])
  | opened (metadata : Metadata core) (said_eq : said = [.initialMetadata metadata])
      (started_eq : call.started = [[.sendInitialMetadata metadata.array]])
      (sent : call.metadataSent = true)
  /-- What has been taken is what the client is told, if that can be sent. -/
  | answered (t : Option (Metadata core) × Answer core) (flags : Nat) (told_eq : told said = some t)
      (taken_eq : ∀ metadata, Sendable t metadata → transport.taken call.started =
        .sendInitialMetadata metadata.array :: t.2.ops flags)

namespace Corresponds

variable {call call' : ServerCall core} {said : List (Said core)} {more : Option (Said core)}

/-- What the client is told can be delivered, if it can be sent. -/
theorem response_eq (h : Corresponds transport call said) (htransport : transport.Documented core)
    {t : Option (Metadata core) × Answer core} {metadata : Metadata core}
    (htold : told said = some t) (hsendable : Sendable t metadata) :
    (transport.response (transport.taken call.started)).map (Response.value core) =
      some (t.2.response metadata) := by
  cases h with
  | silent said_eq _ => cases (said_eq ▸ htold : told [] = some t)
  | opened m said_eq _ _ => cases (said_eq ▸ htold : told [.initialMetadata m] = some t)
  | answered t' flags told_eq taken_eq =>
      obtain rfl := Option.some.inj (told_eq.symm.trans htold)
      rw [taken_eq metadata hsendable]
      exact response_ops htransport t'.2 flags metadata

/-- Where there is a response, the client is told something. -/
theorem told_of_response (h : Corresponds transport call said)
    (htransport : transport.Documented core) {response : Response}
    (hresponse : transport.response (transport.taken call.started) = some response) :
    ∃ t, told said = some t := by
  have hstatus : HasStatus call.started.flatten := by
    by_contra hnone
    have hincomplete : ¬ HasStatus (transport.taken call.started) :=
      fun ⟨status, hmem⟩ => hnone ⟨status, Transport.taken_subset _ hmem⟩
    cases (htransport.incomplete hincomplete).symm.trans hresponse
  cases h with
  | silent _ started_eq =>
      obtain ⟨status, hmem⟩ := hstatus
      rw [started_eq] at hmem
      exact absurd hmem List.not_mem_nil
  | opened metadata _ started_eq _ =>
      rw [started_eq] at hstatus
      exact absurd hstatus (not_hasStatus_sendInitialMetadata _)
  | answered t _ told_eq _ => exact ⟨t, told_eq⟩

/-- The first answer -/
theorem first (h : Corresponds transport call said) (htransport : transport.Documented core)
    {a : Answer core} {flags : Nat} (hsaid : told said = none)
    (hflags : flags &&& core.writeUsedMask = flags)
    (hstarted : call'.started = call.started ++
      [(if call.metadataSent then [] else [.sendInitialMetadata []]) ++ a.ops flags]) :
    Corresponds transport call' (said ++ [.answer a (!call.metadataSent)]) := by
  cases h with
  | silent said_eq started_eq =>
      refine .answered (if !call.metadataSent then some .new else none, a) flags
        (by rw [said_eq]; rfl) fun metadata hsendable => ?_
      -- The initial metadata go with the answer.
      have hmetadata := hsendable.sent
      cases hsent : call.metadataSent with
      | true =>
          rw [hsent] at hmetadata
          cases hmetadata
      | false =>
          rw [hsent] at hmetadata
          obtain rfl := Option.some.inj hmetadata
          rw [hstarted, started_eq, hsent]
          refine Transport.taken_of_unused htransport (fun _ _ _ hop' => ?_) ?_ ?_
          · exact absurd hop' List.not_mem_nil
          · refine List.nodup_cons.mpr ⟨fun hmem => ?_, nodup_ops a flags⟩
            obtain ⟨op, hop, htype⟩ := List.mem_map.mp hmem
            exact unused_ops a flags [] op hop _ (List.mem_singleton_self _) htype.symm
          · refine List.forall_mem_cons.mpr ⟨fun e he => ?_, legal_ops hflags hsendable.trailer⟩
            exact absurd he List.not_mem_nil
  | opened m said_eq started_eq sent =>
      refine .answered (some m, a) flags (by rw [said_eq]; rfl) fun metadata hsendable => ?_
      obtain rfl := Option.some.inj hsendable.sent
      have hopened : transport.taken [[.sendInitialMetadata m.array]] =
          [.sendInitialMetadata m.array] :=
        @Transport.taken_of_unused _ _ htransport [] _ (fun _ _ _ hop' => by cases hop')
          (List.nodup_singleton _) (List.forall_mem_singleton.mpr hsendable.metadata)
      rw [hstarted, started_eq, sent, if_pos rfl, List.nil_append,
        Transport.taken_of_unused htransport ?_ (nodup_ops a flags)
          (legal_ops hflags hsendable.trailer), hopened]
      · rfl
      · rw [hopened]
        exact unused_ops a flags m.array
  | answered t _ told_eq _ => cases told_eq.symm.trans hsaid

/-- What is said after the first answer is refused. -/
theorem later (htransport : transport.Documented core) {t : Option (Metadata core) × Answer core}
    {metadata : Metadata core} {flags : Nat}
    (htaken : transport.taken call.started = .sendInitialMetadata metadata.array :: t.2.ops flags)
    (hspeaks : Speaks call call' more) :
    transport.taken call'.started = transport.taken call.started := by
  cases hspeaks with
  | silent started _ => rw [started]
  | initialMetadata m _ started _ =>
      have hused : .sendInitialMetadata metadata.array ∈ transport.taken call.started := by
        rw [htaken]
        exact List.mem_cons_self
      rw [started]
      exact Transport.taken_of_used htransport hused (List.mem_singleton_self _)
        (of_decide_eq_true rfl) rfl
  | answer a first flags' _ _ started =>
      have hused : .sendStatusFromServer t.2.status ∈ transport.taken call.started := by
        rw [htaken]
        exact List.mem_cons_of_mem _ (mem_ops_status t.2 flags)
      rw [started]
      exact Transport.taken_of_used htransport hused
        (List.mem_append_right _ (mem_ops_status a flags')) (of_decide_eq_true rfl) rfl

/-- **Nothing that is said breaks the correspondence.** -/
theorem speaks (h : Corresponds transport call said) (htransport : transport.Documented core)
    (hspeaks : Speaks call call' more) : Corresponds transport call' (said ++ more.toList) := by
  cases htold : told said with
  | some t =>
      cases h with
      | silent said_eq _ => cases (said_eq ▸ htold : told [] = some t)
      | opened m said_eq _ _ => cases (said_eq ▸ htold : told [.initialMetadata m] = some t)
      | answered t' flags told_eq taken_eq =>
          refine .answered t' flags (told_append told_eq _) fun metadata hsendable => ?_
          have htaken := taken_eq metadata hsendable
          rw [later htransport htaken hspeaks, htaken]
  | none =>
      cases hspeaks with
      | silent started keeps =>
          rw [Option.toList_none, List.append_nil]
          cases h with
          | silent said_eq started_eq => exact .silent said_eq (started.trans started_eq)
          | opened metadata said_eq started_eq sent =>
              exact .opened metadata said_eq (started.trans started_eq) (keeps sent)
          | answered t _ told_eq _ => cases told_eq.symm.trans htold
      | initialMetadata metadata unset started sets =>
          cases h with
          | silent said_eq started_eq =>
              refine .opened metadata (by rw [said_eq]; rfl) ?_ sets
              rw [started, started_eq, List.nil_append]
          | opened _ _ _ sent => exact absurd (unset.symm.trans sent) Bool.false_ne_true
          | answered t _ told_eq _ => cases told_eq.symm.trans htold
      | answer a first flags first_eq flags_eq started =>
          subst first_eq
          exact h.first htransport htold flags_eq started

end Corresponds

end GrpcNode.NativeCore
