import GrpcNode.NativeCore.ClientCall
import GrpcNode.NativeCore.StreamedCall

/-!
# GrpcNode.NativeCore.StreamHandler

`handleServerStreaming` and `handleBidiStreaming` of `server.js`, with all that is started on the
call: what the stream of the handler writes and reads, the request, and `waitForCancel`.

The two halves of a stream share the call and its errors. `Inv` keeps track of what is outstanding,
and `always_disciplined` says that the core can take every batch.
-/

namespace GrpcNode.NativeCore

open GrpcNode.Js

namespace StreamHandler

variable {core : Core} {β γ : Type*}

/-- The rules of the core for the operations of a server. -/
def serverRules : Discipline.Rules OpType where
  once type := type ≠ .sendMessage ∧ type ≠ .recvMessage
  ends type type' := type = .sendStatusFromServer ∧
    (type' = .sendInitialMetadata ∨ type' = .sendMessage)

/-- What has been started on a call, and what has been completed. -/
abbrev History := List (Discipline.Event CoreOp OpType)

/-- A streaming handler with its two streams. `called` is whether the handler has been called, and
`reads` whether its requests are read by a stream. -/
structure State (core : Core) (β : Type*) where
  writer : ServerWriteStream.State core := {}
  /-- The other half of a `ServerDuplexStream` -/
  reader : ServerReadStream.State core β := {}
  /-- The stream is a `ServerDuplexStream`. -/
  reads : Bool
  /-- `handler.func(stream)` has been called. -/
  called : Bool
  /-- The batch that reads the request has not completed. -/
  requestOutstanding : Bool
  /-- The batch with `RECV_CLOSE_ON_SERVER` has not completed. -/
  cancelOutstanding : Bool := true
  /-- `stream.cancelled` -/
  cancelled : Bool := false
  /-- The operations of the batches of `_write` that have not completed, -/
  writeTypes : List OpType := []
  /-- of those of `sendMetadata`, -/
  metadataTypes : List OpType := []
  /-- and of those of `sendStatus`. -/
  statusTypes : List OpType := []
  history : History

/-- `handleServerStreaming(call, handler, metadata)` -/
def handleServerStreaming : State core β where
  reads := false
  called := false
  requestOutstanding := true
  history := [.start [.recvCloseOnServer], .start [.recvMessage]]

/-- `handleBidiStreaming(call, handler, metadata)` -/
def handleBidiStreaming : State core β where
  reads := true
  called := true
  requestOutstanding := false
  history := [.start [.recvCloseOnServer]]

/-- What can happen to a streaming handler. -/
inductive Act (core : Core) (γ : Type*)
  /-- Anything but the release of the call -/
  | writer (a : ServerWriteStream.Act core γ)
  /-- Anything but the release of the call -/
  | reader (a : ServerReadStream.Act)
  /-- The batch with the request completes. -/
  | requestCompletes (completion : Completion (Option Buffer))
  | cancelCompletes (completion : Completion Bool)
  /-- The batch of `sendStatus` completes. -/
  | statusCompletes
  | releaseCall

namespace State

variable (s : State core β)

/-- The operations that have not completed. -/
def outstanding : List OpType :=
  s.writeTypes ++ s.metadataTypes ++ s.statusTypes ++
    (if s.requestOutstanding then [.recvMessage] else []) ++
    List.replicate s.reader.reads .recvMessage ++
    (if s.cancelOutstanding then [.recvCloseOnServer] else [])

/-- A batch with operations of `types` completes. -/
def complete (types : List OpType) : State core β :=
  { s with history := s.history ++ [.complete types] }

/-- A completion is recorded in the history only; the streams still have to hear of it. -/
@[simp] theorem outstanding_complete (types : List OpType) :
    (s.complete types).outstanding = s.outstanding := rfl

/-- `stream.emit('error', error)` -/
def emitError (error : ErrorObject core) : State core β :=
  { s with writer := s.writer.terminateCall error }

/-- The batches that have been started, when the writing half has gone on. -/
def started (writer : ServerWriteStream.State core) : List (List CoreOp) :=
  writer.call.started.drop s.writer.call.started.length

/-- The writing half has gone on. -/
def writerGoesOn (a : ServerWriteStream.Act core γ) (writer : ServerWriteStream.State core) :
    State core β :=
  let types := (s.started writer).flatten.map CoreOp.type
  let s' := { s with writer, history := s.history ++ (s.started writer).map .start }
  match a with
  | .write _ _ => { s' with writeTypes := s.writeTypes ++ types }
  | .sendMetadata _ => { s' with metadataTypes := s.metadataTypes ++ types }
  | .finish => { s' with statusTypes := s.statusTypes ++ types }
  | .writeCompletes _ => { s' with writeTypes := [] }.complete s.writeTypes
  | .metadataCompletes _ => { s' with metadataTypes := [] }.complete s.metadataTypes
  | .streamEnd _ | .emitError _ | .releaseCall => s'

/-- The reading half has gone on, and may have emitted an error. -/
def readerGoesOn (reader : ServerReadStream.State core β) (error : Option (ErrorObject core)) :
    State core β :=
  let s' := { s with
    reader
    history := s.history ++
      (if reader.reads < s.reader.reads then [.complete [.recvMessage]] else []) ++
      (if s.reader.reads < reader.reads then [.start [.recvMessage]] else []) }
  match error with
  | some e => s'.emitError e
  | none => s'

/-- The callback with the request in `handleServerStreaming` -/
def onRequest (deserialize : Option Buffer → Except (ErrorObject core) β) :
    Completion (Option Buffer) → State core β
  | .error err => s.emitError (.ofAddon err)
  | .result data =>
      match deserialize data with
      | .error e => s.emitError e.internal
      | .ok _ => { s with called := true }

/-- What the callback in `waitForCancel` emits -/
def onCancelEvent : CancelEvent → State core β
  | .error err => s.emitError (.ofAddon err)
  | .cancelled => { s with cancelled := true, reader := s.reader.terminate }

/-- The callback in `waitForCancel` -/
def cancelCompletes (completion : Completion Bool) : State core β :=
  (cancelCompletion completion.err? completion.result?).events.foldl onCancelEvent s

end State

variable (serialize : γ → Except (ErrorObject core) BufferObject)
  (deserialize : Option Buffer → Except (ErrorObject core) β)

/-- The handler only has the stream when it has been called. -/
def byHandler : ServerWriteStream.Act core γ → Bool
  | .sendMetadata _ | .write _ _ | .streamEnd _ | .emitError _ => true
  | .writeCompletes _ | .metadataCompletes _ | .finish | .releaseCall => false

/-- One step. What the handler does with the write stream comes after it has been called, and the
call is released by `releaseCall` alone. -/
def step (s : State core β) : Act core γ → Option (State core β)
  | .writer .releaseCall | .reader .releaseCall => none
  | .writer a =>
      if byHandler a && !s.called then none
      else (ServerWriteStream.step serialize s.writer a).map (s.writerGoesOn a)
  | .reader a =>
      if s.reads then
        (ServerReadStream.step (fun data => deserialize (some data)) s.reader a).map fun reader =>
          s.readerGoesOn reader
            (ServerReadStream.emits (fun data => deserialize (some data)) s.reader a)
      else none
  | .requestCompletes completion =>
      Runs.when (s.requestOutstanding = true)
        (({ s with requestOutstanding := false }.complete [.recvMessage]).onRequest deserialize
          completion)
  | .cancelCompletes completion =>
      Runs.when (s.cancelOutstanding = true)
        (({ s with cancelOutstanding := false }.complete [.recvCloseOnServer]).cancelCompletes
          completion)
  | .statusCompletes =>
      Runs.when (s.statusTypes ≠ []) ({ s with statusTypes := [] }.complete s.statusTypes)
  | .releaseCall =>
      Runs.when (s.outstanding = [] ∧ .sendStatusFromServer ∈ Discipline.completed s.history)
        { s with
          writer := { s.writer with call := { s.writer.call with released := true } }
          reader := { s.reader with callReleased := true } }

/-! ### What the writing half starts -/

variable {serialize deserialize}

/-- Initial metadata, if they have not been sent. -/
def initialTypes (metadataSent : Bool) : List OpType :=
  if metadataSent then [] else [.sendInitialMetadata]

/-- The operations of the batch that a step of the writing half may start. -/
def batchTypes (metadataSent : Bool) : ServerWriteStream.Act core γ → List OpType
  | .sendMetadata _ => [.sendInitialMetadata]
  | .write _ _ => initialTypes metadataSent ++ [.sendMessage]
  | .finish => initialTypes metadataSent ++ [.sendStatusFromServer]
  | .writeCompletes _ | .metadataCompletes _ | .streamEnd _ | .emitError _ | .releaseCall => []

/-- The types of the metadata that is put before whatever is sent first. -/
theorem initialMetadata_types (call : ServerCall core) :
    call.initialMetadata.map Prod.fst = initialTypes call.metadataSent := by
  unfold ServerCall.initialMetadata initialTypes
  split <;> rfl

/-- The types of the batch with the status. -/
theorem statusBatch_types (metadataSent : Bool) (status : StatusObject core) :
    (statusBatch metadataSent status).map Prod.fst =
      initialTypes metadataSent ++ [.sendStatusFromServer] := by
  cases metadataSent <;> rfl

/-- A batch is started if its callback is kept. -/
theorem startBatch_cases (call : ServerCall core) (batch : Batch) :
    (call.startBatch batch).started = call.started ∧ call.callback batch ≠ .kept ∨
      ∃ ops, (call.startBatch batch).started = call.started ++ [ops] ∧
        ops.map CoreOp.type = batch.map Prod.fst ∧ call.callback batch = .kept := by
  unfold ServerCall.startBatch ServerCall.callback
  split
  · exact .inl ⟨rfl, CallbackFate.noConfusion⟩
  · cases hbatch : NativeCore.startBatch core batch with
    | error e => exact .inl ⟨rfl, CallbackFate.noConfusion⟩
    | ok ops => exact .inr ⟨ops, rfl, startBatch_types hbatch, rfl⟩

/-- What a step of the writing half leaves outstanding, if it starts some batches. -/
def LeavesOutstanding (s s' : ServerWriteStream.State core) (batches : List (List CoreOp)) :
    ServerWriteStream.Act core γ → Prop
  | .write _ _ => batches ≠ [] → s'.writeOutstanding = true
  | .writeCompletes _ => s'.writeOutstanding = false
  | .sendMetadata _ | .metadataCompletes _ | .streamEnd _ | .emitError _ | .finish | .releaseCall =>
      s'.writeOutstanding = s.writeOutstanding

/-- What a step of the writing half starts. -/
structure WriterStep (s s' : ServerWriteStream.State core) (a : ServerWriteStream.Act core γ)
    (batches : List (List CoreOp)) : Prop where
  started : s'.call.started = s.call.started ++ batches
  types : batches = [] ∨ ∃ ops, batches = [ops] ∧
    ops.map CoreOp.type = batchTypes s.call.metadataSent a
  leaves : LeavesOutstanding s s' batches a

/-- What `startBatch` of the stream does, with a callback that does not look at the call. -/
theorem streamStartBatch_cases (s : ServerWriteStream.State core) (batch : Batch)
    {kept : ServerWriteStream.State core → ServerWriteStream.State core}
    (hkept : ∀ t, (kept t).call = t.call) :
    (s.startBatch batch kept).call.started = s.call.started ∧
        (s.startBatch batch kept).writeOutstanding = s.writeOutstanding ∨
      ∃ ops t, (s.startBatch batch kept).call.started = s.call.started ++ [ops] ∧
        ops.map CoreOp.type = batch.map Prod.fst ∧ s.startBatch batch kept = kept t ∧
        t.writeOutstanding = s.writeOutstanding := by
  rw [ServerWriteStream.State.startBatch_call s batch hkept]
  unfold ServerWriteStream.State.startBatch
  rcases startBatch_cases s.call batch with ⟨hstarted, hnot⟩ | ⟨ops, hstarted, htypes, hcallback⟩
  · refine .inl ⟨hstarted, ?_⟩
    cases hcallback : s.call.callback batch with
    | failed | dropped => rfl
    | kept => exact absurd hcallback hnot
  · refine .inr ⟨ops, { s with call := s.call.startBatch batch }, hstarted, htypes, ?_, rfl⟩
    rw [hcallback]

/-- What starts no batch is a step that starts none. -/
theorem writerStep_silent {s s' : ServerWriteStream.State core}
    {a : ServerWriteStream.Act core γ} (hstarted : s'.call.started = s.call.started)
    (hleaves : LeavesOutstanding s s' [] a) : ∃ batches, WriterStep s s' a batches :=
  ⟨[], by rw [hstarted, List.append_nil], .inl rfl, hleaves⟩

/-- What starts one batch is a step that starts it, if its types are those of the action. -/
theorem writerStep_starts {s s' : ServerWriteStream.State core}
    {a : ServerWriteStream.Act core γ} {ops : List CoreOp}
    (hstarted : s'.call.started = s.call.started ++ [ops])
    (htypes : ops.map CoreOp.type = batchTypes s.call.metadataSent a)
    (hleaves : LeavesOutstanding s s' [ops] a) : ∃ batches, WriterStep s s' a batches :=
  ⟨[ops], hstarted, .inr ⟨ops, rfl, htypes⟩, hleaves⟩

/-- `startBatch` either starts the batch it is given or throws and starts none. -/
theorem writerStep_startBatch {s s₀ : ServerWriteStream.State core}
    {a : ServerWriteStream.Act core γ} {batch : Batch}
    {kept : ServerWriteStream.State core → ServerWriteStream.State core}
    (hkept : ∀ t, (kept t).call = t.call) (hstarted₀ : s₀.call.started = s.call.started)
    (htypes : batch.map Prod.fst = batchTypes s.call.metadataSent a)
    (hsilent : ∀ s' : ServerWriteStream.State core, s'.writeOutstanding = s₀.writeOutstanding →
      LeavesOutstanding s s' [] a)
    (hstarts : ∀ (t : ServerWriteStream.State core) ops, t.writeOutstanding = s₀.writeOutstanding →
      LeavesOutstanding s (kept t) [ops] a) :
    ∃ batches, WriterStep s (s₀.startBatch batch kept) a batches := by
  rcases streamStartBatch_cases s₀ batch hkept with
    ⟨hstarted, hsame⟩ | ⟨ops, t, hstarted, hops, heq, hsame⟩
  · exact writerStep_silent (hstarted.trans hstarted₀) (hsilent _ hsame)
  · rw [hstarted₀] at hstarted
    refine writerStep_starts hstarted (hops.trans htypes) ?_
    rw [heq]
    exact hstarts t ops hsame

/-- `_write` starts at most the batch with its message. -/
theorem writerStep_writeMessage (s : ServerWriteStream.State core) (chunk : Option γ)
    (message : Option BufferObject) (encoding : JsValue) :
    ∃ batches, WriterStep s (s.writeMessage message encoding) (.write chunk encoding) batches := by
  unfold ServerWriteStream.State.writeMessage
  cases ServerWriteStream.State.flagged message encoding with
  | none => exact writerStep_silent rfl fun h => absurd rfl h
  | some value =>
      refine writerStep_startBatch ?_ rfl ?_ (fun _ _ h => absurd rfl h) fun _ _ _ _ => rfl
      · exact fun _ => rfl
      · rw [List.map_append, initialMetadata_types]
        rfl

/-- Every step of the write stream starts the batches that its action is about. By cases on the
action. -/
theorem writerStep {s s' : ServerWriteStream.State core} {a : ServerWriteStream.Act core γ}
    (h : ServerWriteStream.step serialize s a = some s') :
    ∃ batches, WriterStep s s' a batches := by
  cases a with
  | sendMetadata responseMetadata =>
      obtain rfl := Option.some.inj h
      unfold ServerWriteStream.State.sendMetadata
      split
      · exact writerStep_startBatch (fun _ => rfl) rfl rfl (fun _ hsame => hsame)
          fun _ _ hsame => hsame
      · exact writerStep_silent rfl rfl
  | write chunk encoding =>
      obtain ⟨-, rfl⟩ := Runs.when_eq_some.mp h
      unfold ServerWriteStream.State.write
      split
      · exact writerStep_silent rfl fun h => absurd rfl h
      · exact writerStep_writeMessage s chunk _ encoding
  | writeCompletes completion =>
      obtain ⟨-, rfl⟩ := Runs.when_eq_some.mp h
      cases completion <;> exact writerStep_silent rfl rfl
  | metadataCompletes completion =>
      obtain ⟨-, rfl⟩ := Runs.when_eq_some.mp h
      cases completion <;> exact writerStep_silent rfl rfl
  | streamEnd metadata =>
      obtain rfl := Option.some.inj h
      cases metadata <;> exact writerStep_silent rfl rfl
  | emitError error =>
      obtain rfl := Option.some.inj h
      exact writerStep_silent rfl rfl
  | finish =>
      obtain ⟨-, rfl⟩ := Runs.when_eq_some.mp h
      rcases startBatch_cases { s.call with metadataSent := true }
        (statusBatch s.call.metadataSent s.status) with ⟨hstarted, -⟩ | ⟨ops, hstarted, htypes, -⟩
      · exact writerStep_silent hstarted rfl
      · refine writerStep_starts hstarted ?_ rfl
        rw [htypes, statusBatch_types]
        rfl
  | releaseCall =>
      obtain rfl := Option.some.inj h
      exact writerStep_silent rfl rfl

/-! ### The invariant -/

/-- What the writing half starts. -/
def isSend (type : OpType) : Prop :=
  type = .sendInitialMetadata ∨ type = .sendMessage ∨ type = .sendStatusFromServer

instance (type : OpType) : Decidable (isSend type) :=
  inferInstanceAs (Decidable (_ ∨ _ ∨ _))

/-- The discipline of a call, as the two halves of its stream keep it. -/
structure Inv (deserialize : Option Buffer → Except (ErrorObject core) β) (s : State core β) :
    Prop where
  obeys : Discipline.Obeys CoreOp.type serverRules s.history
  outstanding : Discipline.Outstanding CoreOp.type s.history s.outstanding
  writer : ServerWriteStream.Inv s.writer
  loop : ReadLoop.Inv (ServerReadStream.parse fun data => deserialize (some data)) s.reader.loop
  /-- Nobody else sends anything. -/
  sends : ∀ type ∈ Discipline.started CoreOp.type s.history, isSend type →
    type ∈ s.writer.call.ops.map CoreOp.type
  sendTypes : ∀ type ∈ s.writeTypes ++ s.metadataTypes ++ s.statusTypes, isSend type
  /-- Only `_write` sends messages. -/
  messages : .sendMessage ∉ s.metadataTypes ++ s.statusTypes
  writeTypes : s.writer.writeOutstanding = false → s.writeTypes = []
  request : s.requestOutstanding = true → s.reads = false
  reads : s.reads = false → s.reader.reads = 0

/-- A read is no operation that sends. -/
theorem not_isSend_recvMessage : ¬ isSend .recvMessage := by
  rintro (h | h | h) <;> cases h

/-- The write stream starts operations that send, and no others. -/
theorem batchTypes_isSend {metadataSent : Bool} {a : ServerWriteStream.Act core γ} {type : OpType}
    (h : type ∈ batchTypes metadataSent a) : isSend type := by
  unfold batchTypes initialTypes at h
  unfold isSend
  cases a <;> cases metadataSent <;> simp at h <;> tauto

/-- A batch of the write stream has no operation twice. -/
theorem batchTypes_nodup (metadataSent : Bool) (a : ServerWriteStream.Act core γ) :
    (batchTypes metadataSent a).Nodup := by
  cases a <;> cases metadataSent <;> simp [batchTypes, initialTypes]

/-- A status is among operations one of which is of its type. -/
theorem hasStatus_of_mem {ops : List CoreOp} (h : .sendStatusFromServer ∈ ops.map CoreOp.type) :
    HasStatus ops := by
  obtain ⟨op, hop, htype⟩ := List.mem_map.mp h
  cases op with
  | sendStatusFromServer status => exact ⟨status, hop⟩
  | _ => cases htype

/-- Metadata is counted in operations one of which is of its type. -/
theorem countP_pos_of_mem {ops : List CoreOp} (h : .sendInitialMetadata ∈ ops.map CoreOp.type) :
    0 < ops.countP CoreOp.isInitialMetadata := by
  obtain ⟨op, hop, htype⟩ := List.mem_map.mp h
  refine List.countP_pos_iff.mpr ⟨op, hop, ?_⟩
  cases op with
  | sendInitialMetadata metadata => rfl
  | _ => cases htype

/-- An operation that sends is not outstanding unless the write stream waits for it. -/
theorem State.not_mem_outstanding {s : State core β} {type : OpType}
    (hsends : type ∉ s.writeTypes ++ s.metadataTypes ++ s.statusTypes) (hsend : isSend type) :
    type ∉ s.outstanding := by
  have hread : type ≠ .recvMessage := by
    rintro rfl
    simp [isSend] at hsend
  have hclose : type ≠ .recvCloseOnServer := by
    rintro rfl
    simp [isSend] at hsend
  intro h
  rw [State.outstanding, List.mem_append, List.mem_append, List.mem_append] at h
  rcases h with ((h | h) | h) | h
  · exact hsends h
  · split at h <;> simp_all
  · exact hread (List.eq_of_mem_replicate h)
  · split at h <;> simp_all

/-- No read is outstanding if neither the request nor the read stream waits for one. -/
theorem Inv.not_reading {s : State core β} (h : Inv deserialize s)
    (hrequest : s.requestOutstanding = false) (hreads : s.reader.reads = 0) :
    .recvMessage ∉ s.outstanding := by
  have hsends : .recvMessage ∉ s.writeTypes ++ s.metadataTypes ++ s.statusTypes := fun hmem =>
    not_isSend_recvMessage (h.sendTypes _ hmem)
  rw [State.outstanding, hrequest, hreads, if_neg Bool.false_ne_true, List.append_nil,
    List.replicate_zero, List.append_nil, List.mem_append, not_or]
  refine ⟨hsends, ?_⟩
  split
  · exact fun hmem => OpType.noConfusion (List.mem_singleton.mp hmem)
  · exact List.not_mem_nil

/-- The core can take what the writing half starts. -/
theorem Inv.allowed {s : State core β} (h : Inv deserialize s)
    {writer : ServerWriteStream.State core} (hwriter : ServerWriteStream.Inv writer)
    {ops : List CoreOp} (hstarted : writer.call.started = s.writer.call.started ++ [ops])
    (hnodup : (ops.map CoreOp.type).Nodup) (hsend : ∀ type ∈ ops.map CoreOp.type, isSend type)
    (hwrites : .sendMessage ∈ ops.map CoreOp.type → s.writeTypes = []) :
    Discipline.Allowed CoreOp.type serverRules s.history ops := by
  have hone : OneStatus (s.writer.call.ops ++ ops) := by
    have hone := hwriter.order.toOneStatus
    rwa [hstarted, List.flatten_append, List.flatten_singleton] at hone
  have hnone : ∀ type ∈ ops.map CoreOp.type, ¬ HasStatus s.writer.call.ops := by
    intro type htype hstatus
    rw [hone.statusLast.eq_nil hstatus] at htype
    exact absurd htype List.not_mem_nil
  have hnew : ∀ type ∈ ops.map CoreOp.type, type ≠ .sendMessage →
      type ∉ Discipline.started CoreOp.type s.history := by
    intro type htype hmessage hmem
    have hops := h.sends type hmem (hsend type htype)
    rcases hsend type htype with rfl | rfl | rfl
    · have hcount := hone.metadataOnce
      rw [List.countP_append] at hcount
      have hbefore := countP_pos_of_mem hops
      have hnow := countP_pos_of_mem htype
      omega
    · exact hmessage rfl
    · exact hnone _ htype (hasStatus_of_mem hops)
  have hidle : ∀ type ∈ ops.map CoreOp.type, type ∉ s.outstanding := by
    intro type htype
    by_cases hmessage : type = .sendMessage
    · subst hmessage
      refine State.not_mem_outstanding ?_ (hsend _ htype)
      rw [hwrites htype, List.nil_append]
      exact h.messages
    · intro hmem
      exact hnew type htype hmessage
        (List.Perm.mem_iff h.outstanding |>.mpr (List.mem_append_right _ hmem))
  refine ⟨hnodup, fun type htype => h.outstanding.idle (hidle type htype), ?_, ?_⟩
  · rintro type htype ⟨hmessage, -⟩
    exact hnew type htype hmessage
  · rintro type htype before hbefore ⟨rfl, -⟩
    have hops := h.sends _ hbefore (.inr (.inr rfl))
    exact hnone type htype (hasStatus_of_mem hops)

/-- The history of a step of the writing half, and what has not completed after it. -/
structure Started (s : State core β) (writer : ServerWriteStream.State core)
    (batches : List (List CoreOp)) : Prop where
  obeys : Discipline.Obeys CoreOp.type serverRules (s.history ++ batches.map .start)
  outstanding : Discipline.Outstanding CoreOp.type (s.history ++ batches.map .start)
    (s.outstanding ++ batches.flatten.map CoreOp.type)
  sends : ∀ type ∈ Discipline.started CoreOp.type (s.history ++ batches.map .start),
    isSend type → type ∈ writer.call.ops.map CoreOp.type
  isSend : ∀ type ∈ batches.flatten.map CoreOp.type, isSend type

/-- Nothing else is started. -/
theorem WriterStep.mem_batchTypes {s s' : ServerWriteStream.State core}
    {a : ServerWriteStream.Act core γ} {batches : List (List CoreOp)}
    (hstep : WriterStep s s' a batches) {type : OpType}
    (h : type ∈ batches.flatten.map CoreOp.type) : type ∈ batchTypes s.call.metadataSent a := by
  rcases hstep.types with rfl | ⟨ops, rfl, hops⟩
  · exact absurd h List.not_mem_nil
  · rwa [List.flatten_singleton, hops] at h

/-- The invariant carries over to the batches that the write stream starts. No operation that it
starts is outstanding already, since the stream waits for what it has started. -/
theorem Inv.started {s : State core β} (h : Inv deserialize s)
    {writer : ServerWriteStream.State core} {a : ServerWriteStream.Act core γ}
    {batches : List (List CoreOp)} (hwriter : ServerWriteStream.Inv writer)
    (hstep : WriterStep s.writer writer a batches)
    (hwrites : .sendMessage ∈ batchTypes s.writer.call.metadataSent a → s.writeTypes = []) :
    Started s writer batches := by
  have hops : writer.call.ops = s.writer.call.ops ++ batches.flatten := by
    rw [ServerCall.ops, hstep.started, List.flatten_append]
    rfl
  have hsend : ∀ type ∈ batches.flatten.map CoreOp.type, isSend type := fun type htype =>
    batchTypes_isSend (hstep.mem_batchTypes htype)
  rcases hstep.types with rfl | ⟨ops, rfl, htypes⟩
  · rw [List.flatten_nil, List.append_nil] at hops
    refine ⟨?_, ?_, ?_, hsend⟩
    · simpa using h.obeys
    · simpa using h.outstanding
    · simpa [hops] using h.sends
  · have hallowed := h.allowed hwriter hstep.started (htypes ▸ batchTypes_nodup _ a)
      (fun type htype => batchTypes_isSend (htypes ▸ htype)) (fun hmem => hwrites (htypes ▸ hmem))
    refine ⟨h.obeys.start hallowed, ?_, fun type htype hsend => ?_, hsend⟩
    · rw [List.flatten_singleton]
      exact h.outstanding.start ops
    · rw [hops, List.flatten_singleton, List.map_append]
      rw [List.map_singleton, Discipline.started_start, List.mem_append] at htype
      exact List.mem_append.mpr (htype.imp_left fun hmem => h.sends type hmem hsend)

section

variable {s : State core β} {writer : ServerWriteStream.State core} {batches : List (List CoreOp)}
  {writeTypes metadataTypes statusTypes : List OpType}

/-- The writing half has started operations, which are with the others now. -/
theorem Inv.starts (h : Inv deserialize s) (hstarted : Started s writer batches)
    (hwriter : ServerWriteStream.Inv writer)
    (hperm : (s.writeTypes ++ s.metadataTypes ++ s.statusTypes ++
      batches.flatten.map CoreOp.type).Perm (writeTypes ++ metadataTypes ++ statusTypes))
    (hmessages : .sendMessage ∉ metadataTypes ++ statusTypes)
    (hidle : writer.writeOutstanding = false → writeTypes = []) :
    Inv deserialize { s with
      writer, history := s.history ++ batches.map .start
      writeTypes, metadataTypes, statusTypes } :=
  { h with
    obeys := hstarted.obeys
    outstanding := by
      refine hstarted.outstanding.perm (List.perm_iff_count.mpr fun type => ?_)
      have hcount := List.perm_iff_count.mp hperm type
      simp only [State.outstanding, List.count_append] at hcount ⊢
      omega
    writer := hwriter
    sends := hstarted.sends
    sendTypes := fun type htype =>
      (List.mem_append.mp (hperm.mem_iff.mpr htype)).elim (h.sendTypes type) (hstarted.isSend type)
    messages := hmessages
    writeTypes := hidle }

/-- A batch of the writing half has completed, and nothing has been started. -/
theorem Inv.completes (h : Inv deserialize s) (hstarted : Started s writer batches)
    (hsilent : batches.flatten.map CoreOp.type = []) (hwriter : ServerWriteStream.Inv writer)
    {types : List OpType}
    (hperm : (s.writeTypes ++ s.metadataTypes ++ s.statusTypes).Perm
      (types ++ (writeTypes ++ metadataTypes ++ statusTypes)))
    (hmessages : .sendMessage ∉ metadataTypes ++ statusTypes)
    (hidle : writer.writeOutstanding = false → writeTypes = []) :
    Inv deserialize (State.complete { s with
      writer, history := s.history ++ batches.map .start
      writeTypes, metadataTypes, statusTypes } types) :=
  { h with
    obeys := hstarted.obeys.complete types
    outstanding := by
      have hout := hstarted.outstanding
      rw [hsilent, List.append_nil] at hout
      refine (hout.perm (List.perm_iff_count.mpr fun type => ?_)).complete
      have hcount := List.perm_iff_count.mp hperm type
      rw [State.outstanding_complete]
      simp only [State.outstanding, List.count_append] at hcount ⊢
      omega
    writer := hwriter
    sends := by
      rw [State.complete, Discipline.started_complete]
      exact hstarted.sends
    sendTypes := fun type htype =>
      h.sendTypes type (hperm.mem_iff.mpr (List.mem_append_right _ htype))
    messages := hmessages
    writeTypes := hidle }

end

/-- The writing half has gone on. -/
theorem Inv.writerGoesOn {s : State core β} (h : Inv deserialize s)
    {writer : ServerWriteStream.State core} {a : ServerWriteStream.Act core γ}
    {batches : List (List CoreOp)} (hwriter : ServerWriteStream.Inv writer)
    (hstep : WriterStep s.writer writer a batches)
    (hidle : .sendMessage ∈ batchTypes s.writer.call.metadataSent a →
      s.writer.writeOutstanding = false) :
    Inv deserialize (s.writerGoesOn a writer) := by
  have hstarted : s.started writer = batches := by
    rw [State.started, hstep.started, List.drop_left]
  have hsilent : batchTypes s.writer.call.metadataSent a = [] →
      batches.flatten.map CoreOp.type = [] := fun hnil =>
    List.eq_nil_iff_forall_not_mem.mpr fun type hmem =>
      List.not_mem_nil (hnil ▸ hstep.mem_batchTypes hmem)
  have hbatches := h.started hwriter hstep fun hmem => h.writeTypes (hidle hmem)
  have hmessages := h.messages
  have hleaves := hstep.leaves
  cases a with
  | write chunk encoding =>
      simp only [State.writerGoesOn, hstarted]
      refine h.starts hbatches hwriter (List.perm_iff_count.mpr fun type => ?_) hmessages
        fun hfalse => ?_
      · simp only [List.count_append]
        omega
      · have hnone : batches = [] := by
          by_contra hne
          exact absurd (hfalse.symm.trans (hleaves hne)) Bool.false_ne_true
        have hbefore : s.writeTypes = [] := h.writeTypes (hidle (by simp [batchTypes]))
        simp [hnone, hbefore]
  | sendMetadata responseMetadata =>
      have hnot : .sendMessage ∉ batches.flatten.map CoreOp.type := fun hmem =>
        absurd (hstep.mem_batchTypes hmem) (by simp [batchTypes])
      simp only [State.writerGoesOn, hstarted]
      refine h.starts hbatches hwriter (List.perm_iff_count.mpr fun type => ?_) ?_
        fun hfalse => h.writeTypes (hleaves.symm.trans hfalse)
      · simp only [List.count_append]
        omega
      · simp only [List.mem_append] at hmessages ⊢
        tauto
  | finish =>
      have hnot : .sendMessage ∉ batches.flatten.map CoreOp.type := fun hmem =>
        absurd (hstep.mem_batchTypes hmem)
          (by cases s.writer.call.metadataSent <;> simp [batchTypes, initialTypes])
      simp only [State.writerGoesOn, hstarted]
      refine h.starts hbatches hwriter (List.perm_iff_count.mpr fun type => ?_) ?_
        fun hfalse => h.writeTypes (hleaves.symm.trans hfalse)
      · simp only [List.count_append]
        omega
      · simp only [List.mem_append] at hmessages ⊢
        tauto
  | writeCompletes completion =>
      simp only [State.writerGoesOn, hstarted]
      refine h.completes hbatches (hsilent rfl) hwriter ?_ hmessages fun _ => rfl
      rw [List.nil_append, List.append_assoc]
  | metadataCompletes completion =>
      simp only [State.writerGoesOn, hstarted]
      refine h.completes hbatches (hsilent rfl) hwriter (List.perm_iff_count.mpr fun type => ?_) ?_
        fun hfalse => h.writeTypes (hleaves.symm.trans hfalse)
      · simp only [List.count_append, List.count_nil]
        omega
      · exact fun hmem => hmessages (List.mem_append_right _ hmem)
  | streamEnd _ | emitError _ | releaseCall =>
      simp only [State.writerGoesOn, hstarted]
      refine h.starts hbatches hwriter ?_ hmessages
        fun hfalse => h.writeTypes (hleaves.symm.trans hfalse)
      rw [hsilent rfl, List.append_nil]

/-- What an error event does keeps the invariant: the status of it is sent by the write stream. -/
theorem Inv.emitError {s : State core β} (h : Inv deserialize s) (error : ErrorObject core) :
    Inv deserialize (s.emitError error) :=
  { h with
    writer := h.writer.terminateCall error
    sends := h.sends
    writeTypes := h.writeTypes }

/-- A batch completes that is not one of the writing half. -/
theorem Inv.complete {s : State core β} (h : Inv deserialize s) (s' : State core β)
    {types : List OpType} (hhistory : s'.history = s.history ++ [.complete types])
    (houtstanding : s.outstanding.Perm (types ++ s'.outstanding)) :
    Discipline.Obeys CoreOp.type serverRules s'.history ∧
      Discipline.Outstanding CoreOp.type s'.history s'.outstanding ∧
      ∀ type ∈ Discipline.started CoreOp.type s'.history, isSend type →
        type ∈ s.writer.call.ops.map CoreOp.type := by
  rw [hhistory, Discipline.started_complete]
  exact ⟨h.obeys.complete types, (h.outstanding.perm houtstanding).complete, h.sends⟩

/-- A step of the read stream keeps the invariant. It starts at most one read, and none while one is
outstanding. -/
theorem Inv.readerGoesOn {s : State core β} (h : Inv deserialize s) (hreads : s.reads = true)
    {reader : ServerReadStream.State core β}
    (hloop : ReadLoop.Inv (ServerReadStream.parse fun data => deserialize (some data)) reader.loop)
    (error : Option (ErrorObject core)) : Inv deserialize (s.readerGoesOn reader error) := by
  have hrequest : s.requestOutstanding = false := eq_false_of_ne_true fun hrequest =>
    absurd (hreads.symm.trans (h.request hrequest)) Bool.false_ne_true.symm
  have hbefore : s.reader.reads ≤ 1 := (Nat.le_add_right _ _).trans h.loop.atMostOne
  have hafter : reader.reads ≤ 1 := (Nat.le_add_right _ _).trans hloop.atMostOne
  have hnone : s.reads = false → reader.reads = 0 := fun hfalse =>
    absurd (hreads.symm.trans hfalse) Bool.false_ne_true.symm
  have hgoesOn : Inv deserialize (s.readerGoesOn reader none) := by
    simp only [State.readerGoesOn]
    rcases Nat.lt_trichotomy reader.reads s.reader.reads with hless | hsame | hmore
    · rw [if_pos hless, if_neg hless.not_gt, List.append_nil]
      obtain ⟨hobeys, hout, hsends⟩ := h.complete
        { s with reader, history := s.history ++ [.complete [.recvMessage]] } rfl (by
        rw [State.outstanding, State.outstanding, show s.reader.reads = 1 by omega,
          show reader.reads = 0 by omega, List.perm_iff_count]
        intro type
        simp only [List.count_append, List.replicate_one, List.replicate_zero, List.count_nil]
        omega)
      exact { h with
        obeys := hobeys
        outstanding := hout
        sends := hsends
        loop := hloop
        reads := hnone }
    · rw [if_neg hsame.not_lt, if_neg hsame.not_gt, List.append_nil, List.append_nil]
      exact { h with
        outstanding := by
          rw [State.outstanding, hsame]
          exact h.outstanding
        loop := hloop
        reads := hnone }
    · rw [if_neg hmore.not_gt, if_pos hmore, List.append_nil]
      have hallowed : Discipline.Allowed CoreOp.type serverRules s.history [.recvMessage] :=
        h.outstanding.allowed (h.not_reading hrequest (by omega)) (fun honce => absurd rfl honce.2)
          fun type htype => by
            rintro ⟨-, hends | hends⟩ <;> cases hends
      have hstarts := h.outstanding.start [CoreOp.recvMessage]
      refine { h with
        obeys := h.obeys.start hallowed
        outstanding := hstarts.perm ?_
        sends := ?_
        loop := hloop
        reads := hnone }
      · rw [State.outstanding, State.outstanding, show s.reader.reads = 0 by omega,
          show reader.reads = 1 by omega, List.perm_iff_count]
        intro type
        simp only [List.count_append, List.replicate_one, List.replicate_zero, List.count_nil,
          List.map_singleton, CoreOp.type]
        omega
      · intro type htype hsend
        rw [Discipline.started_start, List.mem_append] at htype
        rcases htype with hbefore | hnow
        · exact h.sends type hbefore hsend
        · rw [List.map_singleton, List.mem_singleton] at hnow
          rw [hnow] at hsend
          exact absurd hsend not_isSend_recvMessage
  cases error with
  | none => exact hgoesOn
  | some e => exact hgoesOn.emitError e

/-- The request of a server streaming call completes once, and the handler is called with it or the
call ends with an error. -/
theorem Inv.onRequest {s : State core β} (h : Inv deserialize s)
    (completion : Completion (Option Buffer)) :
    Inv deserialize (s.onRequest deserialize completion) := by
  cases completion with
  | error err => exact h.emitError _
  | result data =>
      simp only [State.onRequest]
      split
      · exact h.emitError _
      · exact { h with }

/-- The batch of `waitForCancel` completes. -/
theorem Inv.cancelCompletes {s : State core β} (h : Inv deserialize s)
    (completion : Completion Bool) : Inv deserialize (s.cancelCompletes completion) := by
  unfold State.cancelCompletes
  generalize (cancelCompletion completion.err? completion.result?).events = events
  induction events generalizing s with
  | nil => exact h
  | cons e events ih =>
      refine ih ?_
      cases e with
      | error err => exact h.emitError _
      | cancelled => exact { h with }

/-- A step of the write stream, without the guard. -/
theorem step_writer {s s' : State core β} {a : ServerWriteStream.Act core γ}
    (h : step serialize deserialize s (.writer a) = some s') :
    ∃ writer, ServerWriteStream.step serialize s.writer a = some writer ∧
      s' = s.writerGoesOn a writer := by
  cases a with
  | releaseCall => cases h
  | _ =>
      simp only [step] at h
      split at h
      · cases h
      · obtain ⟨writer, hwriter, rfl⟩ := Option.map_eq_some_iff.mp h
        exact ⟨writer, hwriter, rfl⟩

/-- A step of the read stream is taken only if requests are read. -/
theorem step_reader {s s' : State core β} {a : ServerReadStream.Act}
    (h : step serialize deserialize s (.reader a) = some s') :
    s.reads = true ∧ ∃ reader error,
      ServerReadStream.step (fun data => deserialize (some data)) s.reader a = some reader ∧
        s' = s.readerGoesOn reader error := by
  cases a with
  | releaseCall => cases h
  | _ =>
      simp only [step] at h
      split at h
      · rename_i hreads
        obtain ⟨reader, hreader, rfl⟩ := Option.map_eq_some_iff.mp h
        exact ⟨hreads, reader, _, hreader, rfl⟩
      · cases h

/-- When a message is written, the batch of the write before it has completed. -/
theorem writes_idle {s s' : ServerWriteStream.State core} {a : ServerWriteStream.Act core γ}
    (h : ServerWriteStream.Inv s) (hstep : ServerWriteStream.step serialize s a = some s')
    {metadataSent : Bool} (hmem : .sendMessage ∈ batchTypes metadataSent a) :
    s.writeOutstanding = false := by
  cases a with
  | write chunk encoding =>
      obtain ⟨⟨hwriting, -⟩, -⟩ := Runs.when_eq_some.mp hstep
      exact eq_false_of_ne_true fun houtstanding =>
        absurd (hwriting.symm.trans (h.writing houtstanding)) Bool.false_ne_true
  | _ => cases metadataSent <;> simp [batchTypes, initialTypes] at hmem

/-- One step preserves the invariant. By cases on the action: those of the streams are `Inv.started`
and `Inv.readerGoesOn`. -/
theorem inv_step {s s' : State core β} {a : Act core γ} (h : Inv deserialize s)
    (hstep : step serialize deserialize s a = some s') : Inv deserialize s' := by
  cases a with
  | writer a =>
      obtain ⟨writer, hwriter, rfl⟩ := step_writer hstep
      obtain ⟨batches, hbatches⟩ := writerStep hwriter
      exact h.writerGoesOn (ServerWriteStream.inv_step h.writer hwriter) hbatches
        fun hmem => writes_idle h.writer hwriter hmem
  | reader a =>
      obtain ⟨hreads, reader, error, hreader, rfl⟩ := step_reader hstep
      exact h.readerGoesOn hreads (ServerReadStream.inv_step h.loop hreader) error
  | requestCompletes completion =>
      obtain ⟨hrequest, rfl⟩ := Runs.when_eq_some.mp hstep
      refine Inv.onRequest ?_ completion
      obtain ⟨hobeys, hout, hsends⟩ := h.complete
        ({ s with requestOutstanding := false }.complete [.recvMessage]) rfl (by
          rw [State.outstanding_complete, State.outstanding, State.outstanding, hrequest,
            List.perm_iff_count]
          intro type
          simp only [List.count_append, if_true, Bool.false_eq_true, if_false, List.count_nil]
          omega)
      exact { h with
        obeys := hobeys
        outstanding := hout
        sends := hsends
        request := Bool.noConfusion }
  | cancelCompletes completion =>
      obtain ⟨hcancel, rfl⟩ := Runs.when_eq_some.mp hstep
      refine Inv.cancelCompletes ?_ completion
      obtain ⟨hobeys, hout, hsends⟩ := h.complete
        ({ s with cancelOutstanding := false }.complete [.recvCloseOnServer]) rfl (by
          rw [State.outstanding_complete, State.outstanding, State.outstanding, hcancel,
            List.perm_iff_count]
          intro type
          simp only [List.count_append, if_true, Bool.false_eq_true, if_false, List.count_nil]
          omega)
      exact { h with obeys := hobeys, outstanding := hout, sends := hsends }
  | statusCompletes =>
      obtain ⟨-, rfl⟩ := Runs.when_eq_some.mp hstep
      obtain ⟨hobeys, hout, hsends⟩ := h.complete
        ({ s with statusTypes := [] }.complete s.statusTypes) rfl (by
          rw [State.outstanding_complete, State.outstanding, State.outstanding, List.perm_iff_count]
          intro type
          simp only [List.count_append, List.count_nil]
          omega)
      exact { h with
        obeys := hobeys
        outstanding := hout
        sends := hsends
        sendTypes := fun type hmem => h.sendTypes type (by
          rw [State.complete, List.append_nil] at hmem
          exact List.mem_append_left _ hmem)
        messages := fun hmem => h.messages (by
          rw [State.complete, List.append_nil] at hmem
          exact List.mem_append_left _ hmem) }
  | releaseCall =>
      obtain ⟨-, rfl⟩ := Runs.when_eq_some.mp hstep
      have hrelease : ServerWriteStream.step serialize s.writer .releaseCall =
        some { s.writer with call := { s.writer.call with released := true } } := rfl
      exact { h with writer := ServerWriteStream.inv_step h.writer hrelease }

/-- The core could take every batch, and what has been sent is in order. -/
def Disciplined (s : State core β) : Prop :=
  Discipline.Obeys CoreOp.type serverRules s.history ∧
    SendOrder s.writer.call.started s.writer.written

/-- A call starts with the batch of `waitForCancel`. -/
theorem obeys_waitForCancel :
    Discipline.Obeys CoreOp.type serverRules [.start [.recvCloseOnServer]] ∧
      Discipline.Outstanding CoreOp.type [.start [.recvCloseOnServer]] [.recvCloseOnServer] :=
  ⟨Discipline.obeys_nil.start (Discipline.outstanding_nil.allowed List.not_mem_nil
    (fun _ => List.not_mem_nil) (List.forall_mem_nil _)),
    Discipline.outstanding_nil.start [CoreOp.recvCloseOnServer]⟩

/-- Types none of which sends start no operation that sends. -/
theorem sends_none (types : List OpType) (h : ∀ type ∈ types, ¬ isSend type) {ops : List OpType} :
    ∀ type ∈ types, isSend type → type ∈ ops :=
  fun type hmem hsend => absurd hsend (h type hmem)

/-- A server streaming call starts in the invariant, with the read of its request outstanding. -/
theorem inv_handleServerStreaming :
    Inv deserialize (handleServerStreaming : State core β) := by
  obtain ⟨hobeys, hout⟩ := obeys_waitForCancel
  have hallowed : Discipline.Allowed CoreOp.type serverRules [.start [.recvCloseOnServer]]
      [.recvMessage] := by
    refine hout.allowed (by decide) (fun honce => absurd rfl honce.2) fun type htype => ?_
    rintro ⟨-, hends | hends⟩ <;> cases hends
  exact {
    obeys := hobeys.start hallowed
    outstanding := (hout.start [CoreOp.recvMessage]).perm (.swap ..)
    writer := .initial
    loop := ReadLoop.inv_initial
    sends := sends_none [.recvCloseOnServer, .recvMessage] (by decide)
    sendTypes := List.forall_mem_nil _
    messages := List.not_mem_nil
    writeTypes := fun _ => rfl
    request := fun _ => rfl
    reads := fun _ => rfl }

/-- A bidi streaming call starts in the invariant, with its handler called. -/
theorem inv_handleBidiStreaming : Inv deserialize (handleBidiStreaming : State core β) where
  obeys := obeys_waitForCancel.1
  outstanding := obeys_waitForCancel.2
  writer := .initial
  loop := ReadLoop.inv_initial
  sends := sends_none [.recvCloseOnServer] (by decide)
  sendTypes := List.forall_mem_nil _
  messages := List.not_mem_nil
  writeTypes _ := rfl
  request := Bool.noConfusion
  reads _ := rfl

/-- **A stream of the handler obeys the core.** Whatever the handler does with its stream, the
client sends, and whoever cancels, in whatever order: no batch is started with an operation that is
in progress or has been used before and may be used only once, or with a message or metadata after
the status; and what is sent is in order. -/
theorem always_disciplined (serialize : γ → Except (ErrorObject core) BufferObject)
    (deserialize : Option Buffer → Except (ErrorObject core) β) (acts : List (Act core γ)) :
    Runs.Always (step serialize deserialize) Disciplined handleServerStreaming acts ∧
      Runs.Always (step serialize deserialize) Disciplined handleBidiStreaming acts := by
  have hrun : ∀ s : State core β, Inv deserialize s →
      Runs.Always (step serialize deserialize) Disciplined s acts := fun s h =>
    (Runs.always_of_invariant (fun _ _ _ h hstep => inv_step h hstep) h acts).mono
      fun _ h => ⟨h.obeys, h.writer.order⟩
  exact ⟨hrun _ inv_handleServerStreaming, hrun _ inv_handleBidiStreaming⟩

end StreamHandler

end GrpcNode.NativeCore
