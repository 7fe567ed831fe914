import GrpcNode.NativeCore.ClientCompletion
import GrpcNode.NativeCore.ServerCall
import GrpcNode.NativeCore.ServerReadStream

/-!
# GrpcNode.NativeCore.ServerWriteStream

What `setUpWritable` makes of a stream in `server.js`, its `_write` and its `sendMetadata`.

Node calls `_write` when the callback of the write before it has been called, and emits
`'finish'` once, after `end()` and when no write is going on. A write whose batch fails never
calls back, so nothing is written after it and the stream never finishes. The errors of the
request, of reads, of the cancel batch and of the handler are all an event `'error'`, whenever it
comes.
-/

namespace GrpcNode.NativeCore

open GrpcNode.Js

/-- What `startBatch` does with the callback that it is given. -/
inductive CallbackFate
  /-- The callback is called with an error, at once. -/
  | failed
  /-- An exception is thrown, and the callback is never called. -/
  | dropped
  /-- The callback is called when the batch completes. -/
  | kept
  deriving DecidableEq

/-- What `call.startBatch(batch, callback)` does with the callback. -/
def ServerCall.callback {core : Core} (call : ServerCall core) (batch : Batch) : CallbackFate :=
  if call.released then .failed
  else match NativeCore.startBatch core batch with
    | .ok _ => .kept
    | .error _ => .dropped

/-- A `Buffer`, with the properties that it has been given. -/
structure BufferObject where
  bytes : Buffer
  own : List (String × JsValue) := []

namespace ServerWriteStream

/-- A server write stream, over the call it writes to. -/
structure State (core : Core) where
  call : ServerCall core := {}
  /-- `stream.status` -/
  status : StatusObject core :=
    { code := statusCode .ok, details := .string "OK", metadata := .new }
  /-- `_write` has been called, and its callback has not. -/
  writing : Bool := false
  /-- The batch of `_write` has not completed. -/
  writeOutstanding : Bool := false
  /-- The batch of `sendMetadata` has not completed. -/
  metadataOutstanding : Bool := false
  /-- `end()` has been called. -/
  ended : Bool := false
  /-- `'finish'` has been emitted. -/
  finished : Bool := false
  /-- What has been serialized. -/
  written : List Buffer := []

/-- What can happen to a server write stream. The guards of `step` are the contract of
`Writable`. -/
inductive Act (core : Core) (γ : Type*)
  | sendMetadata (responseMetadata : Metadata core)
  /-- There is no chunk if it is `undefined`. -/
  | write (chunk : Option γ) (encoding : JsValue)
  | writeCompletes (completion : Completion Unit)
  | metadataCompletes (completion : Completion Unit)
  /-- `stream.end(metadata)` -/
  | streamEnd (metadata : Option (Metadata core))
  | emitError (error : ErrorObject core)
  | finish
  | releaseCall

variable {core : Core} {γ : Type*} (serialize : γ → Except (ErrorObject core) BufferObject)

namespace State

variable (s : State core)

/-- What `setUpWritable` has added -/
def writable : WritableStream core where
  metadataSent := s.call.metadataSent
  status := s.status

/-- `stream.end(metadata)` -/
def streamEnd (metadata : Option (Metadata core)) : State core :=
  match metadata with
  | some metadata => { s with status := { s.status with metadata }, ended := true }
  | none => { s with ended := true }

/-- `terminateCall(err)`, the listener of `'error'` -/
def terminateCall (err : ErrorObject core) : State core :=
  { s with status := (s.writable.setStatus err).status }.streamEnd none

/-- `sendStatus()`, the listener of `'finish'` -/
def sendStatus : State core :=
  { s with
    call := { s.call with metadataSent := true }.startBatch
      (statusBatch s.call.metadataSent s.status) }

/-- `stream.call.startBatch(batch, callback)`, where the callback emits the error that it gets. -/
def startBatch (batch : Batch) (kept : State core → State core) : State core :=
  match s.call.callback batch with
  | .failed => s.terminateCall (.ofAddon callCompletedError)
  | .dropped => s
  | .kept => kept { s with call := s.call.startBatch batch }

/-- The argument of the batch: `null`, if there was no chunk. -/
def messageValue : Option BufferObject → JsValue
  | some message => .buffer message.bytes message.own
  | none => .null

/-- The message, with the encoding for its flags if it is a finite number. A `TypeError` is
thrown if there is no message. -/
def flagged (message : Option BufferObject) (encoding : JsValue) : Option JsValue :=
  if encoding.isFinite then (messageValue message).put "grpcWriteFlags" encoding
  else some (messageValue message)

/-- `_write`, when the message has been serialized -/
def writeMessage (message : Option BufferObject) (encoding : JsValue) : State core :=
  let sent := { s with
    call := { s.call with metadataSent := true }
    writing := true
    written := s.written ++ message.toList.map BufferObject.bytes }
  match flagged message encoding with
  | none => sent
  | some value =>
      sent.startBatch (s.call.initialMetadata ++ [(.sendMessage, value)])
        fun s => { s with writeOutstanding := true }

/-- `_write(chunk, encoding, callback)` -/
def write (chunk : Option γ) (encoding : JsValue) : State core :=
  match wrapIgnoreNull serialize chunk with
  | .error e => s.terminateCall e.internal
  | .ok message => s.writeMessage message encoding

/-- The callback of the batch in `_write` -/
def writeCompletes : Completion Unit → State core
  | .error err => s.terminateCall (.ofAddon err)
  | .result _ => { s with writing := false }

/-- The callback of the batch in `sendMetadata` -/
def metadataCompletes : Completion Unit → State core
  | .error err => s.terminateCall (.ofAddon err)
  | .result _ => s

/-- `sendMetadata(responseMetadata)` -/
def sendMetadata (responseMetadata : Metadata core) : State core :=
  if !s.call.metadataSent then
    { s with call := { s.call with metadataSent := true } }.startBatch
      [(.sendInitialMetadata, responseMetadata.getCoreRepresentation)]
      fun s => { s with metadataOutstanding := true }
  else s

end State

/-- One step. A chunk is written only after the callback of the one before it. -/
def step (s : State core) : Act core γ → Option (State core)
  | .sendMetadata responseMetadata => some (s.sendMetadata responseMetadata)
  | .write chunk encoding =>
      Runs.when (s.writing = false ∧ s.finished = false) (s.write serialize chunk encoding)
  | .writeCompletes completion =>
      Runs.when (s.writeOutstanding = true)
        ({ s with writeOutstanding := false }.writeCompletes completion)
  | .metadataCompletes completion =>
      Runs.when (s.metadataOutstanding = true)
        ({ s with metadataOutstanding := false }.metadataCompletes completion)
  | .streamEnd metadata => some (s.streamEnd metadata)
  | .emitError error => some (s.terminateCall error)
  | .finish =>
      Runs.when (s.ended = true ∧ s.writing = false ∧ s.finished = false)
        { s with finished := true }.sendStatus
  | .releaseCall => some { s with call := { s.call with released := true } }

end ServerWriteStream

/-! ### The order of what is sent -/

/-- The operations that come after initial metadata. -/
def CoreOp.needsMetadata : CoreOp → Bool
  | sendMessage _ _ | sendStatusFromServer _ => true
  | _ => false

/-- Initial metadata are among the operations. -/
def HasMetadata (ops : List CoreOp) : Prop := ∃ op ∈ ops, op.isInitialMetadata = true

/-- The batches that have been started on a call: one status at most, after everything else,
initial metadata once at most, and in or before the first batch with a message or a status, and
messages in the order in which they have been written. -/
structure SendOrder (started : List (List CoreOp)) (written : List Buffer) : Prop
    extends OneStatus started.flatten where
  metadataFirst : ∀ batches, batches <+: started →
    (∃ op ∈ batches.flatten, op.needsMetadata = true) → HasMetadata batches.flatten
  messages : started.flatten.filterMap CoreOp.message? <+: written

/-- Metadata is in one part of the operations or in the other. -/
theorem hasMetadata_append {ops more : List CoreOp} :
    HasMetadata (ops ++ more) ↔ HasMetadata ops ∨ HasMetadata more := by
  unfold HasMetadata
  simp only [List.mem_append, or_and_right, exists_or]

/-- A stream that has sent nothing has sent it in order. -/
theorem SendOrder.nil : SendOrder [] [] where
  toOneStatus := show OneStatus ({} : ServerCall Core.ascii).ops from oneStatus_new
  metadataFirst batches h := by
    obtain rfl := List.prefix_nil.mp h
    rintro ⟨op, hmem, -⟩
    exact absurd hmem List.not_mem_nil
  messages := List.prefix_refl _

/-- One more batch keeps the order. -/
theorem SendOrder.append {started : List (List CoreOp)} {batch : List CoreOp}
    {written more : List Buffer} (h : SendOrder started written)
    (hone : OneStatus (started.flatten ++ batch))
    (hmetadata : HasMetadata (started.flatten ++ batch))
    (hmessages : started.flatten.filterMap CoreOp.message? = written)
    (hmore : batch.filterMap CoreOp.message? = more) :
    SendOrder (started ++ [batch]) (written ++ more) := by
  have hflatten : (started ++ [batch]).flatten = started.flatten ++ batch := by
    rw [List.flatten_append, List.flatten_singleton]
  have hall : (started ++ [batch]).flatten.filterMap CoreOp.message? = written ++ more := by
    rw [hflatten, List.filterMap_append, hmessages, hmore]
  refine ⟨?_, ?_, hall ▸ List.prefix_refl _⟩
  · rw [hflatten]
    exact hone
  · intro batches hprefix hneeds
    rcases List.prefix_concat_iff.mp hprefix with rfl | hprefix
    · rw [hflatten]
      exact hmetadata
    · exact h.metadataFirst batches hprefix hneeds

namespace ServerWriteStream

variable {core : Core} {γ : Type*} {serialize : γ → Except (ErrorObject core) BufferObject}

/-- Nothing will be sent anymore: the call has been released, the stream has finished or is
waiting for a callback that will not come. -/
def State.Dead (s : State core) : Prop :=
  s.call.released = true ∨ s.finished = true ∨ s.writing = true ∧ s.writeOutstanding = false

/-- The order of what has been sent, and what the flags of the call say about it. -/
structure Inv (s : State core) : Prop where
  order : SendOrder s.call.started s.written
  marked : s.call.Marked
  metadata : s.call.metadataSent = true → HasMetadata s.call.ops ∨ s.Dead
  finishes : HasStatus s.call.ops → s.finished = true
  finished : s.finished = true → s.call.metadataSent = true
  writing : s.writeOutstanding = true → s.writing = true
  complete : s.call.released = false → s.call.ops.filterMap CoreOp.message? = s.written

/-- A batch is started on a call that has not been released. -/
theorem Inv.sends {s s' : State core} {batch : List CoreOp} (h : Inv s)
    (hstarted : s'.call.started = s.call.started ++ [batch])
    (hwritten : s'.written = s.written ++ batch.filterMap CoreOp.message?)
    (hreleased : s.call.released = false) (hfinished : s.finished = false)
    (hsent : s'.call.metadataSent = true) (hlast : StatusLast batch)
    (honce : batch.countP CoreOp.isInitialMetadata ≤ if s.call.metadataSent then 0 else 1)
    (hmetadata : HasMetadata s.call.ops ∨ HasMetadata batch)
    (hfinishes : HasStatus batch → s'.finished = true)
    (hwriting : s'.writeOutstanding = true → s'.writing = true) : Inv s' := by
  have hsends : Sends s.call s'.call batch := sends_started hstarted hsent hlast honce
  have hnone : ¬ HasStatus s.call.ops := fun hstatus =>
    absurd (h.finishes hstatus) (by rw [hfinished]; exact nofun)
  have hone : OneStatus s'.call.ops :=
    (hsends.keepsOneStatus_iff h.marked h.order.toOneStatus).mpr fun hstatus => absurd hstatus hnone
  have hmessages := h.complete hreleased
  rw [hsends.ops] at hone
  refine ⟨?_, hsends.marked h.marked, fun _ => .inl ?_, fun hstatus => ?_, fun _ => hsent, hwriting,
    fun _ => ?_⟩
  · rw [hstarted, hwritten]
    exact h.order.append hone (hasMetadata_append.mpr hmetadata) hmessages rfl
  · rw [hsends.ops]
    exact hasMetadata_append.mpr hmetadata
  · rw [hsends.ops] at hstatus
    exact hfinishes ((hasStatus_append.mp hstatus).resolve_left hnone)
  · rw [hsends.ops, List.filterMap_append, hmessages, hwritten]

/-- Nothing is started, now or later. -/
theorem Inv.dies {s s' : State core} {more : List Buffer} (h : Inv s)
    (hstarted : s'.call.started = s.call.started) (hwritten : s'.written = s.written ++ more)
    (hcomplete : s'.call.released = false → s.call.released = false ∧ more = [])
    (hsent : s'.call.metadataSent = true) (hfinished : s.finished = true → s'.finished = true)
    (hdead : s'.Dead) (hwriting : s'.writeOutstanding = true → s'.writing = true) : Inv s' := by
  have hops : s'.call.ops = s.call.ops := congrArg List.flatten hstarted
  refine ⟨?_, fun _ => .inr hsent, fun _ => .inr hdead, fun hstatus => ?_, fun _ => hsent, hwriting,
    fun hreleased => ?_⟩
  · rw [hstarted, hwritten]
    exact ⟨h.order.toOneStatus, h.order.metadataFirst,
      h.order.messages.trans (List.prefix_append _ _)⟩
  · rw [hops] at hstatus
    exact hfinished (h.finishes hstatus)
  · obtain ⟨hunreleased, hmore⟩ := hcomplete hreleased
    rw [hops, hwritten, hmore, List.append_nil]
    exact h.complete hunreleased

/-- Only the status and `end()` are concerned. -/
theorem Inv.streamEnd {s : State core} (h : Inv s) (metadata : Option (Metadata core)) :
    Inv (s.streamEnd metadata) := by
  cases metadata with
  | none =>
      exact ⟨h.order, h.marked, h.metadata, h.finishes, h.finished, h.writing, h.complete⟩
  | some metadata =>
      exact ⟨h.order, h.marked, h.metadata, h.finishes, h.finished, h.writing, h.complete⟩

/-- An error changes only the status that is sent later. -/
theorem Inv.terminateCall {s : State core} (h : Inv s) (err : ErrorObject core) :
    Inv (s.terminateCall err) := by
  have hstatus : Inv { s with status := (s.writable.setStatus err).status } :=
    ⟨h.order, h.marked, h.metadata, h.finishes, h.finished, h.writing, h.complete⟩
  exact hstatus.streamEnd none

/-- A batch is started, or nothing is. -/
theorem Inv.startBatch {s : State core} {batch : Batch} {kept : State core → State core}
    (hfails : (s.call.released = true ∨ ∃ e, NativeCore.startBatch core batch = .error e) → Inv s)
    (hkept : ∀ ops, s.call.released = false → NativeCore.startBatch core batch = .ok ops →
      Inv (kept { s with call := { s.call with started := s.call.started ++ [ops] } })) :
    Inv (s.startBatch batch kept) := by
  unfold State.startBatch ServerCall.callback ServerCall.startBatch
  by_cases hreleased : s.call.released = true
  · rw [if_pos hreleased]
    exact (hfails (.inl hreleased)).terminateCall _
  · rw [if_neg hreleased, if_neg hreleased]
    cases hbatch : NativeCore.startBatch core batch with
    | error e => exact hfails (.inr ⟨e, hbatch⟩)
    | ok ops => exact hkept ops (eq_false_of_ne_true hreleased) hbatch

/-- Metadata is sent first, since it is sent once. -/
theorem Inv.sendMetadata {s : State core} (h : Inv s) (responseMetadata : Metadata core) :
    Inv (s.sendMetadata responseMetadata) := by
  unfold State.sendMetadata
  cases hsent : s.call.metadataSent with
  | true => exact h
  | false =>
      have hfinished : s.finished = false := eq_false_of_ne_true fun hfinished =>
        absurd (hsent.symm.trans (h.finished hfinished)) Bool.false_ne_true
      obtain ⟨array, hbatch⟩ := startBatch_sendInitialMetadata responseMetadata
      rw [Bool.not_false, if_pos rfl]
      refine Inv.startBatch ?_ ?_
      · rintro (hreleased | ⟨e, he⟩)
        · refine h.dies rfl (List.append_nil _).symm (fun hunreleased => ?_) rfl id
            (.inl hreleased) h.writing
          cases hreleased.symm.trans hunreleased
        · cases hbatch.symm.trans he
      · intro ops hreleased hops
        obtain rfl := Except.ok.inj (hbatch.symm.trans hops)
        have hnone := not_hasStatus_sendInitialMetadata array
        refine h.sends rfl (List.append_nil _).symm hreleased hfinished rfl
          (statusLast_of_not_hasStatus hnone) ?_ (.inr ⟨_, List.mem_singleton_self _, rfl⟩)
          (fun hstatus => absurd hstatus hnone) h.writing
        rw [hsent]
        exact Nat.le_refl 1

/-- With the first batch that needs them initial metadata have been sent. -/
theorem Inv.hasMetadata {s : State core} (h : Inv s) (hreleased : s.call.released = false)
    (hfinished : s.finished = false) (hwriting : s.writing = false) (ops : List CoreOp) :
    HasMetadata s.call.ops ∨
      HasMetadata ((if s.call.metadataSent then [] else [.sendInitialMetadata []]) ++ ops) := by
  cases hsent : s.call.metadataSent with
  | false => exact .inr ⟨_, List.mem_append_left ops (List.mem_singleton_self _), rfl⟩
  | true =>
      rcases h.metadata hsent with hmetadata | hreleased' | hfinished' | ⟨hwriting', -⟩
      · exact .inl hmetadata
      · exact absurd (hreleased.symm.trans hreleased') nofun
      · exact absurd (hfinished.symm.trans hfinished') nofun
      · exact absurd (hwriting.symm.trans hwriting') nofun

/-- Metadata that is put in front is no message. -/
theorem messages_initialMetadata (metadataSent : Bool) :
    (if metadataSent then [] else [CoreOp.sendInitialMetadata []]).filterMap CoreOp.message? =
      [] := by
  split <;> rfl

/-- Without a message there is nothing that a batch would take. -/
theorem flagged_none (encoding : JsValue) :
    State.flagged none encoding = none ∨ State.flagged none encoding = some .null := by
  unfold State.flagged
  split
  · exact .inl rfl
  · exact .inr rfl

/-- The encoding sets a flag of the message and leaves its bytes. -/
theorem flagged_some (message : BufferObject) (encoding : JsValue) :
    ∃ own, State.flagged (some message) encoding = some (.buffer message.bytes own) := by
  unfold State.flagged
  split
  · exact ⟨_, rfl⟩
  · exact ⟨_, rfl⟩

/-- A message is sent behind the metadata, and before the status, since the stream is not
finished. -/
theorem Inv.writeMessage {s : State core} (h : Inv s) (hwriting : s.writing = false)
    (hfinished : s.finished = false) (message : Option BufferObject) (encoding : JsValue) :
    Inv (s.writeMessage message encoding) := by
  have hidle : s.writeOutstanding = false := eq_false_of_ne_true fun houtstanding =>
    absurd (hwriting.symm.trans (h.writing houtstanding)) nofun
  have hloop := @startBatch_initialMetadata_append core s.call.metadataSent .sendMessage
  unfold State.writeMessage
  cases message with
  | none =>
      -- Nothing is started, and the callback of the write will not be called.
      have hstuck : Inv { s with
          call := { s.call with metadataSent := true }
          writing := true
          written := s.written ++ [] } :=
        h.dies rfl rfl (fun hreleased => ⟨hreleased, rfl⟩) rfl id (.inr (.inr ⟨rfl, hidle⟩))
          fun _ => rfl
      rcases flagged_none encoding with hflagged | hflagged
      · rw [hflagged]
        exact hstuck
      · rw [hflagged]
        refine Inv.startBatch (fun _ => hstuck) fun ops _ hops => ?_
        exact absurd ((hloop .null).symm.trans hops) nofun
  | some message =>
      obtain ⟨own, hflagged⟩ := flagged_some message encoding
      obtain ⟨flags, hop⟩ : ∃ flags, parseOp core .sendMessage (.buffer message.bytes own) =
        some (.sendMessage message.bytes flags) := ⟨_, rfl⟩
      have hstarts := hloop (.buffer message.bytes own)
      rw [hop] at hstarts
      rw [hflagged]
      refine Inv.startBatch ?_ ?_
      · rintro (hreleased | ⟨e, he⟩)
        · refine h.dies rfl rfl (fun hunreleased => ?_) rfl id (.inl hreleased) fun _ => rfl
          cases hreleased.symm.trans hunreleased
        · exact absurd (hstarts.symm.trans he) nofun
      · intro ops hreleased hops
        obtain rfl := Except.ok.inj (hstarts.symm.trans hops)
        have hnone : ¬ HasStatus ((if s.call.metadataSent then [] else [.sendInitialMetadata []]) ++
            [.sendMessage message.bytes flags]) := by
          rw [hasStatus_append]
          rintro (hstatus | ⟨status, hmem⟩)
          · exact not_hasStatus_initialMetadata _ hstatus
          · exact absurd (List.mem_singleton.mp hmem) nofun
        refine h.sends rfl ?_ hreleased hfinished rfl (statusLast_of_not_hasStatus hnone) ?_
          (h.hasMetadata hreleased hfinished hwriting _) (fun hstatus => absurd hstatus hnone)
          fun _ => rfl
        · rw [List.filterMap_append, messages_initialMetadata]
          rfl
        · rw [List.countP_append, countP_initialMetadata]
          exact Nat.le_refl _

/-- The status is sent when the stream is finished, behind everything else. -/
theorem Inv.sendStatus {s : State core} (h : Inv s) (hwriting : s.writing = false)
    (hfinished : s.finished = false) : Inv { s with finished := true }.sendStatus := by
  have hdies : Inv { s with call := { s.call with metadataSent := true }, finished := true } :=
    h.dies rfl (List.append_nil _).symm (fun hreleased => ⟨hreleased, rfl⟩) rfl (fun _ => rfl)
      (.inr (.inl rfl)) h.writing
  unfold State.sendStatus ServerCall.startBatch
  by_cases hreleased : s.call.released = true
  · rw [if_pos hreleased]
    exact hdies
  · rw [if_neg hreleased, startBatch_statusBatch_eq]
    rcases parseOp_status_cases s.status with ⟨sent, hop, -⟩ | ⟨hop, -⟩
    · rw [hop]
      have hnone := not_hasStatus_initialMetadata s.call.metadataSent
      refine h.sends rfl ?_ (eq_false_of_ne_true hreleased) hfinished rfl
        (.append hnone (statusLast_singleton sent)) ?_
        (h.hasMetadata (eq_false_of_ne_true hreleased) hfinished hwriting _) (fun _ => rfl) h.writing
      · rw [List.filterMap_append, messages_initialMetadata]
        exact (List.append_nil _).symm
      · rw [List.countP_append, countP_initialMetadata]
        exact Nat.le_refl _
    · rw [hop]
      exact hdies

/-- The completion of a write sends nothing. -/
theorem Inv.writeCompletes {s : State core} (h : Inv s) (houtstanding : s.writeOutstanding = true)
    (completion : Completion Unit) :
    Inv ({ s with writeOutstanding := false }.writeCompletes completion) := by
  have hmetadata : s.call.metadataSent = true →
      HasMetadata s.call.ops ∨ s.call.released = true ∨ s.finished = true := by
    intro hsent
    rcases h.metadata hsent with hmetadata | hreleased | hfinished | ⟨-, hidle⟩
    · exact .inl hmetadata
    · exact .inr (.inl hreleased)
    · exact .inr (.inr hfinished)
    · exact absurd (houtstanding.symm.trans hidle) nofun
  have hdead : ∀ {s' : State core}, s'.call = s.call → s'.finished = s.finished →
      s'.call.metadataSent = true → HasMetadata s'.call.ops ∨ s'.Dead := by
    intro s' hcall hfinished hsent
    rw [hcall] at hsent ⊢
    exact (hmetadata hsent).imp_right fun hdead => hdead.imp (fun hr => hcall ▸ hr)
      fun hf => .inl (hfinished.trans hf)
  cases completion with
  | error err =>
      refine Inv.terminateCall ?_ _
      exact ⟨h.order, h.marked, hdead rfl rfl, h.finishes, h.finished, nofun, h.complete⟩
  | result _ =>
      exact ⟨h.order, h.marked, hdead rfl rfl, h.finishes, h.finished, nofun, h.complete⟩

/-- Nothing has been sent. -/
theorem Inv.initial : Inv ({} : State core) where
  order := .nil
  marked := marked_new
  metadata := nofun
  finishes := fun ⟨_, h⟩ => absurd h List.not_mem_nil
  finished := nofun
  writing := nofun
  complete _ := rfl

/-- One step preserves the invariant. By cases on the action, with a lemma above for each. -/
theorem inv_step {s s' : State core} {a : Act core γ} (h : Inv s)
    (hs : step serialize s a = some s') : Inv s' := by
  cases a with
  | sendMetadata responseMetadata =>
      obtain rfl := Option.some.inj hs
      exact h.sendMetadata responseMetadata
  | write chunk encoding =>
      obtain ⟨⟨hwriting, hfinished⟩, rfl⟩ := Runs.when_eq_some.mp hs
      unfold State.write
      split
      · exact h.terminateCall _
      · exact h.writeMessage hwriting hfinished _ encoding
  | writeCompletes completion =>
      obtain ⟨houtstanding, rfl⟩ := Runs.when_eq_some.mp hs
      exact h.writeCompletes houtstanding completion
  | metadataCompletes completion =>
      obtain ⟨-, rfl⟩ := Runs.when_eq_some.mp hs
      have hcompleted : Inv { s with metadataOutstanding := false } :=
        ⟨h.order, h.marked, h.metadata, h.finishes, h.finished, h.writing, h.complete⟩
      cases completion with
      | error err => exact hcompleted.terminateCall _
      | result _ => exact hcompleted
  | streamEnd metadata =>
      obtain rfl := Option.some.inj hs
      exact h.streamEnd metadata
  | emitError error =>
      obtain rfl := Option.some.inj hs
      exact h.terminateCall error
  | finish =>
      obtain ⟨⟨-, hwriting, hfinished⟩, rfl⟩ := Runs.when_eq_some.mp hs
      exact h.sendStatus hwriting hfinished
  | releaseCall =>
      obtain rfl := Option.some.inj hs
      exact ⟨h.order, h.marked, fun _ => .inr (.inl rfl), h.finishes, h.finished, h.writing, nofun⟩

/-- **The order of the batches of a stream.** In every run of a stream the send operations on its
call are in order: initial metadata at most once, in or before the first batch with a message or a
status, the serialized messages as they were written, and one status at most, after which there is
nothing. -/
theorem always_sendOrder (serialize : γ → Except (ErrorObject core) BufferObject)
    (acts : List (Act core γ)) :
    Runs.Always (step serialize) (fun s => SendOrder s.call.started s.written) {} acts := by
  have hinv : Runs.Always (step serialize) Inv {} acts :=
    Runs.always_of_invariant (fun _ _ _ => inv_step) Inv.initial acts
  exact hinv.mono fun _ h => h.order

example : (Runs.exec
      (step (fun bytes => .ok { bytes } : Buffer → Except (ErrorObject Core.ascii) BufferObject)) {}
      [.write (some [7]) .undefined, .writeCompletes (.result ()), .streamEnd none, .finish]).map
      (fun s => s.call.started) =
    some [[.sendInitialMetadata [], .sendMessage [7] 0],
      [.sendStatusFromServer ⟨[], 0, toUtf8 "OK"⟩]] := by decide

end ServerWriteStream

end GrpcNode.NativeCore
