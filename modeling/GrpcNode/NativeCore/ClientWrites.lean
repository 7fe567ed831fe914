import GrpcNode.NativeCore.ClientDiscipline

/-!
# GrpcNode.NativeCore.ClientWrites

What becomes of the messages that are written on a call of `client.js`, and of the callbacks of the
writes: `always_writes`.
-/

namespace GrpcNode.NativeCore.ClientCall

open GrpcNode.Js

variable {core : Core} {ε α β γ : Type*} {s : State β}

/-- The messages that have been handed to the core. -/
def sent (history : History) : List Buffer :=
  (Discipline.operations history).filterMap CoreOp.message?

/-- What has been sent in two parts of a history -/
theorem sent_append (h k : History) : sent (h ++ k) = sent h ++ sent k := by
  rw [sent, Discipline.operations_append, List.filterMap_append, sent, sent]

/-- The messages of a batch -/
def messages (batch : Batch) : List Buffer :=
  batch.flatMap fun e => if e.1 = .sendMessage then (message? e.2).toList else []

/-- A batch has the message that it is started with, if it is one that sends a message. -/
theorem parseOp_message {type : OpType} {value : JsValue} {op : CoreOp}
    (h : parseOp core type value = some op) :
    op.message?.toList = if type = .sendMessage then (message? value).toList else [] := by
  have htype := parseOp_type h
  split
  · rename_i hmessage
    subst hmessage
    cases value with
    | buffer bytes own =>
        obtain rfl := Option.some.inj h
        rfl
    | _ => cases h
  · rename_i hother
    cases op with
    | sendMessage message flags => exact absurd htype.symm hother
    | _ => rfl

/-- What is handed to the core are the messages of the batch. -/
theorem startBatch_messages {batch : Batch} {ops : List CoreOp}
    (h : NativeCore.startBatch core batch = .ok ops) :
    ops.filterMap CoreOp.message? = messages batch := by
  induction batch generalizing ops with
  | nil =>
      obtain rfl := Except.ok.inj h
      rfl
  | cons e batch ih =>
      obtain ⟨type, value⟩ := e
      simp only [NativeCore.startBatch] at h
      cases hop : parseOp core type value with
      | none => simp [hop] at h
      | some op =>
          rw [hop] at h
          cases hops : NativeCore.startBatch core batch with
          | error e => simp [hops, Except.map] at h
          | ok ops' =>
              rw [hops] at h
              obtain rfl := Except.ok.inj h
              rw [messages, List.flatMap_cons, ← parseOp_message hop, List.filterMap_cons, ih hops]
              cases op.message? <;> rfl

/-- The streams are new, and the messages of the batches are handed to the core. -/
theorem startBatches_sent {s s' : State β} {batches : List Batch}
    (h : s.startBatches core batches = some s') :
    sent s'.history = sent s.history ++ batches.flatMap messages ∧
      ∃ history, s' = { s with history } := by
  induction batches generalizing s with
  | nil =>
      obtain rfl := Option.some.inj h
      exact ⟨(List.append_nil _).symm, s.history, rfl⟩
  | cons batch batches ih =>
      simp only [State.startBatches] at h
      cases hops : NativeCore.startBatch core batch with
      | error e => simp [hops] at h
      | ok ops =>
          rw [hops] at h
          obtain ⟨hsent, history, rfl⟩ := ih h
          refine ⟨?_, history, rfl⟩
          have hnew : sent [.start ops] = messages batch := by
            rw [sent, Discipline.operations_start, startBatch_messages hops]
          rw [hsent, State.start, sent_append, hnew, List.append_assoc, List.flatMap_cons]

/-! ### What is written -/

/-- What becomes of the messages and of the writes. -/
structure Writes (s : State β) : Prop where
  /-- What is handed to the core is what has been serialized, in this order. -/
  inOrder : sent s.history <+: s.serialized
  /-- All of it, if no write has failed, -/
  all : s.writeFailed = false → sent s.history = s.serialized
  /-- and all but the last one, if one has. -/
  lost : s.serialized.length ≤ (sent s.history).length + 1
  /-- The callback of a write will be called, unless an exception has come out of it. -/
  waits : s.writing = true → s.writeOutstanding = true ∨ s.immediate = true ∨ s.threw = true
  /-- The stream finishes when it has been ended and all writes have been called back. -/
  finished : s.finished = true → s.ended = true ∧ s.writing = false

/-- Write flags are set on a message, and its bytes are as they were. -/
theorem flagged_message {message encoding value : JsValue}
    (h : State.flagged message encoding = some value) : message? value = message? message := by
  unfold State.flagged at h
  split at h
  · cases message with
    | buffer bytes own | object own | array elements | function =>
        obtain rfl := Option.some.inj h
        rfl
    | _ => cases h
  · exact congrArg message? (Option.some.inj h).symm

/-- The message of a write is handed to the core, or the write has failed. -/
theorem Writes.startWrite (h : Writes s) (hfailed : s.writeFailed = false)
    (hfinished : s.finished = false) (value : JsValue) :
    Writes (State.startWrite { s with
      writing := true
      serialized := s.serialized ++ (message? value).toList } core [(.sendMessage, value)]) := by
  have hlength : (s.serialized ++ (message? value).toList).length ≤ s.serialized.length + 1 := by
    cases message? value <;> simp
  have hall := h.all hfailed
  unfold State.startWrite
  split
  · exact ⟨hall ▸ List.prefix_append _ _, nofun, hall ▸ hlength, nofun,
      fun hf => absurd (hfinished.symm.trans hf) nofun⟩
  · split
    · rename_i ops hops
      have hsent : sent (s.history ++ [.start ops]) = s.serialized ++ (message? value).toList := by
        rw [sent_append, hall, sent, Discipline.operations_start, startBatch_messages hops]
        exact congrArg (s.serialized ++ ·) (List.append_nil _)
      exact ⟨hsent ▸ List.prefix_refl _, fun _ => hsent, hsent ▸ Nat.le_succ _, fun _ => .inl rfl,
        fun hf => absurd (hfinished.symm.trans hf) nofun⟩
    · rename_i e hops
      -- Only what is no message is refused.
      have hnone : message? value = none := by
        cases value with
        | buffer bytes own => cases hops
        | _ => rfl
      rw [hnone]
      exact ⟨(List.append_nil s.serialized).symm ▸ h.inOrder,
        fun _ => (List.append_nil s.serialized).symm ▸ hall,
        (List.append_nil s.serialized).symm ▸ h.lost, fun _ => .inr (.inr rfl),
        fun hf => absurd (hfinished.symm.trans hf) nofun⟩

/-- `_write` keeps the account. -/
theorem Writes.write (h : Writes s) (hfinished : s.finished = false)
    (serialize : γ → Except ε JsValue) (chunk : Option γ) (encoding : JsValue) :
    Writes (s.write core serialize chunk encoding) := by
  unfold State.write
  split
  · exact { h with
      waits := fun _ => .inr (.inl rfl)
      finished := fun hf => absurd (hfinished.symm.trans hf) nofun }
  · rename_i hfailed
    split
    · exact { h with }
    · rename_i message _
      unfold State.writeMessage
      split
      · rename_i value hvalue
        rw [← flagged_message hvalue]
        exact h.startWrite (eq_false_of_ne_true hfailed) hfinished value
      · exact { h with
          waits := fun _ => .inr (.inr rfl)
          finished := fun hf => absurd (hfinished.symm.trans hf) nofun }

/-- Nothing that is not a message is handed to the core, and no write is concerned. -/
theorem Writes.history (h : Writes s) (more : History) (hmore : sent more = []) :
    Writes { s with history := s.history ++ more } := by
  have hsent : sent (s.history ++ more) = sent s.history := by
    rw [sent_append, hmore, List.append_nil]
  exact ⟨hsent ▸ h.inOrder, hsent ▸ h.all, hsent ▸ h.lost, h.waits, h.finished⟩

/-- The end of the writes keeps the account. -/
theorem Writes.finish (h : Writes s) (hended : s.ended = true) (hwriting : s.writing = false) :
    Writes (s.finish core) := by
  unfold State.finish
  split
  · exact { h with finished := fun _ => ⟨hended, hwriting⟩ }
  · exact { h.history [.start [.sendCloseFromClient]] rfl with
      finished := fun _ => ⟨hended, hwriting⟩ }

/-- The reading side is no part of the account. -/
theorem Writes.reader (h : Writes s) (reader : ClientReadStream.State β) :
    Writes (s.withReader reader) := by
  have hstatus : sent (s.statusEvents s.reader.statusOutstanding reader.statusOutstanding) = [] := by
    unfold State.statusEvents
    split <;> rfl
  have hread : sent (State.readEvents s.reader.reads reader.reads) = [] := by
    unfold State.readEvents
    split
    · rfl
    · split <;> rfl
  exact { (h.history _ hstatus).history _ hread with }

/-- Every step keeps the account. -/
theorem Writes.step {serialize : γ → Except ε JsValue} {deserialize : Buffer → Except ε β}
    {s' : State β} {a : Act γ} (h : Writes s)
    (hstep : step core serialize deserialize s a = some s') : Writes s' := by
  cases a with
  | write chunk encoding =>
      obtain ⟨⟨-, -, hfinished⟩, rfl⟩ := Runs.when_eq_some.mp hstep
      exact h.write hfinished serialize chunk encoding
  | writeCompletes completion =>
      obtain ⟨-, rfl⟩ := Runs.when_eq_some.mp hstep
      refine { h.history [.complete [.sendMessage]] rfl with
        all := fun hfailed => ?_
        waits := nofun
        finished := fun hf => ⟨(h.finished hf).1, rfl⟩ }
      have hbefore : s.writeFailed = false := (Bool.or_eq_false_iff.mp hfailed).1
      exact (h.history [.complete [.sendMessage]] rfl).all hbefore
  | immediate =>
      obtain ⟨-, rfl⟩ := Runs.when_eq_some.mp hstep
      exact { h with waits := nofun, finished := fun hf => ⟨(h.finished hf).1, rfl⟩ }
  | streamEnd =>
      obtain ⟨-, rfl⟩ := Runs.when_eq_some.mp hstep
      exact { h with finished := fun hf => ⟨rfl, (h.finished hf).2⟩ }
  | finish =>
      obtain ⟨⟨hended, hwriting, -⟩, rfl⟩ := Runs.when_eq_some.mp hstep
      exact h.finish hended hwriting
  | closeCompletes =>
      obtain ⟨-, rfl⟩ := Runs.when_eq_some.mp hstep
      exact { h.history [.complete [.sendCloseFromClient]] rfl with }
  | metadataCompletes =>
      obtain ⟨-, rfl⟩ := Runs.when_eq_some.mp hstep
      exact { h.history [.complete (metadataOps s.type)] rfl with }
  | responseCompletes =>
      obtain ⟨-, rfl⟩ := Runs.when_eq_some.mp hstep
      exact { h.history [.complete (statusOps s.type)] rfl with }
  | reader a =>
      obtain ⟨-, -, reader, -, rfl⟩ := step_reader hstep
      exact h.reader reader
  | releaseCall =>
      obtain ⟨-, rfl⟩ := Runs.when_eq_some.mp hstep
      exact { h with }

/-- The argument is the first message that is handed over. -/
theorem Writes.make {serialize : α → Except ε JsValue} {argument : α} {metadata : Metadata core}
    {flags : Option JsValue} {type : MethodType}
    (h : make core serialize argument metadata flags type = some s) : Writes s := by
  have hnew : ∀ {s' : State β} {batches : List Batch}, s'.startBatches core batches = some s →
      sent s'.history = [] → batches.flatMap messages = s'.serialized → s'.writing = false →
      s'.finished = false → Writes s := by
    intro s' batches hmake hempty hmessages hwriting hfinished
    obtain ⟨hsent, history, rfl⟩ := startBatches_sent hmake
    rw [hempty, hmessages, List.nil_append] at hsent
    exact ⟨hsent ▸ List.prefix_refl _, fun _ => hsent, hsent ▸ Nat.le_succ _,
      fun hw => absurd (hwriting.symm.trans hw) nofun,
      fun hf => absurd (hfinished.symm.trans hf) nofun⟩
  cases type with
  | unary =>
      obtain ⟨message, -, hmake⟩ := Option.bind_eq_some_iff.mp h
      exact hnew hmake rfl (by simp [messages, unaryBatch]) rfl rfl
  | serverStream =>
      obtain ⟨message, -, hmake⟩ := Option.bind_eq_some_iff.mp h
      exact hnew hmake rfl (by simp [messages, messageBatch, statusBatch]) rfl rfl
  | clientStream => exact hnew h rfl rfl rfl rfl
  | bidi => exact hnew h rfl rfl rfl rfl

example : (Runs.exec (step Core.ascii serializeBuffer deserializeBuffer) bidiCall
      [.write (some [7]) .undefined, .writeCompletes (.result ()), .write (some [8]) .undefined]).map
      (fun s => (sent s.history, s.serialized)) = some ([[7], [8]], [[7], [8]]) := by decide

end GrpcNode.NativeCore.ClientCall
