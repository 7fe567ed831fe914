import GrpcNode.NativeCore.ClientCall

/-!
# GrpcNode.NativeCore.ClientDiscipline

The calls of `client.js` keep to the rules of the core.

`Inv` keeps track of what is outstanding on a call, by what its streams remember. Each way to start
a batch is allowed because of it, and each way to complete one keeps it up: `always_obeys`.
-/

namespace GrpcNode.NativeCore

open GrpcNode.Js

namespace ClientReadStream.State

variable {ε β : Type*} (s : State β)

/-- Neither the batch with the status nor the call is concerned. -/
structure SameCall (s s' : State β) : Prop where
  callReleased : s'.callReleased = s.callReleased
  statusOutstanding : s'.statusOutstanding = s.statusOutstanding

/-- One thing after the other -/
theorem SameCall.after {s s' s'' : State β} (h' : SameCall s' s'') (h : SameCall s s') :
    SameCall s s'' :=
  ⟨h'.callReleased.trans h.callReleased, h'.statusOutstanding.trans h.statusOutstanding⟩

/-- `_emitStatusIfDone` starts nothing. -/
theorem sameCall_emitStatusIfDone : SameCall s s.emitStatusIfDone := by
  unfold emitStatusIfDone
  split <;> exact ⟨rfl, rfl⟩

/-- `_readsDone` starts nothing. -/
theorem sameCall_readsDone (status : Option CallStatus) : SameCall s (s.readsDone status) := by
  unfold readsDone
  refine (sameCall_emitStatusIfDone _).after ?_
  split <;> exact ⟨rfl, rfl⟩

/-- The batch of a read is started by the stream, and noted by `State.readerGoesOn`. -/
theorem sameCall_startBatch : SameCall s s.startBatch := by
  unfold startBatch
  split
  · exact (sameCall_readsDone { s.record (.readResult .error) with finished := true } none).after
      ⟨rfl, rfl⟩
  · exact ⟨rfl, rfl⟩

/-- `_read` does not release the call. -/
theorem sameCall_read : SameCall s s.read := by
  unfold read
  split
  · exact ⟨rfl, rfl⟩
  · split
    · exact (sameCall_startBatch { s with reading := true }).after ⟨rfl, rfl⟩
    · exact ⟨rfl, rfl⟩

/-- The callback of a read does not release the call. -/
theorem sameCall_readCallback (deserialize : Buffer → Except ε β) (result : ReadResult) :
    SameCall s (s.readCallback deserialize result) := by
  cases result with
  | error => exact (sameCall_readsDone { s with finished := true } none).after ⟨rfl, rfl⟩
  | message data =>
      simp only [readCallback]
      split
      · exact s.sameCall_readsDone _
      · split
        · exact s.sameCall_readsDone _
        · exact ⟨rfl, rfl⟩

/-- A read that follows a push does not release the call. -/
theorem sameCall_afterPush (more : Bool) : SameCall s (s.afterPush more) := by
  unfold afterPush
  split
  · exact s.sameCall_startBatch
  · exact ⟨rfl, rfl⟩

/-- The callback of the batch with the status does not release the call. -/
theorem callReleased_statusCompletes (completion : Completion ClientStatus) :
    (s.statusCompletes completion).callReleased = s.callReleased := by
  cases completion with
  | error err => rfl
  | result status => exact (sameCall_emitStatusIfDone (State.mk ..)).callReleased

end ClientReadStream.State

/-- The status is completed by its own action only, and the release is another one. -/
theorem ClientReadStream.step_frame {ε β : Type*} {deserialize : Buffer → Except ε β}
    {s s' : State β} {a : Act} (h : step deserialize s a = some s') (ha : a ≠ .releaseCall) :
    s'.callReleased = s.callReleased ∧
      (s'.statusOutstanding = true → s.statusOutstanding = true) := by
  have same : s.SameCall s' → s'.callReleased = s.callReleased ∧
      (s'.statusOutstanding = true → s.statusOutstanding = true) :=
    fun h => ⟨h.callReleased, fun hs => h.statusOutstanding ▸ hs⟩
  cases step_effect h with
  | read => exact same s.sameCall_read
  | readCompletes result _ _ =>
      exact same ((State.sameCall_readCallback _ deserialize result).after ⟨rfl, rfl⟩)
  | statusCompletes completion _ hstatus =>
      exact ⟨s.callReleased_statusCompletes completion, fun _ => hstatus⟩
  | @pushReturns frames more _ =>
      exact same ((State.sameCall_afterPush { s with frames } more).after ⟨rfl, rfl⟩)
  | emitReturns _ => exact same ⟨rfl, rfl⟩
  | throws _ => exact same ⟨rfl, rfl⟩
  | releaseCall _ => exact absurd rfl ha

namespace ClientCall

variable {core : Core} {ε α β γ : Type*}

/-- The types of the operations that have been started. -/
def started (history : History) : List OpType := Discipline.started CoreOp.type history

/-- Streams that write have not written with the request. -/
theorem writes_ops {type : MethodType} (h : type.writes = true) :
    .sendMessage ∉ metadataOps type ++ statusOps type ∧
      .sendCloseFromClient ∉ metadataOps type ++ statusOps type := by
  cases type with
  | clientStream | bidi => decide
  | unary | serverStream => cases h

/-- Streams that read have not read with the request. -/
theorem reads_ops {type : MethodType} (h : type.reads = true) :
    .recvMessage ∉ metadataOps type ++ statusOps type := by
  cases type with
  | serverStream | bidi => decide
  | unary | clientStream => cases h

/-- How often a type is in a list of one type -/
theorem count_singleton (type type' : OpType) :
    [type].count type' = if type' = type then 1 else 0 := by
  by_cases h : type' = type <;> simp [h, Ne.symm]

namespace State

variable (s : State β)

/-- An operation is outstanding as often as in the batches that have not completed. -/
theorem count_outstanding (type : OpType) :
    s.outstanding.count type =
      (if s.metadataOutstanding then (metadataOps s.type).count type else 0) +
      (if s.reader.statusOutstanding then (statusOps s.type).count type else 0) +
      (if s.writeOutstanding ∧ type = .sendMessage then 1 else 0) +
      (if s.closeOutstanding ∧ type = .sendCloseFromClient then 1 else 0) +
      (if type = .recvMessage then s.reader.reads else 0) := by
  have hsegment : ∀ (b : Bool) (types : List OpType),
      (if b then types else []).count type = if b then types.count type else 0 := by
    intro b types
    cases b <;> rfl
  have hone : ∀ (b : Bool) (type' : OpType),
      (if b then [type'] else []).count type = if b ∧ type = type' then 1 else 0 := by
    intro b type'
    rw [hsegment, count_singleton]
    cases b <;> simp
  rw [outstanding, List.count_append, List.count_append, List.count_append, List.count_append,
    hsegment, hsegment, hone, hone, List.count_replicate]
  by_cases h : type = .recvMessage <;> simp [h, Ne.symm]

/-- Nothing that comes with the request is an operation of the streams. -/
theorem not_mem_outstanding {type : OpType} (hops : type ∉ metadataOps s.type ++ statusOps s.type)
    (hwrite : s.writeOutstanding = true → type ≠ .sendMessage)
    (hclose : s.closeOutstanding = true → type ≠ .sendCloseFromClient)
    (hread : 0 < s.reader.reads → type ≠ .recvMessage) : type ∉ s.outstanding := by
  rw [List.mem_append, not_or] at hops
  rw [← List.count_eq_zero, count_outstanding, List.count_eq_zero_of_not_mem hops.1,
    List.count_eq_zero_of_not_mem hops.2]
  grind

/-- A write does not change the reading side. -/
theorem reader_startWrite (batch : Batch) : (s.startWrite core batch).reader = s.reader := by
  unfold startWrite
  split
  · rfl
  · split <;> rfl

/-- A write does not change the reading side, whatever the serializer does. -/
theorem reader_write (serialize : γ → Except ε JsValue) (chunk : Option γ) (encoding : JsValue) :
    (s.write core serialize chunk encoding).reader = s.reader := by
  unfold write
  split
  · rfl
  · split
    · rfl
    · unfold writeMessage
      split
      · exact reader_startWrite ..
      · rfl

/-- The end of the writes does not change the reading side. -/
theorem reader_finish : (s.finish core).reader = s.reader := by
  unfold finish
  split <;> rfl

end State

/-! ### The invariant -/

/-- The discipline of a call, as its streams keep it. -/
structure Inv (s : State β) : Prop where
  obeys : Discipline.Obeys CoreOp.type coreRules s.history
  outstanding : Discipline.Outstanding CoreOp.type s.history s.outstanding
  writing : s.writeOutstanding = true → s.writing = true
  immediate : s.immediate = true → s.writing = true ∧ s.writeOutstanding = false
  closing : s.closeOutstanding = true → s.finished = true
  writes : s.ended = true ∨ s.writing = true → s.type.writes = true
  reads : 0 < s.reader.reads → s.type.reads = true
  /-- Until `'finish'` nothing says that no message follows. -/
  unclosed : s.type.writes = true → s.finished = false → .sendCloseFromClient ∉ started s.history

variable {s : State β}

/-- An operation of the streams is started, which is not outstanding and may be used now. -/
theorem Inv.starts (h : Inv s) (s' : State β) {ops : List CoreOp} {type : OpType}
    (hops : ops.map CoreOp.type = [type]) (hidle : type ∉ s.outstanding)
    (honce : type = .sendMessage ∨ type = .recvMessage ∨ type ∉ started s.history)
    (hunclosed : type = .sendMessage → .sendCloseFromClient ∉ started s.history)
    (hcount : ∀ type', s'.outstanding.count type' =
      s.outstanding.count type' + if type' = type then 1 else 0) :
    Discipline.Obeys CoreOp.type coreRules (s.history ++ [.start ops]) ∧
      Discipline.Outstanding CoreOp.type (s.history ++ [.start ops]) s'.outstanding := by
  obtain ⟨op, rfl, rfl⟩ := List.map_eq_singleton_iff.mp hops
  constructor
  · refine h.obeys.start (h.outstanding.allowed hidle ?_ ?_)
    · rintro ⟨hmessage, hread⟩
      exact (honce.resolve_left hmessage).resolve_left hread
    · rintro type' hstarted ⟨rfl, hmessage⟩
      exact hunclosed hmessage hstarted
  · refine (h.outstanding.start [op]).perm (List.perm_iff_count.mpr fun type' => ?_)
    rw [hcount, List.count_append, hops, count_singleton]

/-- A batch completes. -/
theorem Inv.completes (h : Inv s) (s' : State β) {types : List OpType}
    (hcount : ∀ type, s.outstanding.count type = types.count type + s'.outstanding.count type) :
    Discipline.Obeys CoreOp.type coreRules (s.history ++ [.complete types]) ∧
      Discipline.Outstanding CoreOp.type (s.history ++ [.complete types]) s'.outstanding := by
  refine ⟨h.obeys.complete types, Discipline.Outstanding.complete (h.outstanding.perm ?_)⟩
  refine List.perm_iff_count.mpr fun type => ?_
  rw [hcount, List.count_append]

/-- What is started has been started, from then on. -/
theorem started_start (history : History) (ops : List CoreOp) :
    started (history ++ [.start ops]) = started history ++ ops.map CoreOp.type :=
  Discipline.started_start ..

/-- What is completed is not started by that. -/
theorem started_complete (history : History) (types : List OpType) :
    started (history ++ [.complete types]) = started history := Discipline.started_complete ..

/-- As long as the user may write, the sending side has not been closed. -/
theorem Inv.unclosed_complete (h : Inv s) (types : List OpType) (hwrites : s.type.writes = true)
    (hfinished : s.finished = false) :
    .sendCloseFromClient ∉ started (s.history ++ [.complete types]) := by
  rw [started_complete]
  exact h.unclosed hwrites hfinished

/-- A batch with another operation does not close the sending side. -/
theorem Inv.unclosed_start (h : Inv s) {ops : List CoreOp} {type : OpType}
    (hops : ops.map CoreOp.type = [type]) (htype : .sendCloseFromClient ≠ type)
    (hwrites : s.type.writes = true) (hfinished : s.finished = false) :
    .sendCloseFromClient ∉ started (s.history ++ [.start ops]) := by
  rw [started_start, hops, List.mem_append, not_or]
  exact ⟨h.unclosed hwrites hfinished, fun hmem => htype (List.mem_singleton.mp hmem)⟩

/-- What is started in `_write`. -/
theorem Inv.startWrite (h : Inv s) (hwrites : s.type.writes = true)
    (hwriting : s.writing = true) (houtstanding : s.writeOutstanding = false)
    (himmediate : s.immediate = false) (hfinished : s.finished = false) (message : JsValue) :
    Inv (s.startWrite core [(.sendMessage, message)]) := by
  unfold State.startWrite
  split
  · exact { h with
      writing := fun hout => absurd (houtstanding.symm.trans hout) nofun
      immediate := fun himm => absurd (himmediate.symm.trans himm) nofun
      writes := fun _ => hwrites }
  · split
    · rename_i ops hops
      have htypes : ops.map CoreOp.type = [.sendMessage] := startBatch_types hops
      have hidle : .sendMessage ∉ s.outstanding :=
        s.not_mem_outstanding (writes_ops hwrites).1
          (fun hout => absurd (houtstanding.symm.trans hout) nofun) nofun nofun
      obtain ⟨hobeys, hout⟩ := h.starts ({ s with writeOutstanding := true }.start ops) htypes
        hidle (.inl rfl) (fun _ => h.unclosed hwrites hfinished) fun type => by
          rw [State.count_outstanding, State.count_outstanding, houtstanding]
          simp only [State.start]
          grind
      exact { h with
        obeys := hobeys
        outstanding := hout
        writing := fun _ => hwriting
        immediate := fun himm => absurd (himmediate.symm.trans himm) nofun
        unclosed := h.unclosed_start htypes nofun }
    · exact { h with }

/-- `_write` starts one batch with a message, or none. -/
theorem Inv.write (h : Inv s) (hwrites : s.type.writes = true)
    (hwriting : s.writing = false) (hfinished : s.finished = false)
    (serialize : γ → Except ε JsValue) (chunk : Option γ) (encoding : JsValue) :
    Inv (s.write core serialize chunk encoding) := by
  have houtstanding : s.writeOutstanding = false := by
    by_contra hout
    exact absurd ((h.writing (eq_true_of_ne_false hout)).symm.trans hwriting) nofun
  have himmediate : s.immediate = false := by
    by_contra himm
    exact absurd ((h.immediate (eq_true_of_ne_false himm)).1.symm.trans hwriting) nofun
  have hcalled : Inv { s with writing := true } :=
    { h with
      writing := fun _ => rfl
      immediate := fun himm => ⟨rfl, (h.immediate himm).2⟩
      writes := fun _ => hwrites }
  unfold State.write
  split
  · exact { hcalled with immediate := fun _ => ⟨rfl, houtstanding⟩ }
  · split
    · exact { h with }
    · rename_i message _
      unfold State.writeMessage
      split
      · have hmessage : Inv { s with
            writing := true
            serialized := s.serialized ++ (message? (message.getD .null)).toList } :=
          { hcalled with }
        exact hmessage.startWrite hwrites rfl houtstanding himmediate hfinished _
      · exact { hcalled with }

/-- The batch of a write completes. -/
theorem Inv.writeCompletes (h : Inv s) (hout : s.writeOutstanding = true)
    (completion : Completion Unit) : Inv (s.writeCompletes completion) := by
  have hcount : ∀ type, s.outstanding.count type =
      [OpType.sendMessage].count type + (s.writeCompletes completion).outstanding.count type := by
    intro type
    rw [State.count_outstanding, State.count_outstanding, count_singleton, hout]
    simp only [State.writeCompletes, State.complete]
    grind
  obtain ⟨hobeys, hout'⟩ := h.completes _ hcount
  exact { h with
    obeys := hobeys
    outstanding := hout'
    writing := nofun
    immediate := fun himm => absurd (hout.symm.trans (h.immediate himm).2) nofun
    writes := fun hw => h.writes (hw.imp_right fun _ => h.writing hout)
    unclosed := h.unclosed_complete _ }

/-- The end of the writes starts one batch that closes the sending side, or none. -/
theorem Inv.finish (h : Inv s) (hended : s.ended = true) (hfinished : s.finished = false) :
    Inv (s.finish core) := by
  have hwrites := h.writes (.inl hended)
  have hclosing : s.closeOutstanding = false := by
    by_contra hout
    exact absurd ((h.closing (eq_true_of_ne_false hout)).symm.trans hfinished) nofun
  have hdone : Inv { s with finished := true } :=
    { h with closing := fun _ => rfl, unclosed := nofun }
  unfold State.finish
  split
  · exact hdone
  · have hidle : .sendCloseFromClient ∉ s.outstanding :=
      s.not_mem_outstanding (writes_ops hwrites).2 nofun
        (fun hout => absurd (hclosing.symm.trans hout) nofun) nofun
    have htypes : [CoreOp.sendCloseFromClient].map CoreOp.type = [.sendCloseFromClient] := rfl
    obtain ⟨hobeys, hout⟩ := h.starts
      ({ s with finished := true, closeOutstanding := true }.start [.sendCloseFromClient]) htypes hidle
      (.inr (.inr (h.unclosed hwrites hfinished))) nofun fun type => by
        rw [State.count_outstanding, State.count_outstanding, hclosing]
        simp only [State.start]
        grind
    exact { hdone with
      obeys := hobeys
      outstanding := hout
      closing := fun _ => rfl
      unclosed := nofun }

/-- The batch that closes the sending side completes. -/
theorem Inv.closeCompletes (h : Inv s) (hout : s.closeOutstanding = true) :
    Inv ({ s with closeOutstanding := false }.complete [.sendCloseFromClient]) := by
  have hcount : ∀ type, s.outstanding.count type = [OpType.sendCloseFromClient].count type +
      (State.complete { s with closeOutstanding := false }
        [.sendCloseFromClient]).outstanding.count type := by
    intro type
    rw [State.count_outstanding, State.count_outstanding, count_singleton, hout]
    simp only [State.complete]
    grind
  obtain ⟨hobeys, hout'⟩ := h.completes _ hcount
  exact { h with
    obeys := hobeys
    outstanding := hout'
    closing := nofun
    unclosed := h.unclosed_complete _ }

/-- The batch with the metadata completes. -/
theorem Inv.metadataCompletes (h : Inv s) (hout : s.metadataOutstanding = true) :
    Inv ({ s with metadataOutstanding := false }.complete (metadataOps s.type)) := by
  have hcount : ∀ type, s.outstanding.count type = (metadataOps s.type).count type +
      (State.complete { s with metadataOutstanding := false }
        (metadataOps s.type)).outstanding.count type := by
    intro type
    rw [State.count_outstanding, State.count_outstanding, hout]
    simp only [State.complete]
    grind
  obtain ⟨hobeys, hout'⟩ := h.completes _ hcount
  exact { h with obeys := hobeys, outstanding := hout', unclosed := h.unclosed_complete _ }

/-! ### The stream that reads -/

/-- The batch with the status completes. -/
theorem Inv.statusCompletes (h : Inv s) (hout : s.reader.statusOutstanding = true) :
    Inv ({ s with reader := { s.reader with statusOutstanding := false } }.complete
      (statusOps s.type)) := by
  have hcount : ∀ type, s.outstanding.count type = (statusOps s.type).count type +
      (State.complete { s with reader := { s.reader with statusOutstanding := false } }
        (statusOps s.type)).outstanding.count type := by
    intro type
    rw [State.count_outstanding, State.count_outstanding, hout]
    simp only [State.complete]
    grind
  obtain ⟨hobeys, hout'⟩ := h.completes _ hcount
  exact { h with obeys := hobeys, outstanding := hout', unclosed := h.unclosed_complete _ }

/-- A read completes. -/
theorem Inv.readCompletes (h : Inv s) {n : Nat} (hreads : s.reader.reads = n + 1) :
    Inv ({ s with reader := { s.reader with reads := n } }.complete [.recvMessage]) := by
  have hcount : ∀ type, s.outstanding.count type = [OpType.recvMessage].count type +
      (State.complete { s with reader := { s.reader with reads := n } }
        [.recvMessage]).outstanding.count type := by
    intro type
    rw [State.count_outstanding, State.count_outstanding, count_singleton, hreads]
    simp only [State.complete]
    grind
  obtain ⟨hobeys, hout'⟩ := h.completes _ hcount
  exact { h with
    obeys := hobeys
    outstanding := hout'
    reads := fun _ => h.reads (by omega)
    unclosed := h.unclosed_complete _ }

/-- A read starts when none is outstanding. -/
theorem Inv.readStarts (h : Inv s) (htype : s.type.reads = true) (hreads : s.reader.reads = 0) :
    Inv ({ s with reader := { s.reader with reads := 1 } }.start [.recvMessage]) := by
  have hidle : .recvMessage ∉ s.outstanding :=
    s.not_mem_outstanding (reads_ops htype) nofun nofun fun hpos => absurd hreads (Nat.ne_of_gt hpos)
  have htypes : [CoreOp.recvMessage].map CoreOp.type = [.recvMessage] := rfl
  obtain ⟨hobeys, hout⟩ := h.starts
    ({ s with reader := { s.reader with reads := 1 } }.start [.recvMessage]) htypes hidle
    (.inr (.inl rfl)) nofun fun type => by
      rw [State.count_outstanding, State.count_outstanding, hreads]
      simp only [State.start]
      grind
  exact { h with
    obeys := hobeys
    outstanding := hout
    reads := fun _ => htype
    unclosed := h.unclosed_start htypes nofun }

/-- The state of the reading side may change otherwise, as long as the batch with the status is not
outstanding again. -/
theorem Inv.status (h : Inv s) {outstanding : Bool}
    (hstatus : outstanding = true → s.reader.statusOutstanding = true) :
    Inv { s with
      reader := { s.reader with statusOutstanding := outstanding }
      history := s.history ++ s.statusEvents s.reader.statusOutstanding outstanding } := by
  by_cases hsame : outstanding = s.reader.statusOutstanding
  · have hevents : s.statusEvents outstanding outstanding = [] := by
      rw [State.statusEvents, Bool.and_not_self]
      rfl
    rw [← hsame, hevents, List.append_nil, hsame]
    exact h
  · cases outstanding with
    | true => exact absurd (hstatus rfl).symm hsame
    | false =>
        have hout : s.reader.statusOutstanding = true := eq_true_of_ne_false fun h => hsame h.symm
        rw [hout]
        exact h.statusCompletes hout

/-- The state of the reading side may change otherwise, as long as there is at most one read. -/
theorem Inv.read (h : Inv s) (htype : s.type.reads = true) (hone : s.reader.reads ≤ 1)
    {reads : Nat} (hone' : reads ≤ 1) :
    Inv { s with
      reader := { s.reader with reads }
      history := s.history ++ State.readEvents s.reader.reads reads } := by
  rcases Nat.lt_trichotomy reads s.reader.reads with hlt | rfl | hgt
  · obtain rfl : reads = 0 := by omega
    have hreads : s.reader.reads = 0 + 1 := by omega
    rw [State.readEvents, if_pos hlt]
    exact h.readCompletes hreads
  · simpa [State.readEvents] using h
  · obtain rfl : reads = 1 := by omega
    rw [State.readEvents, if_neg (by omega), if_pos hgt]
    exact h.readStarts htype (by omega)

/-- A step of the stream that reads. What else is kept of it does not matter. -/
theorem Inv.reader (h : Inv s) (htype : s.type.reads = true) (hone : s.reader.reads ≤ 1)
    {reader : ClientReadStream.State β} (hone' : reader.reads ≤ 1)
    (hstatus : reader.statusOutstanding = true → s.reader.statusOutstanding = true) :
    Inv (s.withReader reader) := by
  have hread := (h.status hstatus).read htype hone hone'
  exact { hread with }

/-! ### A new call -/

/-- The batches of a function are started in its order, each with the types of its operations. -/
theorem startBatches_eq {s s' : State β} {batches : List Batch}
    (h : s.startBatches core batches = some s') :
    ∃ started : List (List CoreOp), started.map (List.map CoreOp.type) =
      batches.map (List.map Prod.fst) ∧ s' = { s with history := s.history ++ started.map .start } := by
  induction batches generalizing s with
  | nil =>
      obtain rfl := Option.some.inj h
      exact ⟨[], rfl, by rw [List.map_nil, List.append_nil]⟩
  | cons batch batches ih =>
      simp only [State.startBatches] at h
      cases hops : NativeCore.startBatch core batch with
      | error e => simp [hops] at h
      | ok ops =>
          rw [hops] at h
          obtain ⟨started, htypes, rfl⟩ := ih h
          refine ⟨ops :: started, ?_, ?_⟩
          · rw [List.map_cons, List.map_cons, htypes, startBatch_types hops]
          · rw [List.map_cons, State.start, List.append_assoc, List.singleton_append]

/-- A batch of types that are new, after which nothing may be said to be over. -/
theorem starts_new {history : History} {outstanding types : List OpType} {ops : List CoreOp}
    (hobeys : Discipline.Obeys CoreOp.type coreRules history)
    (hout : Discipline.Outstanding CoreOp.type history outstanding)
    (hops : ops.map CoreOp.type = types) (hnodup : types.Nodup)
    (hnew : ∀ type ∈ types, type ∉ started history)
    (hopen : .sendMessage ∈ types → .sendCloseFromClient ∉ started history) :
    Discipline.Obeys CoreOp.type coreRules (history ++ [.start ops]) ∧
      Discipline.Outstanding CoreOp.type (history ++ [.start ops]) (outstanding ++ types) := by
  have hout' := hout.start ops
  subst hops
  refine ⟨hobeys.start (hout.allowed_new hnodup hnew ?_), hout'⟩
  rintro type htype type' hstarted ⟨rfl, rfl⟩
  exact hopen htype hstarted

/-- A request that starts one batch -/
theorem starts_one {ops : List CoreOp} {types : List OpType} (hops : ops.map CoreOp.type = types)
    (hnodup : types.Nodup) :
    Discipline.Obeys CoreOp.type coreRules [.start ops] ∧
      Discipline.Outstanding CoreOp.type [.start ops] types :=
  starts_new Discipline.obeys_nil Discipline.outstanding_nil hops hnodup
    (fun _ _ => List.not_mem_nil) fun _ => List.not_mem_nil

/-- The batches of a request that starts two have no type in common. -/
theorem ops_disjoint (type : MethodType) :
    (metadataOps type).Nodup ∧ (statusOps type).Nodup ∧
      (∀ type' ∈ statusOps type, type' ∉ metadataOps type) ∧
      (.sendMessage ∈ statusOps type → .sendCloseFromClient ∉ metadataOps type) := by
  cases type <;> decide

/-- A request that starts two batches -/
theorem inv_startBatches {type : MethodType} {serialized : List Buffer} {first second : Batch}
    (h : State.startBatches core { type, serialized, metadataOutstanding := true } [first, second] =
      some s)
    (hfirst : first.map Prod.fst = metadataOps type) (hsecond : second.map Prod.fst = statusOps type)
    (hwrites : type.writes = true → .sendCloseFromClient ∉ metadataOps type ++ statusOps type) :
    Inv s := by
  obtain ⟨started, htypes, rfl⟩ := startBatches_eq h
  obtain ⟨ops, rest, rfl, hops, hrest⟩ := List.map_eq_cons_iff.mp htypes
  obtain ⟨ops', rfl, hops'⟩ := List.map_eq_singleton_iff.mp hrest
  rw [hfirst] at hops
  rw [hsecond] at hops'
  obtain ⟨hnodup, hnodup', hnew, hopen⟩ := ops_disjoint type
  obtain ⟨hobeys, hout⟩ := starts_one hops hnodup
  have hstarted : ClientCall.started [.start ops] = metadataOps type := by
    rw [ClientCall.started, Discipline.started, Discipline.operations_start, hops]
  rw [← hstarted] at hnew hopen
  obtain ⟨hobeys', hout'⟩ := starts_new hobeys hout hops' hnodup' hnew hopen
  have hoff {p : Prop} : false = true → p := fun h => absurd h Bool.false_ne_true
  refine ⟨hobeys', ?_, hoff, hoff, hoff, by simp, by simp, fun hw _ => ?_⟩
  · refine hout'.perm (.of_eq ?_)
    simp [State.outstanding]
  · have hall : ClientCall.started ([.start ops] ++ [.start ops']) =
        metadataOps type ++ statusOps type := by
      rw [started_start, hstarted, hops']
    exact hall ▸ hwrites hw

/-- A call that has just been made meets the invariant. -/
theorem Inv.make {serialize : α → Except ε JsValue} {argument : α} {metadata : Metadata core}
    {flags : Option JsValue} {type : MethodType}
    (h : make core serialize argument metadata flags type = some s) : Inv s := by
  cases type with
  | unary =>
      obtain ⟨message, -, hmake⟩ := Option.bind_eq_some_iff.mp h
      obtain ⟨started, htypes, rfl⟩ := startBatches_eq hmake
      obtain ⟨ops, rfl, hops⟩ := List.map_eq_singleton_iff.mp htypes
      have hops : ops.map CoreOp.type = statusOps .unary := hops
      obtain ⟨hobeys, hout⟩ := starts_one hops (by decide)
      exact ⟨hobeys, hout, nofun, nofun, nofun, by simp, by simp, nofun⟩
  | clientStream => exact inv_startBatches h rfl rfl fun hw => (writes_ops hw).2
  | serverStream =>
      obtain ⟨message, -, hmake⟩ := Option.bind_eq_some_iff.mp h
      exact inv_startBatches hmake rfl rfl nofun
  | bidi => exact inv_startBatches h rfl rfl fun hw => (writes_ops hw).2

/-! ### Every run -/

/-- Unfolding of a step of the reading side -/
theorem step_reader {core : Core} {serialize : γ → Except ε JsValue}
    {deserialize : Buffer → Except ε β} {s s' : State β} {a : ClientReadStream.Act}
    (h : step core serialize deserialize s (.reader a) = some s') :
    a ≠ .releaseCall ∧ s.type.reads = true ∧
      ∃ reader, ClientReadStream.step deserialize s.reader a = some reader ∧
        s' = s.withReader reader := by
  rcases eq_or_ne a .releaseCall with rfl | ha
  · cases h
  · have hstep : (if s.type.reads then
        (ClientReadStream.step deserialize s.reader a).map s.withReader else none) = some s' := by
      cases a with
      | releaseCall => exact absurd rfl ha
      | _ => exact h
    split at hstep
    · rename_i htype
      obtain ⟨reader, hreader, rfl⟩ := Option.map_eq_some_iff.mp hstep
      exact ⟨ha, htype, reader, hreader, rfl⟩
    · cases hstep

/-- The reading side of a call that has just been made -/
theorem make_reader {serialize : α → Except ε JsValue} {argument : α} {metadata : Metadata core}
    {flags : Option JsValue} {type : MethodType}
    (h : make core serialize argument metadata flags type = some s) : s.reader = {} := by
  cases type with
  | unary | serverStream =>
      obtain ⟨message, -, hmake⟩ := Option.bind_eq_some_iff.mp h
      obtain ⟨started, -, rfl⟩ := startBatches_eq hmake
      rfl
  | clientStream | bidi =>
      obtain ⟨started, -, rfl⟩ := startBatches_eq h
      rfl

/-- Every step keeps the invariant. -/
theorem inv_step {serialize : γ → Except ε JsValue} {deserialize : Buffer → Except ε β}
    {s' : State β} {a : Act γ} (h : Inv s)
    (hloop : ReadLoop.Inv (ClientReadStream.parse deserialize) s.reader.loop)
    (hstep : step core serialize deserialize s a = some s') :
    Inv s' ∧ ReadLoop.Inv (ClientReadStream.parse deserialize) s'.reader.loop := by
  cases a with
  | write chunk encoding =>
      obtain ⟨⟨hwrites, hwriting, hfinished⟩, rfl⟩ := Runs.when_eq_some.mp hstep
      rw [State.reader_write]
      exact ⟨h.write hwrites hwriting hfinished serialize chunk encoding, hloop⟩
  | writeCompletes completion =>
      obtain ⟨hout, rfl⟩ := Runs.when_eq_some.mp hstep
      exact ⟨h.writeCompletes hout completion, hloop⟩
  | immediate =>
      obtain ⟨himmediate, rfl⟩ := Runs.when_eq_some.mp hstep
      obtain ⟨hwriting, hout⟩ := h.immediate himmediate
      exact ⟨{ h with
        writing := fun hout' => absurd (hout.symm.trans hout') nofun
        immediate := nofun
        writes := fun hw => h.writes (hw.imp_right fun _ => hwriting) }, hloop⟩
  | streamEnd =>
      obtain ⟨hwrites, rfl⟩ := Runs.when_eq_some.mp hstep
      exact ⟨{ h with writes := fun _ => hwrites }, hloop⟩
  | finish =>
      obtain ⟨⟨hended, -, hfinished⟩, rfl⟩ := Runs.when_eq_some.mp hstep
      rw [State.reader_finish]
      exact ⟨h.finish hended hfinished, hloop⟩
  | closeCompletes =>
      obtain ⟨hout, rfl⟩ := Runs.when_eq_some.mp hstep
      exact ⟨h.closeCompletes hout, hloop⟩
  | metadataCompletes =>
      obtain ⟨hout, rfl⟩ := Runs.when_eq_some.mp hstep
      exact ⟨h.metadataCompletes hout, hloop⟩
  | responseCompletes =>
      obtain ⟨⟨-, hout⟩, rfl⟩ := Runs.when_eq_some.mp hstep
      exact ⟨h.statusCompletes hout, hloop⟩
  | reader a =>
      obtain ⟨ha, htype, reader, hreader, rfl⟩ := step_reader hstep
      have hloop' := ClientReadStream.inv_step hloop hreader
      have hstatus := (ClientReadStream.step_frame hreader ha).2
      exact ⟨h.reader htype ((Nat.le_add_right _ _).trans hloop.atMostOne)
        ((Nat.le_add_right _ _).trans hloop'.atMostOne) hstatus, hloop'⟩
  | releaseCall =>
      obtain ⟨-, rfl⟩ := Runs.when_eq_some.mp hstep
      exact ⟨{ h with }, hloop⟩

/-- **A call obeys the core.** Whatever kind of call it is, whatever is written and read, and in
whatever order batches complete: in every run no batch is started with an operation that is in
progress or has been used before and may be used only once, or with a message after
`SEND_CLOSE_FROM_CLIENT`. -/
theorem always_obeys {serialize : α → Except ε JsValue} {argument : α} {metadata : Metadata core}
    {flags : Option JsValue} {type : MethodType} {s : State β}
    (h : make core serialize argument metadata flags type = some s)
    (serializeChunk : γ → Except ε JsValue) (deserialize : Buffer → Except ε β)
    (acts : List (Act γ)) :
    Runs.Always (step core serializeChunk deserialize)
      (fun s => Discipline.Obeys CoreOp.type coreRules s.history) s acts := by
  have hinv : Runs.Always (step core serializeChunk deserialize)
      (fun s => Inv s ∧ ReadLoop.Inv (ClientReadStream.parse deserialize) s.reader.loop) s acts := by
    refine Runs.always_of_invariant (fun s a s' hs hstep => inv_step hs.1 hs.2 hstep) ⟨.make h, ?_⟩
      acts
    rw [make_reader h]
    exact ReadLoop.inv_initial
  exact hinv.mono fun _ hs => hs.1.obeys

/-- What a `Buffer` is serialized to. -/
def serializeBuffer (bytes : Buffer) : Except Unit JsValue := .ok (.buffer bytes [])

/-- Messages are bytes. -/
def deserializeBuffer (bytes : Buffer) : Except Unit Buffer := .ok bytes

/-- A call that writes and reads, as it has been made. -/
def bidiCall : State Buffer where
  type := .bidi
  metadataOutstanding := true
  history := [.start [.sendInitialMetadata [], .recvInitialMetadata], .start [.recvStatusOnClient]]

theorem always_obeys_bidi :
    Runs.Always (step Core.ascii serializeBuffer deserializeBuffer)
      (fun s => Discipline.Obeys CoreOp.type coreRules s.history) bidiCall
      [.reader .read, .write (some [7]) .undefined, .writeCompletes (.result ()), .streamEnd,
        .finish] := by
  have hmake : make Core.ascii serializeBuffer [] .new none .bidi = some bidiCall := rfl
  exact always_obeys hmake serializeBuffer deserializeBuffer _

end ClientCall

end GrpcNode.NativeCore
