import GrpcNode.JsCore.CallStreamOutcome

/-!
# GrpcNode.JsCore.CallStreamWrites

What a call writes to its HTTP/2 stream.

Before `attachHttp2Stream` the call stream has room for one message and one end. It needs no
more, because Node calls `_write` for the next message only when the callback of the last has
run, and no callback runs before there is a stream. `Outgoing` is the part of the state that
this is about, and `Outgoing.Good` its invariant: what has been written so far is either on
the stream or in the one place where it waits.
-/

namespace GrpcNode.JsCore

open GrpcNode.Js

/-- What the stream has been given: the chunks, and whether `end` was called. -/
def Http2Stream.sent (stream : Http2Stream) : List Buffer × Bool :=
  (stream.written, stream.ended.isSome)

namespace CallStream

/-! ### What a run asks for, and what it does -/

/-- A call of a method of the HTTP/2 stream. -/
inductive StreamCall
  | write (chunk : Buffer)
  | endWith
  deriving DecidableEq

/-- The messages passed to `_write`, in order. -/
def messages : List Act → List WriteObject
  | [] => []
  | .write chunk _ :: acts => chunk :: messages acts
  | _ :: acts => messages acts

/-- Whether `_final` has been called. -/
def finalRequested : List Act → Bool
  | [] => false
  | .final _ :: _ => true
  | _ :: acts => finalRequested acts

/-- The `write` and `end` calls on the HTTP/2 stream in one step: `attachHttp2Stream` makes
those that were put off, `_write` and `_final` make theirs if there is a stream. -/
def streamCalls (s : State) : Act → List StreamCall
  | .attachHttp2Stream =>
      match s.call.finalStatus with
      | some _ => []
      | none =>
          let ends := if s.call.pendingFinalCallback.isSome then [StreamCall.endWith] else []
          match s.call.pendingWrite, s.call.pendingWriteCallback with
          | none, _ => ends
          | some chunk, some _ => .write chunk :: ends
          | some _, none => []
  | .write chunk _ => if s.call.http2Stream.isSome then [.write (encodeMessage chunk)] else []
  | .final _ => if s.call.http2Stream.isSome then [.endWith] else []
  | _ => []

/-- The calls on the HTTP/2 stream in a whole run. -/
def callLog (filterStack : ReceiveFilter) : State → List Act → List StreamCall
  | _, [] => []
  | s, a :: acts =>
      match step filterStack s a with
      | some s' => streamCalls s a ++ callLog filterStack s' acts
      | none => []

/-! ### The outgoing side -/

/-- What writing and ending depend on. `sent` is what the attached stream has been given. -/
structure Outgoing where
  sent : Option (List Buffer × Bool)
  pendingWrite : Option Buffer
  pendingWriteCallback : Option Callback
  pendingFinalCallback : Option Callback
  writing : Option Callback
  finished : Bool

def State.outgoing (s : State) : Outgoing where
  sent := s.call.http2Stream.map Http2Stream.sent
  pendingWrite := s.call.pendingWrite
  pendingWriteCallback := s.call.pendingWriteCallback
  pendingFinalCallback := s.call.pendingFinalCallback
  writing := s.writing
  finished := s.finished

namespace Outgoing

variable (o : Outgoing)

/-- `attachHttp2Stream(stream)` -/
def attach : Outgoing :=
  { o with sent := some (o.pendingWrite.toList, o.pendingFinalCallback.isSome) }

/-- `_write(chunk, encoding, cb)` -/
def write (chunk : WriteObject) (cb : Callback) : Outgoing :=
  match o.sent with
  | none =>
      { o with
        pendingWrite := some (encodeMessage chunk)
        pendingWriteCallback := some cb
        writing := some cb }
  | some (written, ended) =>
      { o with sent := some (written ++ [encodeMessage chunk], ended), writing := some cb }

/-- `_final(cb)` -/
def final (cb : Callback) : Outgoing :=
  match o.sent with
  | none => { o with pendingFinalCallback := some cb, finished := true }
  | some (written, _) => { o with sent := some (written, true), finished := true }

/-- What an action does to the outgoing side, and the calls that it makes on the stream. -/
inductive Step (o : Outgoing) : Act → List StreamCall → Outgoing → Prop
  | attach : o.sent = none →
      Step o .attachHttp2Stream
        (o.pendingWrite.toList.map .write ++
          if o.pendingFinalCallback.isSome then [.endWith] else []) o.attach
  | write (chunk : WriteObject) (cb : Callback) : o.writing = none → o.finished = false →
      Step o (.write chunk cb) (if o.sent.isSome then [.write (encodeMessage chunk)] else [])
        (o.write chunk cb)
  | final (cb : Callback) : o.writing = none → o.finished = false →
      Step o (.final cb) (if o.sent.isSome then [.endWith] else []) (o.final cb)
  | writeDone (writing : Option Callback) : o.sent ≠ none →
      Step o .writeDone [] { o with writing }
  | other {a : Act} : messages [a] = [] → finalRequested [a] = false → Step o a [] o

end Outgoing

namespace State

variable (s : State)

theorem outgoing_onStream {f : Http2Stream → Http2Stream} (hf : ∀ t, (f t).sent = t.sent) :
    { s with call := s.call.onStream f }.outgoing = s.outgoing := by
  unfold outgoing Http2CallStream.onStream
  cases s.call.http2Stream with
  | none => rfl
  | some stream => simp only [Option.map_some, hf]

theorem outgoing_endCall (status : StatusObject) :
    (s.endCall status).outgoing = s.outgoing := by
  unfold endCall
  split <;> rfl

theorem outgoing_resetStream : s.resetStream.outgoing = s.outgoing :=
  s.outgoing_onStream fun _ => rfl

theorem outgoing_cancelWithStatus (status : Status) (details : String) :
    (s.cancelWithStatus status details).outgoing = s.outgoing := by
  unfold cancelWithStatus
  split
  · exact s.outgoing_endCall _
  · exact s.outgoing_resetStream

theorem outgoing_settle (filterStack : ReceiveFilter) (job : Job) :
    (s.settle filterStack job).outgoing = s.outgoing := by
  unfold settle
  split
  · split
    · rfl
    · exact s.outgoing_cancelWithStatus _ _
  · split <;> exact s.outgoing_endCall _

theorem outgoing_onResponse (headers : Headers) :
    (s.onResponse headers).outgoing = s.outgoing := by
  unfold onResponse
  dsimp only
  split
  · rfl
  · exact outgoing_cancelWithStatus _ _ _

theorem outgoing_dataPass (rest : List Frame) (chunk : Buffer) (readHead : Nat) (canPush : Bool) :
    (s.dataPass rest chunk readHead canPush).outgoing = s.outgoing := by
  unfold dataPass
  split
  · split
    · rfl
    · split <;> rfl
  · rfl

theorem outgoing_tryPushReturns (rest : List Frame) (chunk : Buffer) (readHead : Nat)
    (result : Bool) : (s.tryPushReturns rest chunk readHead result).outgoing = s.outgoing := by
  unfold tryPushReturns
  cases result with
  | true => rfl
  | false => exact s.outgoing_onStream fun _ => rfl

theorem outgoing_readPass (rest : List Frame) : (s.readPass rest).outgoing = s.outgoing := by
  unfold readPass
  split
  · rfl
  · exact s.outgoing_onStream fun _ => rfl

theorem outgoing_write (chunk : WriteObject) (cb : Callback) :
    (s.write chunk cb).outgoing = s.outgoing.write chunk cb := by
  unfold write Outgoing.write outgoing
  cases h : s.call.http2Stream with
  | none => simp [h]
  | some stream => simp [Http2Stream.sent, Http2Stream.write]

theorem outgoing_final (cb : Callback) : (s.final cb).outgoing = s.outgoing.final cb := by
  unfold final Outgoing.final outgoing
  cases h : s.call.http2Stream with
  | none => simp [h]
  | some stream => simp [Http2Stream.sent, Http2Stream.endWith]

/-- A call that has not ended takes the stream, if what waits to be written can be. -/
theorem outgoing_attachHttp2Stream (hwrite : s.Writable) (hlive : s.call.finalStatus = none) :
    s.attachHttp2Stream.outgoing = s.outgoing.attach := by
  have hfinal : ∀ stream : Http2Stream, stream.ended = none →
      (s.attachFinal stream).outgoing =
        { s.outgoing with sent := some (stream.written, s.call.pendingFinalCallback.isSome) } := by
    intro stream hended
    unfold attachFinal outgoing
    cases s.call.pendingFinalCallback with
    | none => simp [Http2Stream.sent, hended]
    | some cb => simp [Http2Stream.sent, Http2Stream.endWith]
  have hnew : ∀ paused : Bool, (if paused then Http2Stream.listen {}
      else (Http2Stream.listen {}).pause).sent = ([], false) := by decide
  obtain ⟨hwritten, hended⟩ := Prod.mk.inj (hnew s.call.pendingRead)
  rw [Option.isSome_eq_false_iff, Option.isNone_iff_eq_none] at hended
  unfold attachHttp2Stream Outgoing.attach
  rw [hlive]
  show _ = { s.outgoing with
    sent := some (s.call.pendingWrite.toList, s.call.pendingFinalCallback.isSome) }
  dsimp only
  split
  · rename_i hnone
    have hlist : s.call.pendingWrite.toList = [] := by rw [hnone]; rfl
    rw [hfinal _ hended, hwritten, hlist]
  · rename_i chunk cb hchunk hcallback
    have hlist : s.call.pendingWrite.toList = [chunk] := by rw [hchunk]; rfl
    rw [hfinal _ (by rw [Http2Stream.write, hended]), Http2Stream.write, hwritten, hlist]
    rfl
  · rename_i hwaits hcallback
    simp [Writable, outcome, hwaits, hcallback] at hwrite

theorem streamCalls_attach (hwrite : s.Writable) (hlive : s.call.finalStatus = none) :
    streamCalls s .attachHttp2Stream = s.outgoing.pendingWrite.toList.map .write ++
      if s.outgoing.pendingFinalCallback.isSome then [.endWith] else [] := by
  simp only [streamCalls, hlive, outgoing]
  split
  · rename_i hnone
    rw [hnone]
    rfl
  · rename_i chunk cb hchunk hcallback
    rw [hchunk]
    rfl
  · rename_i hwaits hcallback
    simp [Writable, outcome, hwaits, hcallback] at hwrite

/-- Attaching a stream makes the calls that were put off, unless the call has ended. -/
theorem attachHttp2Stream_outgoing (hwrite : s.Writable)
    (hfree : s.call.http2Stream = none ∨ s.call.finalStatus ≠ none) :
    s.outgoing.Step .attachHttp2Stream (streamCalls s .attachHttp2Stream)
      s.attachHttp2Stream.outgoing := by
  cases hstatus : s.call.finalStatus with
  | none =>
      have hstream : s.outgoing.sent = none := by
        simp [outgoing, hfree.resolve_right fun hne => hne hstatus]
      rw [s.outgoing_attachHttp2Stream hwrite hstatus, s.streamCalls_attach hwrite hstatus]
      exact .attach hstream
  | some status =>
      have hcalls : streamCalls s .attachHttp2Stream = [] := by simp [streamCalls, hstatus]
      have hsame : s.attachHttp2Stream.outgoing = s.outgoing := by
        rw [attachHttp2Stream, hstatus]
        rfl
      rw [hcalls, hsame]
      exact .other rfl rfl

/-- When a write is done, the next one may come. -/
theorem writeDone_outgoing {s' : State} (h : s.writeDone? = some s') :
    s.outgoing.Step .writeDone [] s'.outgoing := by
  unfold writeDone? at h
  obtain ⟨stream, hstream, h⟩ := Option.bind_eq_some_iff.mp h
  split at h
  · simp at h
  · rename_i cb callbacks _
    obtain rfl := Option.some.inj h
    have hstep := Outgoing.Step.writeDone (o := s.outgoing)
      (if s.writing = some cb then none else s.writing) (by simp [outgoing, hstream])
    have hafter : ({ s.outgoing with
        writing := if s.writing = some cb then none else s.writing } : Outgoing) =
        { s with
          call := { s.call with http2Stream := some { stream with callbacks } }
          writing := if s.writing = some cb then none else s.writing }.outgoing := by
      simp [outgoing, hstream, Http2Stream.sent]
    exact hafter ▸ hstep

end State

/-- **A step of the call stream does to its outgoing side what `Outgoing.Step` allows.** -/
theorem step_outgoing {filterStack : ReceiveFilter} {s s' : State} {a : Act} (hwrite : s.Writable)
    (h : step filterStack s a = some s') : s.outgoing.Step a (streamCalls s a) s'.outgoing := by
  have same : ∀ {t : State} {a : Act}, messages [a] = [] → finalRequested [a] = false →
      t.outgoing = s.outgoing → s.outgoing.Step a [] t.outgoing := by
    intro t a hmessages hfinal hsame
    rw [hsame]
    exact .other hmessages hfinal
  have hattached : s.outgoing.sent.isSome = s.call.http2Stream.isSome := Option.isSome_map
  cases step_effect h with
  | attachHttp2Stream _ hfree => exact s.attachHttp2Stream_outgoing hwrite hfree
  | onResponse headers _ _ => exact same rfl rfl (s.outgoing_onResponse headers)
  | onTrailers headers _ _ =>
      refine same rfl rfl ?_
      unfold State.onTrailers
      dsimp only
      split <;> rfl
  | onData chunk _ _ _ => exact same rfl rfl rfl
  | onEnd _ _ _ =>
      refine same rfl rfl ?_
      unfold State.onEnd
      split <;> rfl
  | onStreamClosed errorCode _ => exact same rfl rfl (s.outgoing_endCall _)
  | onError _ => exact same rfl rfl (s.outgoing_endCall _)
  | @settle i job _ _ =>
      exact same rfl rfl (State.outgoing_settle { s with jobs := s.jobs.eraseIdx i } filterStack job)
  | cancelWithStatus status details _ =>
      exact same rfl rfl (s.outgoing_cancelWithStatus status details)
  | read _ =>
      refine same rfl rfl ?_
      unfold State.read
      split <;> rfl
  | write chunk cb hwriting hfinished =>
      rw [s.outgoing_write, streamCalls, ← hattached]
      exact .write chunk cb hwriting hfinished
  | final cb hwriting hfinished =>
      rw [s.outgoing_final, streamCalls, ← hattached]
      exact .final cb hwriting hfinished
  | writeDone _ hdone => exact s.writeDone_outgoing hdone
  | dataPass _ => exact same rfl rfl (s.outgoing_dataPass _ _ _ _)
  | readPass _ => exact same rfl rfl (s.outgoing_readPass _)
  | tryPushReturns result _ => exact same rfl rfl (s.outgoing_tryPushReturns _ _ _ result)
  | endPushReturns result _ => exact same rfl rfl rfl
  | readStops _ _ => exact same rfl rfl rfl
  | readGoesOn _ _ => exact same rfl rfl rfl
  | cancelReturns _ => exact same rfl rfl s.outgoing_resetStream

/-! ### Nothing is lost -/

namespace Outgoing

/-- The calls that bring messages and an end to a stream. -/
def expected (ws : List WriteObject) (ended : Bool) : List StreamCall :=
  ws.map (fun w => .write (encodeMessage w)) ++ if ended then [.endWith] else []

/-- The messages `ws` have been written and the end has been asked for or not. Without a
stream, all of it is waiting, and there is room for it; with one, all of it is there. -/
structure Good (ws : List WriteObject) (ended : Bool) (log : List StreamCall) (o : Outgoing) :
    Prop where
  finished : o.finished = ended
  waiting : o.sent = none → log = [] ∧ o.pendingWrite.toList = ws.map encodeMessage ∧
    o.pendingFinalCallback.isSome = ended ∧ (o.writing = none → ws = [])
  sent : ∀ given, o.sent = some given →
    given = (ws.map encodeMessage, ended) ∧ log = expected ws ended

variable {o o' : Outgoing} {ws : List WriteObject} {ended : Bool} {log calls : List StreamCall}
  {a : Act}

theorem Good.step (ho : o.Good ws ended log) (h : o.Step a calls o') :
    o'.Good (ws ++ messages [a]) (ended || finalRequested [a]) (log ++ calls) := by
  cases h with
  | attach hnone =>
      obtain ⟨rfl, hpending, hfinal, -⟩ := ho.waiting hnone
      simp only [messages, finalRequested, List.append_nil, Bool.or_false, List.nil_append]
      refine ⟨ho.finished, nofun, ?_⟩
      rintro _ ⟨⟩
      rw [hpending, hfinal]
      exact ⟨rfl, by rw [expected, List.map_map]; rfl⟩
  | write chunk cb hwriting hfinished =>
      obtain rfl : false = ended := hfinished.symm.trans ho.finished
      simp only [messages, finalRequested, Bool.or_false, Outgoing.write]
      cases hsent : o.sent with
      | none =>
          obtain ⟨rfl, -, hfinal, hfree⟩ := ho.waiting hsent
          obtain rfl := hfree hwriting
          exact ⟨ho.finished, fun _ => ⟨rfl, rfl, hfinal, nofun⟩, nofun⟩
      | some given =>
          obtain ⟨rfl, rfl⟩ := ho.sent given hsent
          refine ⟨ho.finished, nofun, ?_⟩
          rintro _ ⟨⟩
          simp [expected]
  | final cb hwriting hfinished =>
      obtain rfl : false = ended := hfinished.symm.trans ho.finished
      simp only [messages, finalRequested, List.append_nil, Bool.or_true, Outgoing.final]
      cases hsent : o.sent with
      | none =>
          obtain ⟨rfl, hpending, -, hfree⟩ := ho.waiting hsent
          exact ⟨rfl, fun _ => ⟨rfl, hpending, rfl, hfree⟩, nofun⟩
      | some given =>
          obtain ⟨rfl, rfl⟩ := ho.sent given hsent
          refine ⟨rfl, nofun, ?_⟩
          rintro _ ⟨⟩
          simp [expected]
  | writeDone writing hsome =>
      simp only [messages, finalRequested, List.append_nil, Bool.or_false]
      exact ⟨ho.finished, fun hnone => absurd hnone hsome, ho.sent⟩
  | other hmessages hfinal =>
      rw [hmessages, hfinal, List.append_nil, List.append_nil, Bool.or_false]
      exact ho

end Outgoing

theorem messages_append (as bs : List Act) : messages (as ++ bs) = messages as ++ messages bs := by
  induction as with
  | nil => rfl
  | cons a as ih => cases a <;> simp [messages, ih]

theorem finalRequested_append (as bs : List Act) :
    finalRequested (as ++ bs) = (finalRequested as || finalRequested bs) := by
  induction as with
  | nil => rfl
  | cons a as ih => cases a <;> simp [finalRequested, ih]

/-- The invariant along a run. -/
theorem good_exec {filterStack : ReceiveFilter} {acts : List Act} {s t : State}
    {ws : List WriteObject} {ended : Bool} {log : List StreamCall} (hwrite : s.Writable)
    (hs : s.outgoing.Good ws ended log) (h : Runs.exec (step filterStack) s acts = some t) :
    t.outgoing.Good (ws ++ messages acts) (ended || finalRequested acts)
      (log ++ callLog filterStack s acts) := by
  induction acts generalizing s ws ended log with
  | nil =>
      obtain rfl := Option.some.inj h
      simpa [messages, finalRequested, callLog] using hs
  | cons a acts ih =>
      cases hstep : step filterStack s a with
      | none => simp [Runs.exec_cons, hstep] at h
      | some s' =>
          rw [Runs.exec_cons_of_step hstep] at h
          have hgood := ih (hwrite.step hstep) (hs.step (step_outgoing hwrite hstep)) h
          have hmessages := messages_append [a] acts
          have hfinal := finalRequested_append [a] acts
          rw [List.singleton_append] at hmessages hfinal
          rw [hmessages, hfinal, callLog, hstep]
          simpa only [List.append_assoc, Bool.or_assoc] using hgood

theorem initial_outgoing : State.initial.outgoing.Good [] false [] :=
  ⟨rfl, fun _ => ⟨rfl, rfl, rfl, fun _ => rfl⟩, nofun⟩

/-! ### No exception in the write path -/

/-- The exceptions of the `'trailers'` handler: of `decodeURI`, and of the calls of
`hasOwnProperty` -/
def IsTrailersError (e : JsError) : Prop :=
  e = .uriError "URI malformed" ∨ e = .typeError "headers.hasOwnProperty is not a function"

/-- The exceptions that escape come from the `'trailers'` handler. -/
def State.OnlyTrailersErrors (s : State) : Prop := ∀ e ∈ s.uncaught, IsTrailersError e

/-- The `'trailers'` handler has no other exceptions. -/
theorem error_of_trailersStatus {mappedStatusCode : Status} {headers : HeaderObject} {e : JsError}
    (h : trailersStatus mappedStatusCode headers = .error e) : IsTrailersError e := by
  by_cases haccessible : headers.Accessible
  case neg =>
    rw [trailersStatus_of_not_accessible haccessible] at h
    exact .inr (Except.error.inj h).symm
  refine .inl ?_
  have hdecode : ∀ s, decodeURI s = .error e → e = .uriError "URI malformed" := by
    intro s hs
    unfold decodeURI at hs
    split at hs
    · cases hs
    · exact (Except.error.inj hs).symm
  obtain ⟨code, hcode⟩ := trailersCode_of_accessible haccessible mappedStatusCode
  rw [trailersStatus, hcode, trailersDetails_of_accessible haccessible] at h
  split at h
  · rename_i message _
    cases hmessage : decodeURI message.toText with
    | ok details =>
        rw [hmessage] at h
        cases h
    | error e' =>
        rw [hmessage] at h
        obtain rfl := Except.error.inj h
        exact hdecode _ hmessage
  · cases h

theorem State.OnlyTrailersErrors.step {filterStack : ReceiveFilter} {s s' : State} {a : Act}
    (hwrite : s.Writable) (hs : s.OnlyTrailersErrors) (h : step filterStack s a = some s') :
    s'.OnlyTrailersErrors := by
  have hsame : s'.uncaught = s.uncaught → s'.OnlyTrailersErrors := by
    intro heq e he
    exact hs e (heq ▸ he)
  cases next_of_step hwrite h with
  | response headers jobs _ hframe => exact hsame hframe.uncaught
  | settle _ hframe => exact hsame hframe.uncaught
  | other _ _ _ hframe => exact hsame hframe.uncaught
  | trailers _ heq => exact hsame ((congrArg Outcome.uncaught heq).trans rfl)
  | ends heq => exact hsame ((congrArg Outcome.uncaught heq).trans rfl)
  | trailersThrow hthrow heq =>
      intro e he
      rw [show s'.uncaught = _ from congrArg Outcome.uncaught heq] at he
      rcases List.mem_append.mp he with he | he
      · exact hs e he
      · rw [List.mem_singleton.mp he]
        exact error_of_trailersStatus hthrow

/-! ### What reaches the wire -/

/-- What has become of the messages and of the end that a run has asked for, when it has led
to the state `s`. -/
structure SentInOrder (filterStack : ReceiveFilter) (acts : List Act) (s : State) : Prop where
  /-- The stream, once there is one, got each encoded message once and in order, and then
  one `end` if that was asked for. -/
  calls : callLog filterStack State.initial acts =
    if s.call.http2Stream.isSome then
      (messages acts).map (fun m => StreamCall.write (encodeMessage m)) ++
        if finalRequested acts then [.endWith] else []
    else []
  /-- The same, as the stream has it. -/
  stream : ∀ stream, s.call.http2Stream = some stream →
    stream.written = (messages acts).map encodeMessage ∧
      stream.ended.isSome = finalRequested acts
  noThrow : JsError.error "Invalid state in write handling code" ∉ s.uncaught
  /-- The other side decodes the messages, whatever chunks their bytes arrive in. -/
  decoded : (∀ m ∈ messages acts, m.message.length < 2 ^ 32) →
    ∀ chunks : List Buffer, chunks.flatten = ((messages acts).map encodeMessage).flatten →
      (Transducer.runChunks Decoder.onData Decoder.initial chunks).2 =
        (messages acts).map WriteObject.message

/-- **Messages are sent in order, none is lost and none is sent twice**, wherever the stream
is attached. -/
theorem sentInOrder {filterStack : ReceiveFilter} {acts : List Act} {s : State}
    (h : Runs.exec (step filterStack) State.initial acts = some s) :
    SentInOrder filterStack acts s := by
  have hgood := good_exec (show State.initial.Writable from rfl) initial_outgoing h
  rw [List.nil_append, Bool.false_or, List.nil_append] at hgood
  have herrors : s.Writable ∧ s.OnlyTrailersErrors :=
    Runs.exec_invariant (P := fun s => s.Writable ∧ s.OnlyTrailersErrors)
      (fun _ _ _ hs hstep => ⟨hs.1.step hstep, hs.2.step hs.1 hstep⟩) ⟨rfl, nofun⟩ h
  refine ⟨?_, ?_, ?_, ?_⟩
  · cases hstream : s.call.http2Stream with
    | none => exact (hgood.waiting (by simp [State.outgoing, hstream])).1
    | some stream =>
        have hsent : s.outgoing.sent = some stream.sent := by simp [State.outgoing, hstream]
        exact (hgood.sent _ hsent).2
  · intro stream hstream
    have hsent : s.outgoing.sent = some stream.sent := by simp [State.outgoing, hstream]
    exact Prod.mk.inj (hgood.sent _ hsent).1
  · intro hmem
    exact absurd (herrors.2 _ hmem) nofun
  · intro hsize chunks hchunks
    rw [(onData_chunks chunks).1, hchunks]
    exact (decode_encodeMessages hsize).1

/-- Two messages and the end; the stream comes while the first message waits. -/
theorem sentInOrder_two_messages : ∃ s, SentInOrder .base
    [.write { message := [1] } 0, .attachHttp2Stream, .writeDone, .write { message := [] } 1,
      .writeDone, .final 2] s :=
  ⟨_, sentInOrder rfl⟩

end CallStream

end GrpcNode.JsCore
