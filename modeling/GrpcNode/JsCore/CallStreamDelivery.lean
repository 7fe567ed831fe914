import GrpcNode.JsCore.CallStream

/-!
# GrpcNode.JsCore.CallStreamDelivery

How the messages of a call reach its consumer.

A message goes to `push` directly from the `'data'` handler, or it waits in
`unpushedReadMessages` until `_read` pushes it. `Delivery` is the part of the state that
this is about, and `Delivery.Step` says once what a step can do to it; all other steps of
the call stream leave it alone (`step_delivery`). The invariant is `Delivery.Good`: the
pushed messages, those in the queue, and those that the running `'data'` handler still has
to find are together the messages of the received bytes.
-/

namespace GrpcNode.JsCore.CallStream

open GrpcNode.Js

/-! ### The delivering part of a step -/

/-- What the delivery of messages depends on. `stream` tells whether the HTTP/2 stream is
paused, once there is one. -/
structure Delivery where
  stack : List Frame
  decoder : Decoder
  stream : Option Bool
  unpushed : List (Option Buffer)
  pushed : List (Option Buffer)
  received : Buffer
  ended : Bool

def State.delivery (s : State) : Delivery where
  stack := s.stack
  decoder := s.call.decoder
  stream := s.call.http2Stream.map Http2Stream.paused
  unpushed := s.call.unpushedReadMessages
  pushed := s.pushed
  received := s.received
  ended := s.ended

/-- Functions inside a `push` or an `emit`, the innermost first. The `'data'` and the
`'end'` handler are the outermost function when they run, and push directly only while the
queue `u` is empty. -/
inductive InPush (u : List (Option Buffer)) : List Frame → Prop
  | idle : InPush u []
  | tryPush (chunk : Buffer) (readHead : Nat) : u = [] → InPush u [.tryPush chunk readHead]
  | endPush : u = [] → InPush u [.endPush]
  | readPush (nextMessage : Option Buffer) {rest : List Frame} :
      InPush u rest → InPush u (.readPush nextMessage :: rest)
  | cancel {rest : List Frame} : InPush u rest → InPush u (.cancel :: rest)

/-- The functions under way, with the queue and the pause flag. -/
inductive Stacked (u : List (Option Buffer)) (stream : Option Bool) : List Frame → Prop
  | inPush {stack : List Frame} : InPush u stack → Stacked u stream stack
  | read {rest : List Frame} : InPush u rest → Stacked u stream (.read :: rest)
  | pushing (chunk : Buffer) (readHead : Nat) :
      u = [] → Stacked u stream [.data chunk readHead true]
  | holding (chunk : Buffer) (readHead : Nat) :
      stream = some true → Stacked u stream [.data chunk readHead false]

namespace Delivery

/-- What a step can do to the delivery. -/
inductive Step (d : Delivery) : Delivery → Prop
  | same : Step d d
  | attach (paused : Bool) : d.stack = [] → d.stream = none →
      Step d { d with stream := some paused }
  | data (chunk : Buffer) : d.stack = [] → d.stream = some false → d.ended = false →
      Step d { d with received := d.received ++ chunk, stack := [.data chunk 0 true] }
  | dataDone {chunk : Buffer} {readHead : Nat} {canPush : Bool} {rest : List Frame} :
      d.stack = .data chunk readHead canPush :: rest → ¬ readHead < chunk.length →
      Step d { d with stack := rest }
  | dataReads {chunk : Buffer} {readHead readHead' : Nat} {canPush : Bool} {rest : List Frame}
      {decoder : Decoder} : d.stack = .data chunk readHead canPush :: rest →
      readHead < chunk.length →
      d.decoder.pass chunk readHead = (decoder, readHead', none) →
      Step d { d with decoder, stack := .data chunk readHead' canPush :: rest }
  | dataPushes {chunk : Buffer} {readHead readHead' : Nat} {rest : List Frame}
      {decoder : Decoder} {message : Buffer} : d.stack = .data chunk readHead true :: rest →
      readHead < chunk.length →
      d.decoder.pass chunk readHead = (decoder, readHead', some message) →
      Step d { d with
        decoder, pushed := d.pushed ++ [some message], stack := .tryPush chunk readHead' :: rest }
  | dataHolds {chunk : Buffer} {readHead readHead' : Nat} {rest : List Frame}
      {decoder : Decoder} {message : Buffer} : d.stack = .data chunk readHead false :: rest →
      readHead < chunk.length →
      d.decoder.pass chunk readHead = (decoder, readHead', some message) →
      Step d { d with
        decoder := decoder.reset
        unpushed := d.unpushed ++ [some message]
        stack := .data chunk readHead' false :: rest }
  | tryPushReturns {chunk : Buffer} {readHead : Nat} {rest : List Frame} (result : Bool) :
      d.stack = .tryPush chunk readHead :: rest →
      Step d { d with
        decoder := d.decoder.reset
        stream := if result then d.stream else d.stream.map fun _ => true
        stack := .data chunk readHead result :: rest }
  | endPushes : d.stack = [] → d.stream = some false → d.ended = false → d.unpushed = [] →
      Step d { d with ended := true, pushed := d.pushed ++ [none], stack := [.endPush] }
  | endHolds : d.stream = some false → d.unpushed ≠ [] →
      Step d { d with ended := true, unpushed := d.unpushed ++ [none] }
  | endReturns {rest : List Frame} : d.stack = .endPush :: rest → Step d { d with stack := rest }
  | read : (∀ chunk readHead canPush rest, d.stack ≠ .data chunk readHead canPush :: rest) →
      (∀ rest, d.stack ≠ .read :: rest) → d.stream ≠ none →
      Step d { d with stack := .read :: d.stack }
  | readPushes {nextMessage : Option Buffer} {more : List (Option Buffer)} {rest : List Frame} :
      d.stack = .read :: rest → d.unpushed = nextMessage :: more →
      Step d { d with
        unpushed := more
        pushed := d.pushed ++ [nextMessage]
        stack := .readPush nextMessage :: rest }
  | readResumes {rest : List Frame} : d.stack = .read :: rest → d.unpushed = [] →
      Step d { d with stream := d.stream.map fun _ => false, stack := rest }
  | readReturns {nextMessage : Option Buffer} {rest : List Frame} :
      d.stack = .readPush nextMessage :: rest → Step d { d with stack := rest }
  | readContinues {nextMessage : Option Buffer} {rest : List Frame} :
      d.stack = .readPush nextMessage :: rest → Step d { d with stack := .read :: rest }
  | cancel : (∀ chunk readHead canPush rest, d.stack ≠ .data chunk readHead canPush :: rest) →
      (∀ rest, d.stack ≠ .read :: rest) → Step d { d with stack := .cancel :: d.stack }
  | cancelReturns {rest : List Frame} : d.stack = .cancel :: rest → Step d { d with stack := rest }

end Delivery

/-! ### The other functions leave the delivery alone -/

namespace State

variable (s : State)

@[simp] theorem delivery_endCall (status : StatusObject) :
    (s.endCall status).delivery = s.delivery := by
  unfold endCall
  cases s.call.finalStatus <;> rfl

@[simp] theorem delivery_throw (e : JsError) : (s.throw e).delivery = s.delivery := rfl

/-- What keeps the pause flag of the HTTP/2 stream keeps the delivery. -/
theorem delivery_onStream {f : Http2Stream → Http2Stream} (hf : ∀ t, (f t).paused = t.paused) :
    { s with call := s.call.onStream f }.delivery = s.delivery := by
  simp only [delivery, Http2CallStream.onStream, Option.map_map]
  congr 2
  funext t
  exact hf t

@[simp] theorem delivery_resetStream : s.resetStream.delivery = s.delivery :=
  s.delivery_onStream fun _ => rfl

@[simp] theorem delivery_onTrailers (headers : HeaderObject) :
    (s.onTrailers headers).delivery = s.delivery := by
  unfold onTrailers
  dsimp only
  split <;> rfl

@[simp] theorem delivery_write (chunk : WriteObject) (cb : Callback) :
    (s.write chunk cb).delivery = s.delivery := by
  unfold write delivery
  cases h : s.call.http2Stream <;> simp [h, Http2Stream.write]

@[simp] theorem delivery_final (cb : Callback) : (s.final cb).delivery = s.delivery := by
  unfold final delivery
  cases h : s.call.http2Stream <;> simp [h, Http2Stream.endWith]

theorem delivery_writeDone {s s' : State} (h : s.writeDone? = some s') :
    s'.delivery = s.delivery := by
  unfold writeDone? at h
  cases hstream : s.call.http2Stream with
  | none => simp [hstream] at h
  | some stream =>
      rw [hstream, Option.bind_eq_bind, Option.bind_some] at h
      split at h
      · exact absurd h (by simp)
      · obtain rfl := Option.some.inj h
        simp [delivery, hstream]

/-- Attaching the HTTP/2 stream decides whether it starts paused. -/
theorem delivery_attachHttp2Stream (hstack : s.stack = [])
    (hfree : s.call.http2Stream = none ∨ s.call.finalStatus ≠ none) :
    s.delivery.Step s.attachHttp2Stream.delivery := by
  have hattach : ∀ stream : Http2Stream,
      { s with call := { s.call with http2Stream := some stream } }.delivery =
        { s.delivery with stream := some stream.paused } := fun _ => rfl
  have hfinal : ∀ stream, (s.attachFinal stream).delivery =
      { s.delivery with stream := some stream.paused } := by
    intro stream
    unfold attachFinal
    cases s.call.pendingFinalCallback <;> exact hattach _
  unfold attachHttp2Stream
  cases hstatus : s.call.finalStatus with
  | some _ => exact .same
  | none =>
      have hnone : s.call.http2Stream = none := hfree.resolve_right (absurd hstatus)
      have hstream : s.delivery.stream = none := by simp [delivery, hnone]
      dsimp only
      split
      · rw [hfinal]
        exact .attach _ hstack hstream
      · rw [hfinal]
        exact .attach _ hstack hstream
      · rw [delivery_throw, hattach]
        exact .attach _ hstack hstream

/-! ### Cancelling puts a frame on the stack, and nothing else -/

theorem step_cancelWithStatus (hrun : s.canRead = true) (status : Status) (details : String) :
    s.delivery.Step (s.cancelWithStatus status details).delivery := by
  obtain ⟨hdata, hread⟩ := not_looping_of_canRead hrun
  unfold cancelWithStatus
  cases hstatus : s.call.finalStatus with
  | some _ =>
      show s.delivery.Step s.resetStream.delivery
      rw [delivery_resetStream]
      exact .same
  | none =>
      show s.delivery.Step { (s.endCall _).delivery with stack := .cancel :: s.stack }
      rw [delivery_endCall]
      exact .cancel hdata hread

theorem step_onResponse (hstack : s.stack = []) (headers : Headers) :
    s.delivery.Step (s.onResponse headers).delivery := by
  have hcancel := step_cancelWithStatus
    { s with
      responded := true
      call := { s.call with mappedStatusCode := mapHttpStatus (headers.lookup ":status") } }
    (canRead_of_idle hstack) .unknown
  unfold onResponse
  split
  · exact .same
  · exact hcancel _

theorem step_settle (hstack : s.stack = []) (filterStack : ReceiveFilter) (job : Job) :
    s.delivery.Step (s.settle filterStack job).delivery := by
  cases job with
  | receiveMetadata metadata =>
      simp only [settle]
      split
      · exact .same
      · exact step_cancelWithStatus _ (canRead_of_idle hstack) _ _
  | receiveTrailers status =>
      simp only [settle]
      split <;> exact (congrArg s.delivery.Step (s.delivery_endCall _)).mpr .same

/-! ### The functions that deliver -/

theorem stream_of_not_paused (hidle : s.call.http2Stream ≠ none) (h : s.paused = false) :
    s.delivery.stream = some false := by
  obtain ⟨stream, hstream⟩ := Option.ne_none_iff_exists'.mp hidle
  simpa [paused, delivery, hstream] using h

theorem stream_onStream {f : Http2Stream → Http2Stream} {b : Bool} (hf : ∀ t, (f t).paused = b) :
    (s.call.onStream f).http2Stream.map Http2Stream.paused =
      s.delivery.stream.map fun _ => b := by
  simp only [delivery, Http2CallStream.onStream, Option.map_map]
  congr 1
  funext t
  exact hf t

theorem step_dataPass {rest : List Frame} {chunk : Buffer} {readHead : Nat} {canPush : Bool}
    (hstack : s.stack = .data chunk readHead canPush :: rest) :
    s.delivery.Step (s.dataPass rest chunk readHead canPush).delivery := by
  unfold dataPass
  by_cases hlt : readHead < chunk.length
  · rw [if_pos hlt]
    rcases hpass : s.call.decoder.pass chunk readHead with ⟨decoder, readHead', message⟩
    cases message with
    | none => exact .dataReads hstack hlt hpass
    | some message =>
        cases canPush with
        | true => exact .dataPushes hstack hlt hpass
        | false => exact .dataHolds hstack hlt hpass
  · rw [if_neg hlt]
    exact .dataDone hstack hlt

theorem step_tryPushReturns {rest : List Frame} {chunk : Buffer} {readHead : Nat}
    (hstack : s.stack = .tryPush chunk readHead :: rest) (result : Bool) :
    s.delivery.Step (s.tryPushReturns rest chunk readHead result).delivery := by
  have h := Delivery.Step.tryPushReturns (d := s.delivery) result hstack
  cases result with
  | true => exact h
  | false =>
      rw [if_neg Bool.false_ne_true, ← s.stream_onStream (f := Http2Stream.pause) fun _ => rfl] at h
      exact h

theorem step_onEnd (hidle : s.idle = true) (hpaused : s.paused = false) (hended : s.ended = false) :
    s.delivery.Step s.onEnd.delivery := by
  obtain ⟨hstack, hstream⟩ := idle_iff.mp hidle
  have hflowing := s.stream_of_not_paused hstream hpaused
  unfold onEnd
  by_cases hempty : s.call.unpushedReadMessages.length = 0
  · rw [if_pos hempty, hstack]
    exact .endPushes hstack hflowing hended (List.eq_nil_of_length_eq_zero hempty)
  · rw [if_neg hempty]
    exact .endHolds hflowing fun h => hempty (congrArg List.length h)

theorem step_read (hread : s.canRead = true) : s.delivery.Step s.read.delivery := by
  unfold read
  cases hstream : s.call.http2Stream with
  | none =>
      show s.delivery.Step s.delivery
      exact .same
  | some stream =>
      obtain ⟨hdata, hloop⟩ := not_looping_of_canRead hread
      exact .read hdata hloop (by simp [delivery, hstream])

theorem step_readPass {rest : List Frame} (hstack : s.stack = .read :: rest) :
    s.delivery.Step (s.readPass rest).delivery := by
  unfold readPass
  cases hunpushed : s.call.unpushedReadMessages with
  | cons nextMessage more => exact .readPushes hstack hunpushed
  | nil =>
      have h := Delivery.Step.readResumes (d := s.delivery) hstack hunpushed
      rw [← s.stream_onStream (f := Http2Stream.resume) fun _ => rfl] at h
      exact h

end State

/-- **A step of the call stream does to the delivery what `Delivery.Step` allows.** -/
theorem step_delivery {filterStack : ReceiveFilter} {s s' : State} {a : Act}
    (h : step filterStack s a = some s') : s.delivery.Step s'.delivery := by
  have quiet : s'.delivery = s.delivery → s.delivery.Step s'.delivery := by
    intro hsame
    rw [hsame]
    exact .same
  cases step_effect h with
  | attachHttp2Stream hstack hfree => exact s.delivery_attachHttp2Stream hstack hfree
  | onResponse headers hidle _ => exact s.step_onResponse (State.idle_iff.mp hidle).1 headers
  | onTrailers headers _ _ => exact quiet (s.delivery_onTrailers headers)
  | onData chunk hidle hpaused hended =>
      obtain ⟨hstack, hstream⟩ := State.idle_iff.mp hidle
      rw [State.onData, hstack]
      exact .data chunk hstack (s.stream_of_not_paused hstream hpaused) hended
  | onEnd hidle hpaused hended => exact s.step_onEnd hidle hpaused hended
  | onStreamClosed errorCode _ => exact quiet (s.delivery_endCall _)
  | onError _ => exact quiet (s.delivery_endCall _)
  | @settle i job hstack _ =>
      exact State.step_settle { s with jobs := s.jobs.eraseIdx i } hstack filterStack job
  | cancelWithStatus status details hrun => exact s.step_cancelWithStatus hrun status details
  | read hread => exact s.step_read hread
  | write chunk cb _ _ => exact quiet (s.delivery_write chunk cb)
  | final cb _ _ => exact quiet (s.delivery_final cb)
  | writeDone _ hdone => exact quiet (State.delivery_writeDone hdone)
  | dataPass hstack => exact s.step_dataPass hstack
  | readPass hstack => exact s.step_readPass hstack
  | tryPushReturns result hstack => exact s.step_tryPushReturns hstack result
  | endPushReturns _ hstack => exact .endReturns hstack
  | readStops hstack _ => exact .readReturns hstack
  | readGoesOn hstack _ => exact .readContinues hstack
  | @cancelReturns rest hstack =>
      show s.delivery.Step { s.resetStream.delivery with stack := rest }
      rw [State.delivery_resetStream]
      exact .cancelReturns hstack

/-! ### The invariant -/

/-- What the consumer has to get: the messages of the received bytes, and `null` at the
end of the stream. -/
def expected (received : Buffer) (ended : Bool) : List (Option Buffer) :=
  (decode received).map some ++ if ended then [none] else []

/-- The bytes of its chunk that the running `'data'` handler has not read. -/
def unread : List Frame → Buffer
  | [] => []
  | .data chunk readHead _ :: _ | .tryPush chunk readHead :: _ => chunk.drop readHead
  | .endPush :: rest | .read :: rest | .readPush _ :: rest | .cancel :: rest => unread rest

/-- The decoder once the message that is being pushed is done with. -/
def settledDecoder (decoder : Decoder) : List Frame → Decoder
  | [] | .data _ _ _ :: _ => decoder
  | .tryPush _ _ :: _ => decoder.reset
  | .endPush :: rest | .read :: rest | .readPush _ :: rest | .cancel :: rest =>
      settledDecoder decoder rest

theorem InPush.shrink {nextMessage : Option Buffer} {more : List (Option Buffer)}
    {stack : List Frame} (h : InPush (nextMessage :: more) stack) : InPush more stack := by
  induction h with
  | idle => exact .idle
  | tryPush chunk readHead hu => exact absurd hu (List.cons_ne_nil _ _)
  | endPush hu => exact absurd hu (List.cons_ne_nil _ _)
  | readPush message _ ih => exact .readPush message ih
  | cancel _ ih => exact .cancel ih

namespace Delivery

/-- The invariant of the delivery. `toCome` are the messages that the running `'data'`
handler still has to find. -/
structure Good (d : Delivery) (toCome : List Buffer) : Prop where
  wf : (settledDecoder d.decoder d.stack).WF
  run : Transducer.run Progress.step (settledDecoder d.decoder d.stack).progress (unread d.stack) =
    (decodeProgress d.received, toCome)
  messages : d.pushed ++ d.unpushed ++ toCome.map some = expected d.received d.ended
  stacked : Stacked d.unpushed d.stream d.stack
  paused : d.unpushed ≠ [] → d.stream = some true
  attached : ∀ frame ∈ d.stack, frame ≠ .cancel → d.stream ≠ none
  drained : d.ended = true → d.unpushed = [] ∧ toCome = []

theorem initial_good : State.initial.delivery.Good [] where
  wf := Decoder.initial_wf
  run := rfl
  messages := rfl
  stacked := .inPush .idle
  paused := fun h => absurd rfl h
  attached := nofun
  drained := nofun

variable {d d' : Delivery} {toCome : List Buffer}

/-- While the stream flows nothing waits in the queue. -/
theorem Good.unpushed_eq_nil (hd : d.Good toCome) (h : d.stream ≠ some true) :
    d.unpushed = [] := by
  by_contra hne
  exact h (hd.paused hne)

/-- Between two handlers nothing is left to come. -/
theorem Good.toCome_eq_nil (hd : d.Good toCome) (h : unread d.stack = []) : toCome = [] := by
  have hrun := hd.run
  rw [h, Transducer.run_nil] at hrun
  exact (congrArg Prod.snd hrun).symm

/-- The running `'data'` handler is the innermost function. -/
theorem Good.data_frame (hd : d.Good toCome) {chunk : Buffer} {readHead : Nat} {canPush : Bool}
    {rest : List Frame} (h : d.stack = .data chunk readHead canPush :: rest) :
    rest = [] ∧ if canPush then d.unpushed = [] else d.stream = some true := by
  have hstacked := hd.stacked
  rw [h] at hstacked
  cases hstacked with
  | inPush hin => cases hin
  | pushing chunk readHead hu => exact ⟨rfl, hu⟩
  | holding chunk readHead hstream => exact ⟨rfl, hstream⟩

theorem Good.tryPush_frame (hd : d.Good toCome) {chunk : Buffer} {readHead : Nat}
    {rest : List Frame} (h : d.stack = .tryPush chunk readHead :: rest) :
    rest = [] ∧ d.unpushed = [] := by
  have hstacked := hd.stacked
  rw [h] at hstacked
  cases hstacked with
  | inPush hin =>
      cases hin with
      | tryPush chunk readHead hu => exact ⟨rfl, hu⟩

theorem Good.endPush_frame (hd : d.Good toCome) {rest : List Frame}
    (h : d.stack = .endPush :: rest) : rest = [] := by
  have hstacked := hd.stacked
  rw [h] at hstacked
  cases hstacked with
  | inPush hin =>
      cases hin with
      | endPush hu => rfl

theorem Good.read_frame (hd : d.Good toCome) {rest : List Frame} (h : d.stack = .read :: rest) :
    InPush d.unpushed rest := by
  have hstacked := hd.stacked
  rw [h] at hstacked
  cases hstacked with
  | inPush hin => cases hin
  | read hin => exact hin

theorem Good.readPush_frame (hd : d.Good toCome) {nextMessage : Option Buffer}
    {rest : List Frame} (h : d.stack = .readPush nextMessage :: rest) :
    InPush d.unpushed rest := by
  have hstacked := hd.stacked
  rw [h] at hstacked
  cases hstacked with
  | inPush hin =>
      cases hin with
      | readPush message hin => exact hin

theorem Good.cancel_frame (hd : d.Good toCome) {rest : List Frame}
    (h : d.stack = .cancel :: rest) : InPush d.unpushed rest := by
  have hstacked := hd.stacked
  rw [h] at hstacked
  cases hstacked with
  | inPush hin =>
      cases hin with
      | cancel hin => exact hin

/-- Only `cancelWithStatus` can run before there is an HTTP/2 stream. -/
theorem Good.attached_of_head (hd : d.Good toCome) {frame : Frame} {rest : List Frame}
    (h : d.stack = frame :: rest) (hne : frame ≠ .cancel) : d.stream ≠ none :=
  hd.attached frame (by rw [h]; exact List.mem_cons_self) hne

/-- Foreign code runs where something is being pushed or emitted, or nothing runs. -/
theorem Good.inPush (hd : d.Good toCome)
    (hdata : ∀ chunk readHead canPush rest, d.stack ≠ .data chunk readHead canPush :: rest)
    (hread : ∀ rest, d.stack ≠ .read :: rest) : InPush d.unpushed d.stack := by
  rcases hstack : d.stack with _ | ⟨frame, rest⟩
  · exact .idle
  · have hstacked := hd.stacked
    rw [hstack] at hstacked
    cases hstacked with
    | inPush hin => exact hin
    | read hin => exact absurd hstack (hread rest)
    | pushing chunk readHead _ => exact absurd hstack (hdata _ _ _ _)
    | holding chunk readHead _ => exact absurd hstack (hdata _ _ _ _)

/-! ### The invariant is kept -/

/-- Functions start and return: the queue, the decoder and the unread bytes stay. -/
theorem Good.reframe (hd : d.Good toCome) {stack : List Frame} {stream : Option Bool}
    (hunread : unread stack = unread d.stack)
    (hsettled : settledDecoder d.decoder stack = settledDecoder d.decoder d.stack)
    (hstacked : Stacked d.unpushed stream stack)
    (hpaused : d.unpushed ≠ [] → stream = some true)
    (hattached : ∀ frame ∈ stack, frame ≠ .cancel → stream ≠ none) :
    { d with stack, stream }.Good toCome where
  wf := by rw [hsettled]; exact hd.wf
  run := by rw [hsettled, hunread]; exact hd.run
  messages := hd.messages
  stacked := hstacked
  paused := hpaused
  attached := hattached
  drained := hd.drained

/-- A chunk arrives: its messages are to come. -/
theorem Good.data (hd : d.Good toCome) (chunk : Buffer) (hstack : d.stack = [])
    (hstream : d.stream = some false) (hended : d.ended = false) :
    ∃ toCome', { d with
      received := d.received ++ chunk, stack := [.data chunk 0 true] }.Good toCome' := by
  have hrun := hd.run
  have hwf := hd.wf
  have hpushed := hd.messages
  rw [hstack] at hrun hwf
  obtain ⟨hprogress, rfl⟩ : d.decoder.progress = decodeProgress d.received ∧ [] = toCome := by
    simpa [unread, settledDecoder] using hrun
  refine ⟨(Transducer.run Progress.step (decodeProgress d.received) chunk).2, hwf, ?_, ?_, ?_,
    hd.paused, fun _ _ _ => by simp [hstream], fun h => absurd (hended.symm.trans h) nofun⟩
  · show Transducer.run Progress.step d.decoder.progress chunk = _
    rw [hprogress, decodeProgress_append]
  · replace hpushed : d.pushed ++ d.unpushed = (decode d.received).map some := by
      simpa [expected, hended] using hpushed
    simp [expected, hended, decode_append, ← hpushed]
  · exact .pushing chunk 0 (hd.unpushed_eq_nil (by simp [hstream]))

/-- The three outcomes of a pass have in common how the framing goes on. -/
theorem Good.pass (hd : d.Good toCome) {chunk : Buffer} {readHead readHead' : Nat}
    {canPush : Bool} {rest : List Frame} {decoder : Decoder} {message : Option Buffer}
    (hstack : d.stack = .data chunk readHead canPush :: rest) (hlt : readHead < chunk.length)
    (hpass : d.decoder.pass chunk readHead = (decoder, readHead', message)) :
    ∃ toCome', (decoder.settled message).WF ∧
      Transducer.run Progress.step (decoder.settled message).progress (chunk.drop readHead') =
        (decodeProgress d.received, toCome') ∧
      toCome = message.toList ++ toCome' := by
  have hrun := hd.run
  have hwf := hd.wf
  rw [hstack] at hrun hwf
  change d.decoder.WF at hwf
  change Transducer.run Progress.step d.decoder.progress (chunk.drop readHead) = _ at hrun
  rw [Decoder.run_of_pass hwf hlt hpass, Prod.mk.injEq] at hrun
  refine ⟨(Transducer.run Progress.step (decoder.settled message).progress
    (chunk.drop readHead')).2, Decoder.wf_of_pass hwf hlt hpass, ?_, hrun.2.symm⟩
  rw [← hrun.1]

/-- The handler goes on with what `push` said: it pushes directly as long as nothing is held
back, and the stream is paused before anything is. -/
theorem Good.tryPushReturns (hd : d.Good toCome) {chunk : Buffer} {readHead : Nat}
    (hstack : d.stack = [.tryPush chunk readHead]) (result : Bool) :
    { d with
      decoder := d.decoder.reset
      stream := if result then d.stream else d.stream.map fun _ => true
      stack := [.data chunk readHead result] }.Good toCome := by
  obtain ⟨-, hempty⟩ := hd.tryPush_frame hstack
  have hattached := hd.attached_of_head hstack nofun
  have hrun := hd.run
  have hwf := hd.wf
  rw [hstack] at hrun hwf
  cases result with
  | true =>
      exact ⟨hwf, hrun, hd.messages, .pushing _ _ hempty, hd.paused, fun _ _ _ => hattached,
        hd.drained⟩
  | false =>
      obtain ⟨b, hb⟩ := Option.ne_none_iff_exists'.mp hattached
      have hpaused : (if false then d.stream else d.stream.map fun _ => true) = some true := by
        simp [hb]
      exact ⟨hwf, hrun, hd.messages, .holding _ _ hpaused, fun _ => hpaused,
        fun _ _ _ => by simp [hb], hd.drained⟩

/-- At the end of the stream nothing waits, so the `null` comes last. -/
theorem Good.endPushes (hd : d.Good []) (hstack : d.stack = []) (hstream : d.stream = some false)
    (hended : d.ended = false) (hempty : d.unpushed = []) :
    { d with ended := true, pushed := d.pushed ++ [none], stack := [.endPush] }.Good [] := by
  have hrun := hd.run
  have hwf := hd.wf
  have hmessages := hd.messages
  rw [hstack] at hrun hwf
  refine ⟨hwf, hrun, ?_, .inPush (.endPush hempty), hd.paused, fun _ _ _ => by simp [hstream],
    fun _ => ⟨hempty, rfl⟩⟩
  simp only [expected, hended, hempty] at hmessages ⊢
  simpa using hmessages

/-- `_read` pushes the head of the queue. -/
theorem Good.readPushes (hd : d.Good toCome) {nextMessage : Option Buffer}
    {more : List (Option Buffer)} {rest : List Frame} (hstack : d.stack = .read :: rest)
    (hunpushed : d.unpushed = nextMessage :: more) :
    { d with
      unpushed := more
      pushed := d.pushed ++ [nextMessage]
      stack := .readPush nextMessage :: rest }.Good toCome := by
  have hin := hd.read_frame hstack
  have hpaused := hd.paused (by simp [hunpushed])
  have hrun := hd.run
  have hwf := hd.wf
  rw [hunpushed] at hin
  rw [hstack] at hrun hwf
  refine ⟨hwf, hrun, ?_, .inPush (.readPush _ hin.shrink), fun _ => hpaused,
    fun _ _ _ => by simp [hpaused], fun h => absurd (hunpushed.symm.trans (hd.drained h).1) nofun⟩
  rw [← hd.messages, hunpushed]
  simp

/-- **The invariant is kept by every step.** -/
theorem Good.step (hd : d.Good toCome) (h : d.Step d') : ∃ toCome', d'.Good toCome' := by
  cases h with
  | same => exact ⟨toCome, hd⟩
  | attach paused hstack hstream =>
      -- Nothing has been received, so nothing waits.
      have hempty := hd.unpushed_eq_nil (by simp [hstream])
      exact ⟨toCome, hd.reframe rfl rfl (by rw [hstack]; exact .inPush .idle)
        (fun hne => absurd hempty hne) fun _ _ _ => Option.some_ne_none paused⟩
  | data chunk hstack hstream hended => exact hd.data chunk hstack hstream hended
  | dataDone hstack hge =>
      -- The chunk is read to its end, and what was to come has been found.
      obtain ⟨rfl, -⟩ := hd.data_frame hstack
      have hrun := hd.run
      have hwf := hd.wf
      rw [hstack] at hrun hwf
      rw [unread, List.drop_eq_nil_of_le (Nat.le_of_not_lt hge)] at hrun
      exact ⟨toCome, hwf, hrun, hd.messages, .inPush .idle, hd.paused, nofun, hd.drained⟩
  | dataReads hstack hlt hpass =>
      obtain ⟨toCome', hwf, hrun, hcome⟩ := hd.pass hstack hlt hpass
      obtain rfl : toCome = toCome' := hcome
      refine ⟨toCome, hwf, hrun, hd.messages, ?_, hd.paused,
        fun _ _ _ => hd.attached_of_head hstack nofun, hd.drained⟩
      obtain ⟨rfl, hcanPush⟩ := hd.data_frame hstack
      rename_i canPush _
      cases canPush with
      | true => exact .pushing _ _ hcanPush
      | false => exact .holding _ _ hcanPush
  | dataPushes hstack hlt hpass =>
      obtain ⟨toCome', hwf, hrun, rfl⟩ := hd.pass hstack hlt hpass
      obtain ⟨rfl, hempty⟩ := hd.data_frame hstack
      rw [if_pos rfl] at hempty
      refine ⟨toCome', hwf, hrun, ?_, .inPush (.tryPush _ _ hempty), hd.paused,
        fun _ _ _ => hd.attached_of_head hstack nofun, fun h => absurd (hd.drained h).2 nofun⟩
      -- The queue is empty, so the message comes right after those pushed before.
      rw [← hd.messages]
      simp [hempty]
  | dataHolds hstack hlt hpass =>
      obtain ⟨toCome', hwf, hrun, rfl⟩ := hd.pass hstack hlt hpass
      -- `push` has returned `false` in this handler, so the stream is paused.
      obtain ⟨rfl, hpaused⟩ := hd.data_frame hstack
      rw [if_neg Bool.false_ne_true] at hpaused
      refine ⟨toCome', hwf, hrun, ?_, .holding _ _ hpaused, fun _ => hpaused,
        fun _ _ _ => by simp [hpaused], fun h => absurd (hd.drained h).2 nofun⟩
      rw [← hd.messages]
      simp
  | tryPushReturns result hstack =>
      obtain ⟨rfl, -⟩ := hd.tryPush_frame hstack
      exact ⟨toCome, hd.tryPushReturns hstack result⟩
  | endPushes hstack hstream hended hempty =>
      obtain rfl := hd.toCome_eq_nil (by rw [hstack]; rfl)
      exact ⟨[], hd.endPushes hstack hstream hended hempty⟩
  -- `'end'` comes only while the stream flows, when the queue is empty.
  | endHolds hstream hne => exact absurd (hd.unpushed_eq_nil (by simp [hstream])) hne
  | endReturns hstack =>
      obtain rfl := hd.endPush_frame hstack
      exact ⟨toCome, hd.reframe (by rw [hstack]; rfl) (by rw [hstack]; rfl) (.inPush .idle)
        hd.paused nofun⟩
  | read hdata hread hstream =>
      exact ⟨toCome, hd.reframe rfl rfl (.read (hd.inPush hdata hread)) hd.paused
        fun _ _ _ => hstream⟩
  | readPushes hstack hunpushed => exact ⟨toCome, hd.readPushes hstack hunpushed⟩
  | readResumes hstack hempty =>
      have hattached := hd.attached_of_head hstack nofun
      exact ⟨toCome, hd.reframe (by rw [hstack]; rfl) (by rw [hstack]; rfl)
        (.inPush (hd.read_frame hstack)) (fun hne => absurd hempty hne)
        fun _ _ _ => by simpa using hattached⟩
  | readReturns hstack =>
      exact ⟨toCome, hd.reframe (by rw [hstack]; rfl) (by rw [hstack]; rfl)
        (.inPush (hd.readPush_frame hstack)) hd.paused
        fun _ _ _ => hd.attached_of_head hstack nofun⟩
  | readContinues hstack =>
      exact ⟨toCome, hd.reframe (by rw [hstack]; rfl) (by rw [hstack]; rfl)
        (.read (hd.readPush_frame hstack)) hd.paused
        fun _ _ _ => hd.attached_of_head hstack nofun⟩
  | cancel hdata hread =>
      refine ⟨toCome, hd.reframe rfl rfl (.inPush (.cancel (hd.inPush hdata hread))) hd.paused ?_⟩
      intro frame hmem hne
      exact hd.attached frame ((List.mem_cons.mp hmem).resolve_left hne) hne
  | cancelReturns hstack =>
      refine ⟨toCome, hd.reframe (by rw [hstack]; rfl) (by rw [hstack]; rfl)
        (.inPush (hd.cancel_frame hstack)) hd.paused ?_⟩
      intro frame hmem hne
      exact hd.attached frame (by rw [hstack]; exact .tail _ hmem) hne

/-- Once the stream has ended, everything is pushed. -/
theorem Good.pushed_of_ended (hd : d.Good toCome) (h : d.ended = true) :
    d.pushed = expected d.received d.ended := by
  obtain ⟨hempty, hcome⟩ := hd.drained h
  simpa [hempty, hcome] using hd.messages

theorem Step.ended_mono (h : d.Step d') (hended : d.ended = true) : d'.ended = true := by
  cases h <;> first | exact hended | rfl

end Delivery

/-- The invariant along a run. -/
def State.Good (s : State) : Prop := ∃ toCome, s.delivery.Good toCome

theorem State.Good.step {filterStack : ReceiveFilter} {s s' : State} {a : Act} (hs : s.Good)
    (h : step filterStack s a = some s') : s'.Good := by
  obtain ⟨toCome, hgood⟩ := hs
  exact hgood.step (step_delivery h)

/-! ### Messages reach the consumer in order -/

/-- What the consumer sees of the messages: they are pushed in order, none is skipped or
pushed twice, and `null` comes last; those that wait in the queue are the next ones; unless
a handler is at work, all those received are pushed or wait; and while some wait, the
HTTP/2 stream is paused. -/
structure Delivered (s : State) : Prop where
  inOrder : s.pushed <+: expected s.received s.ended
  next : s.pushed ++ s.call.unpushedReadMessages <+: expected s.received s.ended
  complete : s.stack = [] →
    s.pushed ++ s.call.unpushedReadMessages = expected s.received s.ended
  held : s.call.unpushedReadMessages ≠ [] → s.paused = true

theorem State.Good.delivered {s : State} (hs : s.Good) : Delivered s := by
  obtain ⟨toCome, hgood⟩ := hs
  have hmessages : s.pushed ++ s.call.unpushedReadMessages ++ toCome.map some =
      expected s.received s.ended := hgood.messages
  refine ⟨(List.prefix_append _ _).trans ⟨_, hmessages⟩, ⟨_, hmessages⟩, ?_, ?_⟩
  · intro hstack
    have hcome : toCome = [] :=
      hgood.toCome_eq_nil (by rw [show s.delivery.stack = [] from hstack]; rfl)
    simpa [hcome] using hmessages
  · intro hne
    have hpaused : s.call.http2Stream.map Http2Stream.paused = some true := hgood.paused hne
    obtain ⟨stream, hstream, htrue⟩ := Option.map_eq_some_iff.mp hpaused
    simpa [State.paused, hstream] using htrue

/-- **Backpressure loses, repeats and reorders nothing**, in whatever order data, the end
of the stream and reads follow each other, and whatever a `push` returns or calls. -/
theorem delivered_always (filterStack : ReceiveFilter) (acts : List Act) :
    Runs.Always (step filterStack) Delivered State.initial acts := by
  have hgood : Runs.Always (step filterStack) State.Good State.initial acts :=
    Runs.always_of_invariant (fun s a s' hs h => hs.step h) ⟨[], Delivery.initial_good⟩ acts
  exact hgood.mono fun s hs => hs.delivered

end GrpcNode.JsCore.CallStream
