import GrpcNode.JsCore.CallStreamDelivery
import GrpcNode.JsCore.CallStreamTrailers
import GrpcNode.JsCore.Frames

/-!
# GrpcNode.JsCore.CallStreamTruncation

Successful calls and the bytes they have received.

The `'end'` handler does not ask the decoder whether a message is under way, nothing looks
at `readCompressFlag`, and the `'trailers'` handler looks at neither. So any bytes can be
received by a call that ends with `OK` and pushes the end of its messages (`succeeds`). They
are complete frames precisely if the handlers would have found them to be such, had they asked
(`successful_iff`).
-/

namespace GrpcNode.JsCore.CallStream

open GrpcNode.Js

/-- A status `OK` has been emitted, and the end of the messages pushed. -/
structure Successful (s : State) : Prop where
  ok : ∃ status ∈ s.statuses, status.code = .ok
  ended : none ∈ s.pushed

/-- The `'data'` handler reads its chunk to the end when every `push` asks for more. -/
theorem data_returns (filterStack : ReceiveFilter) (chunk : Buffer) :
    ∀ (n readHead : Nat) (s : State), s.stack = [.data chunk readHead true] →
      s.call.decoder.WF → chunk.length - readHead ≤ n →
      ∃ acts decoder pushed, Runs.exec (step filterStack) s acts =
        some { s with call := { s.call with decoder }, pushed, stack := [] } := by
  intro n
  -- The induction is on a bound for the bytes that are left; every pass reads one at least.
  induction n with
  | zero =>
      intro readHead s hstack _ hleft
      have hge : ¬ readHead < chunk.length := by omega
      refine ⟨[.advance], s.call.decoder, s.pushed, ?_⟩
      simp [Runs.exec_cons, step, hstack, State.dataPass, hge]
  | succ n ih =>
      intro readHead s hstack hwf hleft
      by_cases hlt : readHead < chunk.length
      · have hspec := Decoder.pass_spec hwf hlt
        rcases hpass : s.call.decoder.pass chunk readHead with ⟨decoder, readHead', message⟩
        rw [hpass] at hspec
        have hadv : readHead < readHead' := hspec.advances
        cases message with
        | none =>
            have hadvance : step filterStack s .advance = some { s with
                call := { s.call with decoder }, stack := [.data chunk readHead' true] } := by
              simp [step, hstack, State.dataPass, hlt, hpass]
            obtain ⟨acts, decoder', pushed, hrun⟩ := ih readHead' { s with
              call := { s.call with decoder }, stack := [.data chunk readHead' true] }
              rfl hspec.wf (by omega)
            refine ⟨.advance :: acts, decoder', pushed, ?_⟩
            rw [Runs.exec_cons_of_step hadvance acts]
            exact hrun
        | some message =>
            have hadvance : step filterStack s .advance = some { s with
                call := { s.call with decoder }
                pushed := s.pushed ++ [some message]
                stack := [.tryPush chunk readHead'] } := by
              simp [step, hstack, State.dataPass, hlt, hpass]
            obtain ⟨acts, decoder', pushed, hrun⟩ := ih readHead' { s with
              call := { s.call with decoder := decoder.reset }
              pushed := s.pushed ++ [some message]
              stack := [.data chunk readHead' true] } rfl hspec.wf (by omega)
            refine ⟨.advance :: .pushReturns true :: acts, decoder', pushed, ?_⟩
            rw [Runs.exec_cons_of_step hadvance]
            exact hrun
      · refine ⟨[.advance], s.call.decoder, s.pushed, ?_⟩
        simp [Runs.exec_cons, step, hstack, State.dataPass, hlt]

/-- The state of a call whose consumer has asked for messages and whose HTTP/2 stream is
attached. -/
def flowing : State := State.initial.read.attachHttp2Stream

/-- The trailers `okTrailers` have a status, and its code is `OK`. -/
theorem trailersStatus_okTrailers : ∃ status,
    trailersStatus .unknown okTrailers = .ok status ∧ status.code = .ok := by
  have hcode : (trailersStatus .unknown okTrailers).map StatusObject.code = .ok .ok := by
    decide +kernel
  cases hstatus : trailersStatus .unknown okTrailers with
  | error e =>
      rw [hstatus] at hcode
      exact absurd hcode nofun
  | ok status =>
      rw [hstatus] at hcode
      exact ⟨status, rfl, Except.ok.inj hcode⟩

/-- After the last chunk come the end and trailers with the status `OK`. -/
theorem ends_successfully (received : Buffer) (decoder : Decoder) (pushed : List (Option Buffer)) :
    ∃ s', Runs.exec (step .base)
        { flowing with received, call := { flowing.call with decoder }, pushed }
        [.onEnd, .pushReturns true, .onTrailers okTrailers, .settle 0] = some s' ∧
      s'.received = received ∧ Successful s' := by
  obtain ⟨status, hstatus, hok⟩ := trailersStatus_okTrailers
  have hend : ∀ acts, Runs.exec (step .base)
      { flowing with received, call := { flowing.call with decoder }, pushed }
      (.onEnd :: .pushReturns true :: .onTrailers okTrailers :: acts) =
        Runs.exec (step .base) (State.onTrailers { flowing with
          received
          call := { flowing.call with decoder }
          pushed := pushed ++ [none]
          ended := true } okTrailers) acts := fun _ => rfl
  rw [hend, State.onTrailers]
  simp only [show flowing.call.mappedStatusCode = .unknown from rfl, hstatus]
  refine ⟨_, rfl, rfl, ⟨status, ?_, hok⟩, ?_⟩
  · exact List.mem_singleton_self status
  · exact List.mem_append_right _ (List.mem_singleton_self _)

/-- **Any bytes are good enough for a successful call.** -/
theorem succeeds (bytes : Buffer) : ∃ acts s, Runs.exec (step .base) State.initial acts = some s ∧
    s.received = bytes ∧ Successful s := by
  have hstart : ∀ acts, Runs.exec (step .base) State.initial
      (.read :: .attachHttp2Stream :: .onData bytes :: acts) =
        Runs.exec (step .base) (flowing.onData bytes) acts := fun _ => rfl
  obtain ⟨acts, decoder, pushed, hrun⟩ := data_returns .base bytes bytes.length 0
    (flowing.onData bytes) rfl Decoder.initial_wf (Nat.le_refl _)
  obtain ⟨s, hs, hreceived, hsuccess⟩ := ends_successfully bytes decoder pushed
  refine ⟨.read :: .attachHttp2Stream :: .onData bytes :: (acts ++
    [.onEnd, .pushReturns true, .onTrailers okTrailers, .settle 0]), s, ?_, hreceived, hsuccess⟩
  rw [hstart]
  rw [Runs.exec_append, hrun]
  exact hs

/-! ### What has come -/

/-- The bytes of the `'data'` events, and whether the `'end'` event has come. -/
def State.input (s : State) : Buffer × Bool := (s.received, s.ended)

/-- What an action adds to them. -/
def Act.bytes : Act → Buffer
  | .onData chunk => chunk
  | _ => []

namespace State

variable (s : State)

theorem input_of_delivery {s s' : State} (h : s'.delivery = s.delivery) : s'.input = s.input :=
  congrArg (fun d : Delivery => (d.received, d.ended)) h

theorem input_cancelWithStatus (status : Status) (details : String) :
    (s.cancelWithStatus status details).input = s.input := by
  unfold cancelWithStatus
  cases s.call.finalStatus with
  | none =>
      show (s.endCall _).input = s.input
      exact input_of_delivery (s.delivery_endCall _)
  | some _ => rfl

theorem input_onResponse (headers : Headers) : (s.onResponse headers).input = s.input := by
  unfold onResponse
  split
  · rfl
  · exact input_cancelWithStatus _ _ _

theorem input_settle (filterStack : ReceiveFilter) (job : Job) :
    (s.settle filterStack job).input = s.input := by
  cases job with
  | receiveMetadata metadata =>
      simp only [settle]
      split
      · rfl
      · exact s.input_cancelWithStatus _ _
  | receiveTrailers status =>
      simp only [settle]
      split <;> exact input_of_delivery (s.delivery_endCall _)

theorem input_attachHttp2Stream : s.attachHttp2Stream.input = s.input := by
  unfold attachHttp2Stream
  split
  · rfl
  · dsimp only
    split <;> rfl

theorem input_read : s.read.input = s.input := by
  unfold read
  split <;> rfl

theorem input_dataPass (rest : List Frame) (chunk : Buffer) (readHead : Nat) (canPush : Bool) :
    (s.dataPass rest chunk readHead canPush).input = s.input := by
  unfold dataPass
  split
  · split
    · rfl
    · split <;> rfl
  · rfl

theorem input_readPass (rest : List Frame) : (s.readPass rest).input = s.input := by
  unfold readPass
  split <;> rfl

theorem input_onEnd : s.onEnd.input = (s.received, true) := by
  unfold onEnd
  split <;> rfl

end State

theorem step_input {filterStack : ReceiveFilter} {s s' : State} {a : Act}
    (h : step filterStack s a = some s') :
    s'.received = s.received ++ a.bytes ∧ s'.ended = (s.ended || decide (a = .onEnd)) := by
  have quiet : s'.input = s.input → a.bytes = [] → decide (a = .onEnd) = false →
      s'.received = s.received ++ a.bytes ∧ s'.ended = (s.ended || decide (a = .onEnd)) := by
    intro hsame hbytes hne
    obtain ⟨hreceived, hended⟩ := Prod.mk.inj hsame
    rw [hbytes, List.append_nil, hne, Bool.or_false]
    exact ⟨hreceived, hended⟩
  cases step_effect h with
  | attachHttp2Stream _ _ => exact quiet s.input_attachHttp2Stream rfl rfl
  | onResponse headers _ _ => exact quiet (s.input_onResponse headers) rfl rfl
  | onTrailers headers _ _ =>
      exact quiet (State.input_of_delivery (s.delivery_onTrailers headers)) rfl rfl
  | onData chunk _ _ _ => exact ⟨rfl, by simp [State.onData]⟩
  | onEnd _ _ _ =>
      obtain ⟨hreceived, hended⟩ := Prod.mk.inj s.input_onEnd
      exact ⟨hreceived.trans (List.append_nil _).symm, by rw [hended]; simp⟩
  | onStreamClosed errorCode _ =>
      exact quiet (State.input_of_delivery (s.delivery_endCall _)) rfl rfl
  | onError _ => exact quiet (State.input_of_delivery (s.delivery_endCall _)) rfl rfl
  | settle _ _ => exact quiet (State.input_settle _ filterStack _) rfl rfl
  | cancelWithStatus status details _ =>
      exact quiet (s.input_cancelWithStatus status details) rfl rfl
  | read _ => exact quiet s.input_read rfl rfl
  | write chunk cb _ _ => exact quiet (State.input_of_delivery (s.delivery_write chunk cb)) rfl rfl
  | final cb _ _ => exact quiet (State.input_of_delivery (s.delivery_final cb)) rfl rfl
  | writeDone _ hdone =>
      exact quiet (State.input_of_delivery (State.delivery_writeDone hdone)) rfl rfl
  | dataPass _ => exact quiet (s.input_dataPass _ _ _ _) rfl rfl
  | readPass _ => exact quiet (s.input_readPass _) rfl rfl
  | tryPushReturns result _ => exact quiet rfl rfl rfl
  | endPushReturns _ _ => exact quiet rfl rfl rfl
  | readStops _ _ => exact quiet rfl rfl rfl
  | readGoesOn _ _ => exact quiet rfl rfl rfl
  | cancelReturns _ => exact quiet rfl rfl rfl

/-! ### Complete frames -/

/-- What the handlers could check: the `'data'` handler, that every flag byte it reads is 0, and
the `'end'` handler, that no message is under way. -/
structure Checked (s : State) (a : Act) : Prop where
  uncompressed : ∀ chunk, a = .onData chunk → s.call.decoder.progress.FlagsClear chunk
  noData : a = .onEnd → s.call.decoder.readState = .noData

/-- The frames so far are not compressed, and the last one was complete when the stream ended. -/
structure FramedSoFar (s : State) : Prop where
  uncompressed : Decoder.initial.progress.FlagsClear s.received
  noData : s.ended = true → (decodeProgress s.received).readState = .noData

/-- Between two events the decoder is where the received bytes bring it. -/
theorem State.Good.progress_eq {s : State} (hs : s.Good) (hstack : s.stack = []) :
    s.call.decoder.progress = decodeProgress s.received := by
  obtain ⟨toCome, hgood⟩ := hs
  have hrun := hgood.run
  rw [show s.delivery.stack = [] from hstack, unread, settledDecoder, Transducer.run_nil] at hrun
  exact congrArg Prod.fst hrun

theorem framedSoFar_onData {filterStack : ReceiveFilter} {s s' : State} {chunk : Buffer}
    (hs : s.Good) (hframed : FramedSoFar s) (h : step filterStack s (.onData chunk) = some s') :
    FramedSoFar s' ↔ s.call.decoder.progress.FlagsClear chunk := by
  obtain ⟨hreceived, hended⟩ := step_input h
  obtain ⟨⟨hidle, -, hgoing⟩, -⟩ := Runs.when_eq_some.mp h
  have hflags : Decoder.initial.progress.FlagsClear s'.received ↔
      s.call.decoder.progress.FlagsClear chunk := by
    rw [hreceived, Act.bytes, Progress.flagsClear_append,
      hs.progress_eq (State.idle_iff.mp hidle).1]
    exact and_iff_right hframed.uncompressed
  have hgoing' : s'.ended = false := by
    rw [hended]
    simpa using hgoing
  constructor
  · intro hframed'
    exact hflags.mp hframed'.uncompressed
  · intro hclear
    exact ⟨hflags.mpr hclear, fun htrue => absurd (hgoing'.symm.trans htrue) Bool.false_ne_true⟩

theorem framedSoFar_onEnd {filterStack : ReceiveFilter} {s s' : State} (hs : s.Good)
    (hframed : FramedSoFar s) (h : step filterStack s .onEnd = some s') :
    FramedSoFar s' ↔ s.call.decoder.readState = .noData := by
  obtain ⟨hreceived, hended⟩ := step_input h
  obtain ⟨⟨hidle, -, -⟩, -⟩ := Runs.when_eq_some.mp h
  rw [show Act.onEnd.bytes = [] from rfl, List.append_nil] at hreceived
  have hstate : (decodeProgress s'.received).readState = s.call.decoder.readState := by
    rw [hreceived, ← hs.progress_eq (State.idle_iff.mp hidle).1]
    rfl
  constructor
  · intro hframed'
    refine hstate.symm.trans (hframed'.noData ?_)
    rw [hended]
    simp
  · intro hnoData
    refine ⟨?_, fun _ => hstate.trans hnoData⟩
    rw [hreceived]
    exact hframed.uncompressed

theorem framedSoFar_step {filterStack : ReceiveFilter} {s s' : State} {a : Act} (hs : s.Good)
    (hframed : FramedSoFar s) (h : step filterStack s a = some s') :
    FramedSoFar s' ↔ Checked s a := by
  by_cases hdata : ∃ chunk, a = .onData chunk
  · obtain ⟨chunk, rfl⟩ := hdata
    rw [framedSoFar_onData hs hframed h]
    constructor
    · intro hclear
      refine ⟨fun other hother => ?_, by simp⟩
      rwa [← Act.onData.inj hother]
    · intro hchecked
      exact hchecked.uncompressed chunk rfl
  · have hchunks : ∀ chunk, a = .onData chunk → s.call.decoder.progress.FlagsClear chunk :=
      fun chunk ha => absurd ⟨chunk, ha⟩ hdata
    by_cases hend : a = .onEnd
    · subst hend
      rw [framedSoFar_onEnd hs hframed h]
      constructor
      · intro hnoData
        exact ⟨hchunks, fun _ => hnoData⟩
      · intro hchecked
        exact hchecked.noData rfl
    · -- The other actions bring neither bytes nor the end.
      obtain ⟨hreceived, hended⟩ := step_input h
      have hbytes : a.bytes = [] := by
        cases a <;> first | rfl | exact absurd ⟨_, rfl⟩ hdata
      rw [hbytes, List.append_nil] at hreceived
      rw [decide_eq_false hend, Bool.or_false] at hended
      refine iff_of_true ⟨?_, fun htrue => ?_⟩ ⟨hchunks, fun ha => absurd ha hend⟩
      · rw [hreceived]
        exact hframed.uncompressed
      · rw [hreceived]
        exact hframed.noData (hended.symm.trans htrue)

theorem always_framedSoFar_iff (filterStack : ReceiveFilter) (acts : List Act) :
    Runs.Always (step filterStack) FramedSoFar State.initial acts ↔
      Runs.Guarded (step filterStack) Checked State.initial acts :=
  Runs.always_iff_guarded (J := State.Good) (fun _ _ _ hs hframed h => framedSoFar_step hs hframed h)
    (fun _ _ _ hs _ _ h => hs.step h) ⟨[], Delivery.initial_good⟩ ⟨trivial, nofun⟩

/-- What has come stays, and nothing comes after the end. -/
theorem FramedSoFar.of_exec {filterStack : ReceiveFilter} {acts : List Act} {s t : State}
    (h : Runs.exec (step filterStack) s acts = some t) (hframed : FramedSoFar t) :
    FramedSoFar s := by
  have hgrows : ∃ more, t.received = s.received ++ more ∧
      (s.ended = true → more = [] ∧ t.ended = true) := by
    refine Runs.exec_invariant (P := fun u => ∃ more, u.received = s.received ++ more ∧
      (s.ended = true → more = [] ∧ u.ended = true)) ?_
      ⟨[], (List.append_nil _).symm, fun hended => ⟨rfl, hended⟩⟩ h
    rintro u a u' ⟨more, hmore, hlast⟩ hstep
    obtain ⟨hreceived, hended⟩ := step_input hstep
    refine ⟨more ++ a.bytes, by rw [hreceived, hmore, List.append_assoc], fun hs => ?_⟩
    obtain ⟨rfl, hu⟩ := hlast hs
    refine ⟨?_, by rw [hended, hu, Bool.true_or]⟩
    cases a with
    | onData chunk =>
        obtain ⟨⟨-, -, hgoing⟩, -⟩ := Runs.when_eq_some.mp hstep
        simp [hu] at hgoing
    | _ => rfl
  obtain ⟨more, hmore, hlast⟩ := hgrows
  refine ⟨?_, fun hended => ?_⟩
  · have hflags := hframed.uncompressed
    rw [hmore, Progress.flagsClear_append] at hflags
    exact hflags.1
  · obtain ⟨rfl, ht⟩ := hlast hended
    rw [← List.append_nil s.received, ← hmore]
    exact hframed.noData ht

/-- A successful call has had the end of its stream. -/
theorem Successful.ended_eq {s : State} (hs : s.Good) (h : Successful s) : s.ended = true := by
  have hmem : none ∈ expected s.received s.ended := hs.delivered.inOrder.subset h.ended
  cases hended : s.ended with
  | true => rfl
  | false =>
      rw [hended, expected] at hmem
      simp at hmem

/-- **When successful calls have received complete frames.** For every run that has brought a call
to its `OK` and to the end of its messages, the received bytes are a concatenation of complete frames
that are not compressed, if and only if every compressed flag was 0 and the `'end'` event has come
between two messages. -/
theorem successful_iff {filterStack : ReceiveFilter} {acts : List Act} {s : State}
    (hs : Runs.exec (step filterStack) State.initial acts = some s) (hsuccess : Successful s) :
    Framed s.received ↔ Runs.Guarded (step filterStack) Checked State.initial acts := by
  have hgood : s.Good := Runs.exec_invariant (P := State.Good) (fun _ _ _ hs h => hs.step h)
    ⟨[], Delivery.initial_good⟩ hs
  have hended := hsuccess.ended_eq hgood
  rw [← always_framedSoFar_iff, framed_iff_complete]
  constructor
  · intro hcomplete
    refine Runs.always_iff_replay.mpr ?_
    rintro pre t ⟨rest, rfl⟩ ht
    rw [Runs.exec_append, ht] at hs
    exact .of_exec hs ⟨hcomplete.uncompressed, fun _ => hcomplete.noData⟩
  · intro halways
    obtain ⟨huncompressed, hnoData⟩ := halways.last hs
    exact ⟨huncompressed, hnoData hended⟩

/-- One message that is not compressed, and then the end. -/
theorem successful_iff_message : ∃ s, Runs.exec (step .base) State.initial
      ([.read, .attachHttp2Stream, .onData [0, 0, 0, 0, 1, 7], .advance, .advance, .advance,
        .pushReturns true, .advance] ++
      [.onEnd, .pushReturns true, .onTrailers okTrailers, .settle 0]) = some s ∧
    s.received = [0, 0, 0, 0, 1, 7] ∧ Successful s ∧
    (Framed s.received ↔ Runs.Guarded (step .base) Checked State.initial
      ([.read, .attachHttp2Stream, .onData [0, 0, 0, 0, 1, 7], .advance, .advance, .advance,
        .pushReturns true, .advance] ++
      [.onEnd, .pushReturns true, .onTrailers okTrailers, .settle 0])) := by
  obtain ⟨s, hs, hreceived, hsuccess⟩ := ends_successfully [0, 0, 0, 0, 1, 7]
    (Decoder.initial.onData [0, 0, 0, 0, 1, 7]).1 [some [7]]
  exact ⟨s, hs, hreceived, hsuccess, successful_iff hs hsuccess⟩

/-- A call can receive these bytes and be successful, and they are not complete frames. -/
def SucceedsUnframed (bytes : Buffer) : Prop :=
  ∃ acts s, Runs.exec (step .base) State.initial acts = some s ∧ s.received = bytes ∧
    Successful s ∧ ¬ Framed s.received

/-- Any bytes that are not complete will do. -/
theorem succeedsUnframed_iff {bytes : Buffer} : SucceedsUnframed bytes ↔ ¬ Complete bytes := by
  rw [← framed_iff_complete]
  constructor
  · rintro ⟨acts, s, -, rfl, -, hframed⟩
    exact hframed
  · intro hframed
    obtain ⟨acts, s, hs, rfl, hsuccess⟩ := succeeds bytes
    exact ⟨acts, s, hs, rfl, hsuccess, hframed⟩

/-- The bytes end within a header, within a message, and after a compressed frame. -/
theorem successful_incomplete : SucceedsUnframed [0, 0, 0] ∧ SucceedsUnframed [0, 0, 0, 0, 2, 7] ∧
    SucceedsUnframed [1, 0, 0, 0, 1, 7] := by
  simp only [succeedsUnframed_iff]
  refine ⟨fun h => ?_, fun h => ?_, fun h => ?_⟩
  · exact absurd h.noData (by decide)
  · exact absurd h.noData (by decide)
  · exact absurd (h.uncompressed.1 rfl) (by decide)

end GrpcNode.JsCore.CallStream
