import GrpcNode.JsCore.CallStreamOutcome

/-!
# GrpcNode.JsCore.CallStreamEnd

A call ends once.

The `'status'` event and `finalStatus` are a matter of `Outcome`. What becomes of the HTTP/2
streams is another view of the state, `Streams`: the one that is attached, whether it is
reset, and those that were offered too late. `Streams.Step` says what a step can do to it.
A `cancelWithStatus` that ends the call resets the attached stream only when the listeners
of `'status'` have returned, so in between there is a frame on the stack.
-/

namespace GrpcNode.JsCore.CallStream

open GrpcNode.Js

/-! ### The HTTP/2 streams of a call -/

/-- What becomes of the HTTP/2 streams. `reset` tells whether the attached one is reset,
once there is one, and `cancels` how many `cancelWithStatus` have yet to reset it. -/
structure Streams where
  reset : Option Bool
  refused : List Http2Stream
  cancelled : Bool
  cancels : Nat
  ended : Bool

def State.streams (s : State) : Streams where
  reset := s.call.http2Stream.map Http2Stream.rst
  refused := s.refused
  cancelled := s.cancelled
  cancels := s.stack.count .cancel
  ended := s.call.finalStatus.isSome

namespace Streams

/-- `rstWithCancel` of the attached stream. -/
def rstWithCancel (v : Streams) : Streams := { v with reset := v.reset.map fun _ => true }

/-- What a step can do to the streams. -/
inductive Step (v : Streams) : Streams → Prop
  | same : Step v v
  | ends : Step v { v with ended := true }
  | attach : v.ended = false → Step v { v with reset := some false }
  | refuse : Step v { v with refused := v.refused ++ [Http2Stream.rstWithCancel {}] }
  | cancel : Step v { v with ended := true, cancelled := true, cancels := v.cancels + 1 }
  | reset : v.ended = true → Step v { v.rstWithCancel with cancelled := true }
  | cancelReturns {n : Nat} : v.cancels = n + 1 → Step v { v.rstWithCancel with cancels := n }

/-- The streams that came too late were reset, and nothing else was done to them; and when
no `cancelWithStatus` is under way, the attached stream is reset if there has been one. -/
structure Good (v : Streams) : Prop where
  refused : ∀ stream ∈ v.refused, stream = Http2Stream.rstWithCancel {}
  ended : v.cancelled = true → v.ended = true
  reset : v.cancelled = true → v.cancels = 0 → v.reset ≠ some false

theorem rstWithCancel_reset (v : Streams) : v.rstWithCancel.reset ≠ some false := by
  simp [rstWithCancel]

theorem Good.step {v v' : Streams} (hv : v.Good) (h : v.Step v') : v'.Good := by
  cases h with
  | same => exact hv
  | ends => exact ⟨hv.refused, fun _ => rfl, hv.reset⟩
  | attach hlive =>
      have hnot : v.cancelled ≠ true := fun hcancelled =>
        absurd ((hv.ended hcancelled).symm.trans hlive) nofun
      exact ⟨hv.refused, hv.ended, fun hcancelled => absurd hcancelled hnot⟩
  | refuse =>
      refine ⟨fun stream hmem => ?_, hv.ended, hv.reset⟩
      rcases List.mem_append.mp hmem with hold | hnew
      · exact hv.refused stream hold
      · exact List.mem_singleton.mp hnew
  | cancel => exact ⟨hv.refused, fun _ => rfl, fun _ hzero => absurd hzero (Nat.succ_ne_zero _)⟩
  | reset hended => exact ⟨hv.refused, fun _ => hended, fun _ _ => v.rstWithCancel_reset⟩
  | cancelReturns _ => exact ⟨hv.refused, hv.ended, fun _ _ => v.rstWithCancel_reset⟩

end Streams

/-! ### What the functions do to the streams -/

namespace State

variable (s : State)

theorem streams_endCall (status : StatusObject) :
    (s.endCall status).streams = { s.streams with ended := true } := by
  unfold endCall streams
  cases hstatus : s.call.finalStatus with
  | none => rfl
  | some _ => simp [hstatus]

theorem streams_resetStream : s.resetStream.streams = s.streams.rstWithCancel := by
  unfold resetStream streams Streams.rstWithCancel Http2CallStream.onStream
  cases s.call.http2Stream <;> rfl

theorem step_cancelWithStatus_streams (status : Status) (details : String) :
    s.streams.Step (s.cancelWithStatus status details).streams := by
  unfold cancelWithStatus
  cases hstatus : s.call.finalStatus with
  | none =>
      have hcancel : ({ s.endCall ⟨status, details, Metadata.new⟩ with
          cancelled := true, stack := .cancel :: s.stack } : State).streams =
          { s.streams with
            ended := true, cancelled := true, cancels := s.streams.cancels + 1 } := by
        simp [streams, endCall, hstatus]
      exact (congrArg s.streams.Step hcancel).mpr .cancel
  | some _ =>
      show s.streams.Step { s.resetStream.streams with cancelled := true }
      rw [streams_resetStream]
      exact .reset (by simp [streams, hstatus])

theorem step_attachHttp2Stream_streams :
    s.streams.Step s.attachHttp2Stream.streams := by
  have hattach : s.call.finalStatus = none → ∀ stream : Http2Stream, stream.rst = false →
      s.streams.Step { s with call := { s.call with http2Stream := some stream } }.streams := by
    intro hlive stream hrst
    have heq : { s with call := { s.call with http2Stream := some stream } }.streams =
        { s.streams with reset := some false } := by simp [streams, hrst]
    exact (congrArg s.streams.Step heq).mpr (.attach (by simp [streams, hlive]))
  have hfinal : s.call.finalStatus = none → ∀ stream : Http2Stream, stream.rst = false →
      s.streams.Step (s.attachFinal stream).streams := by
    intro hlive stream hrst
    unfold attachFinal
    cases s.call.pendingFinalCallback <;> exact hattach hlive _ hrst
  unfold attachHttp2Stream
  cases hstatus : s.call.finalStatus with
  | some _ => exact .refuse
  | none =>
      have hnew : (if s.call.pendingRead then Http2Stream.listen {}
          else (Http2Stream.listen {}).pause).rst = false := by split <;> rfl
      dsimp only
      split
      · exact hfinal hstatus _ hnew
      · exact hfinal hstatus _ hnew
      · exact hattach hstatus _ hnew

theorem streams_onEnd : s.onEnd.streams = s.streams := by
  unfold onEnd streams
  split <;> simp

theorem streams_read : s.read.streams = s.streams := by
  unfold read streams
  split <;> simp

theorem streams_write (chunk : WriteObject) (cb : Callback) :
    (s.write chunk cb).streams = s.streams := by
  unfold write streams
  cases h : s.call.http2Stream <;> simp [h, Http2Stream.write]

theorem streams_final (cb : Callback) : (s.final cb).streams = s.streams := by
  unfold final streams
  cases h : s.call.http2Stream <;> simp [h, Http2Stream.endWith]

theorem streams_writeDone {s s' : State} (h : s.writeDone? = some s') :
    s'.streams = s.streams := by
  unfold writeDone? at h
  obtain ⟨stream, hstream, h⟩ := Option.bind_eq_some_iff.mp h
  split at h
  · exact absurd h nofun
  · obtain rfl := Option.some.inj h
    simp [streams, hstream]

theorem streams_dataPass {rest : List Frame} {chunk : Buffer} {readHead : Nat} {canPush : Bool}
    (hstack : s.stack = .data chunk readHead canPush :: rest) :
    (s.dataPass rest chunk readHead canPush).streams = s.streams := by
  unfold dataPass streams
  split
  · split
    · simp [hstack]
    · split <;> simp [hstack]
  · simp [hstack]

theorem streams_tryPushReturns {rest : List Frame} {chunk : Buffer} {readHead : Nat}
    (hstack : s.stack = .tryPush chunk readHead :: rest) (result : Bool) :
    (s.tryPushReturns rest chunk readHead result).streams = s.streams := by
  unfold tryPushReturns streams
  cases result <;> cases h : s.call.http2Stream <;>
    simp [hstack, h, Http2CallStream.onStream, Http2Stream.pause]

theorem streams_readPass {rest : List Frame} (hstack : s.stack = .read :: rest) :
    (s.readPass rest).streams = s.streams := by
  unfold readPass streams
  split
  · simp [hstack]
  · cases h : s.call.http2Stream <;>
      simp [hstack, h, Http2CallStream.onStream, Http2Stream.resume]

/-- A function that is no `cancelWithStatus` returns, or goes on in another place. -/
theorem streams_of_stack {frame : Frame} {rest stack : List Frame} (hstack : s.stack = frame :: rest)
    (hcount : stack.count .cancel = (frame :: rest).count .cancel) :
    { s with stack }.streams = s.streams := by
  simp [streams, hstack, hcount]

end State

/-- **A step of the call stream does to the streams what `Streams.Step` allows.** -/
theorem step_streams {filterStack : ReceiveFilter} {s s' : State} {a : Act}
    (h : step filterStack s a = some s') : s.streams.Step s'.streams := by
  have same : ∀ {t : State}, t.streams = s.streams → s.streams.Step t.streams := by
    intro t hsame
    rw [hsame]
    exact .same
  have ends : ∀ {t : State}, t.streams = { s.streams with ended := true } →
      s.streams.Step t.streams := by
    intro t hends
    rw [hends]
    exact .ends
  cases step_effect h with
  | attachHttp2Stream _ _ => exact s.step_attachHttp2Stream_streams
  | onResponse headers _ _ =>
      have hcancel := State.step_cancelWithStatus_streams
        { s with
          responded := true
          call := { s.call with mappedStatusCode := mapHttpStatus (headers.lookup ":status") } }
        .unknown
      unfold State.onResponse
      split
      · exact same rfl
      · exact hcancel _
  | onTrailers headers _ _ =>
      unfold State.onTrailers
      dsimp only
      split <;> exact same rfl
  | onData chunk _ _ _ => exact same (by simp [State.onData, State.streams])
  | onEnd _ _ _ => exact same s.streams_onEnd
  | onStreamClosed errorCode _ => exact ends (s.streams_endCall _)
  | onError _ => exact ends (s.streams_endCall _)
  | @settle i job _ _ =>
      cases job with
      | receiveMetadata metadata =>
          simp only [State.settle]
          split
          · exact same rfl
          · exact State.step_cancelWithStatus_streams { s with jobs := s.jobs.eraseIdx i } _ _
      | receiveTrailers status =>
          simp only [State.settle]
          split <;> exact ends (State.streams_endCall { s with jobs := s.jobs.eraseIdx i } _)
  | cancelWithStatus status details _ => exact s.step_cancelWithStatus_streams status details
  | read _ => exact same s.streams_read
  | write chunk cb _ _ => exact same (s.streams_write chunk cb)
  | final cb _ _ => exact same (s.streams_final cb)
  | writeDone _ hdone => exact same (State.streams_writeDone hdone)
  | dataPass hstack => exact same (s.streams_dataPass hstack)
  | readPass hstack => exact same (s.streams_readPass hstack)
  | tryPushReturns result hstack => exact same (s.streams_tryPushReturns hstack result)
  | endPushReturns result hstack => exact same (s.streams_of_stack hstack (by simp))
  | readStops hstack _ => exact same (s.streams_of_stack hstack (by simp))
  | readGoesOn hstack _ => exact same (s.streams_of_stack hstack (by simp))
  | @cancelReturns rest hstack =>
      have heq : ({ s.resetStream with stack := rest } : State).streams =
          { s.streams.rstWithCancel with cancels := rest.count .cancel } := by
        rw [← s.streams_resetStream]
        rfl
      rw [heq]
      exact .cancelReturns (by simp [State.streams, hstack])

/-! ### The invariant -/

/-- The `'status'` events are what `finalStatus` says. -/
def Outcome.EmittedOnce (o : Outcome) : Prop := o.statuses = o.finalStatus.toList

theorem Outcome.EmittedOnce.next {s : State} (h : s.outcome.EmittedOnce)
    (filterStack : ReceiveFilter) (a : Act) : (s.outcome.next filterStack a).EmittedOnce := by
  have hending := ending_next filterStack s a
  have hend : (s.outcome.endWith (endsCall filterStack s a)).EmittedOnce := by
    cases endsCall filterStack s a with
    | none => exact h
    | some status =>
        simp only [EmittedOnce] at h
        simp only [endWith, endCall_eq, EmittedOnce, h]
        cases s.outcome.finalStatus <;> rfl
  simp only [ending, Prod.mk.injEq] at hending
  rw [EmittedOnce, hending.1, hending.2]
  exact hend

/-- What holds along a run. -/
structure State.Ending (s : State) : Prop where
  writable : s.Writable
  once : s.outcome.EmittedOnce
  streams : s.streams.Good

theorem State.Ending.step {filterStack : ReceiveFilter} {s s' : State} {a : Act} (hs : s.Ending)
    (h : step filterStack s a = some s') : s'.Ending where
  writable := hs.writable.step h
  once := by
    rw [step_outcome hs.writable h]
    exact hs.once.next filterStack a
  streams := hs.streams.step (step_streams h)

theorem initial_ending : State.initial.Ending where
  writable := rfl
  once := rfl
  streams := ⟨nofun, nofun, nofun⟩

theorem getStatus_exec {filterStack : ReceiveFilter} {acts : List Act} {s t : State}
    {status : StatusObject} (hs : s.Writable) (hstatus : s.call.getStatus = some status)
    (h : Runs.exec (step filterStack) s acts = some t) : t.call.getStatus = some status := by
  have hstep : ∀ (u : State) (a : Act) (u' : State),
      u.Writable ∧ u.call.finalStatus = some status → step filterStack u a = some u' →
      u'.Writable ∧ u'.call.finalStatus = some status := by
    rintro u a u' ⟨hwrite, hfinal⟩ hu
    refine ⟨hwrite.step hu, ?_⟩
    rw [finalStatus_step hwrite hu, hfinal]
    rfl
  exact (Runs.exec_invariant hstep ⟨hs, hstatus⟩ h).2

/-! ### A call ends once -/

/-- What a state of a run says about the end of the call: the `'status'` event has been emitted
for `finalStatus` and no other time, `getStatus()` stays what it is, the streams that came too late
are as they came except that they were reset, and so is the attached one once a
`cancelWithStatus` has returned. -/
structure EndedOnce (filterStack : ReceiveFilter) (s : State) : Prop where
  emitted : s.statuses = s.call.getStatus.toList
  kept : ∀ status acts t, s.call.getStatus = some status →
    Runs.exec (step filterStack) s acts = some t → t.call.getStatus = some status
  refused : ∀ stream ∈ s.refused, stream = Http2Stream.rstWithCancel {}
  reset : s.cancelled = true → .cancel ∉ s.stack → ∀ stream ∈ s.call.http2Stream, stream.rst = true

/-- What a step says about it: it emits `'status'` exactly if it sets `finalStatus`, a stream
offered to a call that has ended is reset and changes nothing else, and `cancelWithStatus` resets
the attached stream at once, or when the listeners of `'status'` have returned. -/
structure EndsOnce (s : State) (a : Act) (s' : State) : Prop where
  emits : s'.statuses ≠ s.statuses ↔ s.call.finalStatus = none ∧ s'.call.finalStatus ≠ none
  refuses : a = .attachHttp2Stream → s.call.finalStatus ≠ none →
    s' = { s with refused := s.refused ++ [Http2Stream.rstWithCancel {}] }
  cancels : ∀ status details, a = .cancelWithStatus status details → s'.cancelled = true ∧
    (s'.stack = .cancel :: s.stack ∨ ∀ stream ∈ s'.call.http2Stream, stream.rst = true)
  returns : a = .cancelReturns → ∀ stream ∈ s'.call.http2Stream, stream.rst = true

theorem State.rst_resetStream (s : State) :
    ∀ stream ∈ s.resetStream.call.http2Stream, stream.rst = true := by
  intro stream hmem
  obtain ⟨stream, -, rfl⟩ := Option.map_eq_some_iff.mp hmem
  rfl

theorem State.Ending.endedOnce {s : State} (hs : s.Ending) (filterStack : ReceiveFilter) :
    EndedOnce filterStack s where
  emitted := hs.once
  kept _ _ _ hstatus h := getStatus_exec hs.writable hstatus h
  refused := hs.streams.refused
  reset hcancelled hcancel stream hmem := by
    have hreset := hs.streams.reset hcancelled (List.count_eq_zero.mpr hcancel)
    have hstream : s.call.http2Stream = some stream := hmem
    simpa [State.streams, hstream] using hreset

theorem endsOnce_step {filterStack : ReceiveFilter} {s s' : State} {a : Act}
    (hs : s.Ending) (h : step filterStack s a = some s') : EndsOnce s a s' where
  emits := by
    have hbefore : s.statuses = s.call.finalStatus.toList := hs.once
    have hafter : s'.statuses = s'.call.finalStatus.toList := (hs.step h).once
    rw [hbefore, hafter, finalStatus_step hs.writable h]
    cases s.call.finalStatus <;> cases endsCall filterStack s a <;> simp
  refuses := by
    rintro rfl hended
    cases step_effect h with
    | attachHttp2Stream _ _ =>
        obtain ⟨status, hstatus⟩ := Option.ne_none_iff_exists'.mp hended
        simp only [State.attachHttp2Stream, hstatus]
  cancels := by
    rintro status details rfl
    cases step_effect h with
    | cancelWithStatus _ _ _ =>
        unfold State.cancelWithStatus
        cases s.call.finalStatus with
        | none => exact ⟨rfl, .inl rfl⟩
        | some _ => exact ⟨rfl, .inr s.rst_resetStream⟩
  returns := by
    rintro rfl
    cases step_effect h with
    | cancelReturns _ => exact s.rst_resetStream

/-- **A call ends once**, in whatever order its events come, its promises settle and its functions
are called, also by the listeners that these functions run. A deadline that expires is one more
`cancelWithStatus`. -/
theorem endsOnce_always (filterStack : ReceiveFilter) (acts : List Act) :
    Runs.Always (step filterStack)
      (fun s => EndedOnce filterStack s ∧ ∀ a s', step filterStack s a = some s' → EndsOnce s a s')
      State.initial acts := by
  have hending : Runs.Always (step filterStack) State.Ending State.initial acts :=
    Runs.always_of_invariant (fun _ _ _ hs h => hs.step h) initial_ending acts
  exact hending.mono fun s hs => ⟨hs.endedOnce filterStack, fun a s' h => endsOnce_step hs h⟩

/-- A listener of `'status'` cancels the call that is being cancelled, and a second HTTP/2 stream
comes too late. -/
example : (Runs.exec (step .base) State.initial
    [.attachHttp2Stream, .cancelWithStatus .cancelled "a", .cancelWithStatus .aborted "b",
      .cancelReturns, .attachHttp2Stream, .onStreamClosed 8]).map
      (fun s => (s.statuses.map StatusObject.code, s.call.http2Stream.map Http2Stream.rst, s.refused)) =
    some ([.cancelled], some true, [Http2Stream.rstWithCancel {}]) := by
  decide +kernel

end GrpcNode.JsCore.CallStream
