import GrpcNode.JsCore.CallStream

/-!
# GrpcNode.JsCore.CallStreamOutcome

How a call ends.

`Outcome` is the part of the state that decides the final status of a call, and
`Outcome.next` tells what becomes of it with each action. It is a machine of its own, in
which reading, writing and delivering do nothing; `step_outcome` says that the call stream
refines it. What the `'status'` event does is then proved about `Outcome.next` alone.
-/

namespace GrpcNode.JsCore.CallStream

open GrpcNode.Js

/-- What the end of a call depends on. -/
structure Outcome where
  finalStatus : Option StatusObject
  statuses : List StatusObject
  jobs : List Job
  mappedStatusCode : Status
  responded : Bool
  trailed : Bool
  ended : Bool
  cancelled : Bool
  uncaught : List JsError
  /-- A write that waits has its callback; `attachHttp2Stream` throws if not. -/
  writable : Bool

def State.outcome (s : State) : Outcome where
  finalStatus := s.call.finalStatus
  statuses := s.statuses
  jobs := s.jobs
  mappedStatusCode := s.call.mappedStatusCode
  responded := s.responded
  trailed := s.trailed
  ended := s.ended
  cancelled := s.cancelled
  uncaught := s.uncaught
  writable := s.call.pendingWrite.isNone || s.call.pendingWriteCallback.isSome

namespace Outcome

variable (o : Outcome)

/-- `endCall(status)` -/
def endCall (status : StatusObject) : Outcome :=
  match o.finalStatus with
  | none => { o with finalStatus := some status, statuses := o.statuses ++ [status] }
  | some _ => o

/-- `cancelWithStatus(status, details)` -/
def cancel (status : Status) (details : String) : Outcome :=
  { o.endCall ⟨status, details, Metadata.new⟩ with cancelled := true }

/-- The `'response'` handler. -/
def response (headers : Headers) : Outcome :=
  let o := { o with
    responded := true, mappedStatusCode := mapHttpStatus (headers.lookup ":status") }
  match Metadata.fromHttp2Headers ((headers.erase ":status").erase "content-type") with
  | .ok metadata => { o with jobs := o.jobs ++ [.receiveMetadata metadata] }
  | .error e => o.cancel .unknown e.message

/-- The `'trailers'` handler. -/
def trailers (headers : HeaderObject) : Outcome :=
  match trailersStatus o.mappedStatusCode headers with
  | .ok status => { o with trailed := true, jobs := o.jobs ++ [.receiveTrailers status] }
  | .error e => { o with trailed := true, uncaught := o.uncaught ++ [e] }

/-- The promise of a job settles. -/
def settle (filterStack : ReceiveFilter) : Job → Outcome
  | .receiveMetadata metadata =>
      match filterStack.receiveMetadata metadata with
      | .ok _ => o
      | .error e => o.cancel .unknown e.message
  | .receiveTrailers status =>
      match filterStack.receiveTrailers status with
      | .ok finalStatus => o.endCall finalStatus
      | .error _ => o.endCall ⟨.internal, "Failed to process received status", Metadata.new⟩

/-- What an action does to the outcome. -/
def next (filterStack : ReceiveFilter) : Act → Outcome
  | .onResponse headers => o.response headers
  | .onTrailers headers => o.trailers headers
  | .onStreamClosed errorCode => o.endCall (streamClosedStatus errorCode)
  | .onError => o.endCall ⟨.internal, "Internal HTTP2 error", Metadata.new⟩
  | .settle i =>
      match o.jobs[i]? with
      | some job => { o with jobs := o.jobs.eraseIdx i }.settle filterStack job
      | none => o
  | .cancelWithStatus status details => o.cancel status details
  | .onEnd => { o with ended := true }
  | .attachHttp2Stream | .onData _ | .read | .write _ _ | .final _ | .writeDone
  | .advance | .pushReturns _ | .cancelReturns => o

end Outcome

/-! ### The functions that end a call -/

namespace State

variable (s : State)

theorem outcome_endCall (status : StatusObject) :
    (s.endCall status).outcome = s.outcome.endCall status := by
  unfold endCall Outcome.endCall
  rw [show s.outcome.finalStatus = s.call.finalStatus from rfl]
  cases s.call.finalStatus <;> rfl

theorem outcome_cancelWithStatus (status : Status) (details : String) :
    (s.cancelWithStatus status details).outcome = s.outcome.cancel status details := by
  unfold Outcome.cancel
  rw [← s.outcome_endCall]
  unfold cancelWithStatus
  cases hstatus : s.call.finalStatus with
  | none => rfl
  | some _ =>
      unfold endCall
      rw [hstatus]
      rfl

theorem outcome_onResponse (headers : Headers) :
    (s.onResponse headers).outcome = s.outcome.response headers := by
  unfold onResponse Outcome.response
  dsimp only
  cases Metadata.fromHttp2Headers ((headers.erase ":status").erase "content-type") with
  | ok metadata => rfl
  | error e => exact outcome_cancelWithStatus _ _ _

theorem outcome_onTrailers (headers : HeaderObject) :
    (s.onTrailers headers).outcome = s.outcome.trailers headers := by
  unfold onTrailers Outcome.trailers
  rw [show s.outcome.mappedStatusCode = s.call.mappedStatusCode from rfl]
  dsimp only
  cases trailersStatus s.call.mappedStatusCode headers <;> rfl

theorem outcome_settle (filterStack : ReceiveFilter) (job : Job) :
    (s.settle filterStack job).outcome = s.outcome.settle filterStack job := by
  cases job with
  | receiveMetadata metadata =>
      simp only [settle, Outcome.settle]
      cases filterStack.receiveMetadata metadata with
      | ok finalMetadata => rfl
      | error e => exact s.outcome_cancelWithStatus _ _
  | receiveTrailers status =>
      simp only [settle, Outcome.settle]
      cases filterStack.receiveTrailers status <;> exact s.outcome_endCall _

/-! ### The other functions -/

theorem outcome_attachHttp2Stream (hwrite : s.outcome.writable = true) :
    s.attachHttp2Stream.outcome = s.outcome := by
  have hfinal : ∀ stream, (s.attachFinal stream).outcome = s.outcome := by
    intro stream
    unfold attachFinal
    cases s.call.pendingFinalCallback <;> rfl
  unfold attachHttp2Stream
  cases s.call.finalStatus with
  | some _ => rfl
  | none =>
      dsimp only
      split
      · exact hfinal _
      · exact hfinal _
      · rename_i hwaits hcallback
        simp [outcome, hwaits, hcallback] at hwrite

theorem outcome_onEnd : s.onEnd.outcome = { s.outcome with ended := true } := by
  unfold onEnd
  split <;> rfl

theorem outcome_read : s.read.outcome = s.outcome := by
  unfold read
  split <;> rfl

theorem outcome_write (hwrite : s.outcome.writable = true) (chunk : WriteObject) (cb : Callback) :
    (s.write chunk cb).outcome = s.outcome := by
  unfold write
  cases s.call.http2Stream with
  | some stream => rfl
  | none =>
      show { s.outcome with writable := true } = s.outcome
      rw [← hwrite]

theorem outcome_final (cb : Callback) : (s.final cb).outcome = s.outcome := by
  unfold final
  cases s.call.http2Stream <;> rfl

theorem outcome_writeDone {s s' : State} (h : s.writeDone? = some s') :
    s'.outcome = s.outcome := by
  unfold writeDone? at h
  obtain ⟨stream, -, h⟩ := Option.bind_eq_some_iff.mp h
  split at h
  · exact absurd h nofun
  · obtain rfl := Option.some.inj h
    rfl

theorem outcome_dataPass (rest : List Frame) (chunk : Buffer) (readHead : Nat) (canPush : Bool) :
    (s.dataPass rest chunk readHead canPush).outcome = s.outcome := by
  unfold dataPass
  split
  · split
    · rfl
    · split <;> rfl
  · rfl

theorem outcome_tryPushReturns (rest : List Frame) (chunk : Buffer) (readHead : Nat)
    (result : Bool) : (s.tryPushReturns rest chunk readHead result).outcome = s.outcome := by
  unfold tryPushReturns
  cases result <;> rfl

theorem outcome_readPass (rest : List Frame) : (s.readPass rest).outcome = s.outcome := by
  unfold readPass
  split <;> rfl

end State

/-- **The call stream refines the machine of outcomes.** -/
theorem step_outcome {filterStack : ReceiveFilter} {s s' : State} {a : Act}
    (hwrite : s.outcome.writable = true) (h : step filterStack s a = some s') :
    s'.outcome = s.outcome.next filterStack a := by
  cases step_effect h with
  | attachHttp2Stream _ _ => exact s.outcome_attachHttp2Stream hwrite
  | onResponse headers _ _ => exact s.outcome_onResponse headers
  | onTrailers headers _ _ => exact s.outcome_onTrailers headers
  | onData chunk _ _ _ => rfl
  | onEnd _ _ _ => exact s.outcome_onEnd
  | onStreamClosed errorCode _ => exact s.outcome_endCall _
  | onError _ => exact s.outcome_endCall _
  | @settle i job _ hjob =>
      have hjob' : s.outcome.jobs[i]? = some job := hjob
      simp only [Outcome.next, hjob']
      exact State.outcome_settle _ filterStack job
  | cancelWithStatus status details _ => exact s.outcome_cancelWithStatus status details
  | read _ => exact s.outcome_read
  | write chunk cb _ _ => exact s.outcome_write hwrite chunk cb
  | final cb _ _ => exact s.outcome_final cb
  | writeDone _ hdone => exact State.outcome_writeDone hdone
  | dataPass _ => exact s.outcome_dataPass _ _ _ _
  | readPass _ => exact s.outcome_readPass _
  | tryPushReturns result _ => exact s.outcome_tryPushReturns _ _ _ result
  | endPushReturns result _ => rfl
  | readStops _ _ => rfl
  | readGoesOn _ _ => rfl
  | cancelReturns _ => rfl

/-! ### What ends a call -/

/-- The status with which an action ends the call, unless the call has ended before. -/
def endsCall (filterStack : ReceiveFilter) (s : State) : Act → Option StatusObject
  | .onResponse headers =>
      match Metadata.fromHttp2Headers ((headers.erase ":status").erase "content-type") with
      | .ok _ => none
      | .error e => some ⟨.unknown, e.message, Metadata.new⟩
  | .onStreamClosed errorCode => some (streamClosedStatus errorCode)
  | .onError => some ⟨.internal, "Internal HTTP2 error", Metadata.new⟩
  | .settle i =>
      match s.jobs[i]? with
      | some (.receiveMetadata metadata) =>
          match filterStack.receiveMetadata metadata with
          | .ok _ => none
          | .error e => some ⟨.unknown, e.message, Metadata.new⟩
      | some (.receiveTrailers status) =>
          match filterStack.receiveTrailers status with
          | .ok finalStatus => some finalStatus
          | .error _ => some ⟨.internal, "Failed to process received status", Metadata.new⟩
      | none => none
  | .cancelWithStatus status details => some ⟨status, details, Metadata.new⟩
  | _ => none

namespace Outcome

/-- `endCall` touches the final status and the events, and nothing else. -/
theorem endCall_eq (o : Outcome) (status : StatusObject) :
    o.endCall status = { o with
      finalStatus := o.finalStatus.or (some status)
      statuses := o.statuses ++ if o.finalStatus = none then [status] else [] } := by
  obtain ⟨finalStatus, _⟩ := o
  cases finalStatus <;> simp [endCall]

/-- The final status and the `'status'` events. -/
def ending (o : Outcome) : Option StatusObject × List StatusObject := (o.finalStatus, o.statuses)

/-- `endCall(status)`, if there is a status. -/
def endWith (o : Outcome) : Option StatusObject → Outcome
  | some status => o.endCall status
  | none => o

variable (filterStack : ReceiveFilter) (s : State)

/-- Every way of ending a call goes through `endCall`. -/
theorem ending_next (a : Act) :
    (s.outcome.next filterStack a).ending =
      (s.outcome.endWith (endsCall filterStack s a)).ending := by
  cases a with
  | onResponse headers =>
      simp only [next, response, endsCall]
      cases Metadata.fromHttp2Headers ((headers.erase ":status").erase "content-type") with
      | ok metadata => rfl
      | error e => simp only [cancel, endWith, endCall_eq, ending]
  | onTrailers headers =>
      simp only [next, trailers]
      cases trailersStatus s.outcome.mappedStatusCode headers <;> rfl
  | settle i =>
      simp only [next, endsCall, show s.outcome.jobs = s.jobs from rfl]
      cases s.jobs[i]? with
      | none => rfl
      | some job =>
          cases job with
          | receiveMetadata metadata =>
              simp only [settle]
              cases filterStack.receiveMetadata metadata with
              | ok finalMetadata => rfl
              | error e => simp only [cancel, endWith, endCall_eq, ending]
          | receiveTrailers status =>
              simp only [settle]
              cases filterStack.receiveTrailers status with
              | ok finalStatus => simp only [endWith, endCall_eq, ending]
              | error _ => simp only [endWith, endCall_eq, ending]
  | _ => rfl

theorem finalStatus_next (a : Act) :
    (s.outcome.next filterStack a).finalStatus =
      s.call.finalStatus.or (endsCall filterStack s a) := by
  rw [show (s.outcome.next filterStack a).finalStatus = _ from
    congrArg Prod.fst (ending_next filterStack s a)]
  cases endsCall filterStack s a with
  | none => exact (Option.or_none).symm
  | some status => rw [endWith, endCall_eq]; rfl

/-- Only the final status, the `'status'` events and the mark of a `cancelWithStatus` may be
different. -/
structure Frame (o o' : Outcome) : Prop where
  jobs : o'.jobs = o.jobs
  mappedStatusCode : o'.mappedStatusCode = o.mappedStatusCode
  responded : o'.responded = o.responded
  trailed : o'.trailed = o.trailed
  ended : o'.ended = o.ended
  uncaught : o'.uncaught = o.uncaught
  writable : o'.writable = o.writable

theorem Frame.refl (o : Outcome) : o.Frame o := ⟨rfl, rfl, rfl, rfl, rfl, rfl, rfl⟩

theorem frame_endCall (o : Outcome) (status : StatusObject) : o.Frame (o.endCall status) := by
  rw [endCall_eq]
  exact ⟨rfl, rfl, rfl, rfl, rfl, rfl, rfl⟩

theorem frame_cancel (o : Outcome) (status : Status) (details : String) :
    o.Frame (o.cancel status details) := by
  rw [cancel, endCall_eq]
  exact ⟨rfl, rfl, rfl, rfl, rfl, rfl, rfl⟩

theorem frame_settle (o : Outcome) (job : Job) : o.Frame (o.settle filterStack job) := by
  cases job with
  | receiveMetadata metadata =>
      simp only [settle]
      split
      · exact .refl o
      · exact o.frame_cancel _ _
  | receiveTrailers status =>
      simp only [settle]
      split <;> exact o.frame_endCall _

/-- What an action can do to the parts of the outcome that ending the call leaves alone. -/
inductive Next (o o' : Outcome) : Act → Prop
  | response (headers : Headers) (jobs : List Job) : (∀ status, .receiveTrailers status ∉ jobs) →
      Frame { o with
        responded := true
        mappedStatusCode := mapHttpStatus (headers.lookup ":status")
        jobs := o.jobs ++ jobs } o' →
      Next o o' (.onResponse headers)
  | trailers {headers : HeaderObject} {status : StatusObject} :
      trailersStatus o.mappedStatusCode headers = .ok status →
      o' = { o with trailed := true, jobs := o.jobs ++ [.receiveTrailers status] } →
      Next o o' (.onTrailers headers)
  | trailersThrow {headers : HeaderObject} {e : JsError} :
      trailersStatus o.mappedStatusCode headers = .error e →
      o' = { o with trailed := true, uncaught := o.uncaught ++ [e] } →
      Next o o' (.onTrailers headers)
  | ends : o' = { o with ended := true } → Next o o' .onEnd
  | settle {i : Nat} {job : Job} : o.jobs[i]? = some job →
      Frame { o with jobs := o.jobs.eraseIdx i } o' → Next o o' (.settle i)
  | other {a : Act} : (∀ headers, a ≠ .onResponse headers) → (∀ headers, a ≠ .onTrailers headers) →
      a ≠ .onEnd → o.Frame o' → Next o o' a

theorem next_next (o : Outcome) (a : Act) : o.Next (o.next filterStack a) a := by
  cases a with
  | onResponse headers =>
      simp only [next, response]
      split
      · exact .response headers [.receiveMetadata _] (by simp) (.refl _)
      · refine .response headers [] (by simp) ?_
        rw [List.append_nil]
        exact frame_cancel _ _ _
  | onTrailers headers =>
      simp only [next, trailers]
      split
      · rename_i hstatus
        exact .trailers hstatus rfl
      · rename_i hstatus
        exact .trailersThrow hstatus rfl
  | onEnd => exact .ends rfl
  | settle i =>
      simp only [next]
      split
      · rename_i hjob
        exact .settle hjob (frame_settle filterStack _ _)
      · exact .other (by simp) (by simp) (by simp) (.refl o)
  | onStreamClosed errorCode => exact .other (by simp) (by simp) (by simp) (o.frame_endCall _)
  | onError => exact .other (by simp) (by simp) (by simp) (o.frame_endCall _)
  | cancelWithStatus status details =>
      exact .other (by simp) (by simp) (by simp) (o.frame_cancel status details)
  | _ => exact .other (by simp) (by simp) (by simp) (.refl o)

variable {filterStack} {o o' : Outcome} {a : Act}

theorem Next.writable (h : o.Next o' a) : o'.writable = o.writable := by
  cases h with
  | response headers jobs _ hframe => exact hframe.writable
  | settle _ hframe => exact hframe.writable
  | other _ _ _ hframe => exact hframe.writable
  | trailers _ heq => rw [heq]
  | trailersThrow _ heq => rw [heq]
  | ends heq => rw [heq]

theorem Next.ended (h : o.Next o' a) (ha : a ≠ .onEnd) : o'.ended = o.ended := by
  cases h with
  | response headers jobs _ hframe => exact hframe.ended
  | settle _ hframe => exact hframe.ended
  | other _ _ _ hframe => exact hframe.ended
  | trailers _ heq => rw [heq]
  | trailersThrow _ heq => rw [heq]
  | ends _ => exact absurd rfl ha

end Outcome

/-! ### The invariant -/

/-- What waits to be written can be. -/
def State.Writable (s : State) : Prop := s.outcome.writable = true

theorem State.Writable.step {filterStack : ReceiveFilter} {s s' : State} {a : Act}
    (hs : s.Writable) (h : step filterStack s a = some s') : s'.Writable := by
  rw [Writable, step_outcome hs h, (s.outcome.next_next filterStack a).writable]
  exact hs

/-- What a step can do to the outcome. -/
theorem next_of_step {filterStack : ReceiveFilter} {s s' : State} {a : Act} (hs : s.Writable)
    (h : step filterStack s a = some s') : s.outcome.Next s'.outcome a := by
  rw [step_outcome hs h]
  exact s.outcome.next_next filterStack a

/-- A call that has ended keeps its status. -/
theorem finalStatus_step {filterStack : ReceiveFilter} {s s' : State} {a : Act} (hs : s.Writable)
    (h : step filterStack s a = some s') :
    s'.call.finalStatus = s.call.finalStatus.or (endsCall filterStack s a) := by
  rw [← Outcome.finalStatus_next, ← step_outcome hs h]
  rfl

end GrpcNode.JsCore.CallStream
