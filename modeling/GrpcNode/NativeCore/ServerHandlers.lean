import GrpcNode.NativeCore.ClientCompletion
import GrpcNode.NativeCore.ServerCall
import GrpcNode.NativeCore.ServerReadStream

/-!
# GrpcNode.NativeCore.ServerHandlers

`handleUnary` and `handleClientStreaming`: the calls that end with one response.

The request, the cancellation and the handler can each end the call, and nothing records that it
has been ended: `oneStatus_iff` says that there is one status exactly as long as nobody reports
after a status has been sent. What the core says to a batch makes no difference here, since
nothing is done after one has been started.
-/

namespace GrpcNode.NativeCore

open GrpcNode.Js

variable {core : Core} {β γ : Type*}

/-- **When a machine whose steps send on a call sends one status.** -/
theorem always_oneStatus_iff {σ α : Type*} {step : σ → α → Option σ} {call : σ → ServerCall core}
    {Reports : σ → α → Prop}
    (hstep : ∀ s a s', step s a = some s' → ∃ more, Sends (call s) (call s') more ∧
      (more ≠ [] ↔ (call s).released = false ∧ Reports s a))
    {s : σ} (hmarked : (call s).Marked) (hone : OneStatus (call s).ops) (acts : List α) :
    Runs.Always step (fun s => OneStatus (call s).ops) s acts ↔
      Runs.Guarded step (fun s a => HasStatus (call s).ops → (call s).released = false →
        ¬ Reports s a) s acts := by
  refine Runs.always_iff_guarded (J := fun s => (call s).Marked) ?_ ?_ hmarked hone
  · intro s a s' hmarked hone h
    obtain ⟨more, hsends, hmore⟩ := hstep s a s' h
    rw [hsends.keepsOneStatus_iff hmarked hone]
    constructor
    · intro hnone hstatus hreleased hreports
      exact hmore.mpr ⟨hreleased, hreports⟩ (hnone hstatus)
    · intro hguard hstatus
      by_contra hne
      obtain ⟨hreleased, hreports⟩ := hmore.mp hne
      exact hguard hstatus hreleased hreports
  · intro s a s' hmarked _ _ h
    obtain ⟨more, hsends, -⟩ := hstep s a s' h
    exact hsends.marked hmarked

/-! ### `handleUnary` -/

namespace UnaryHandler

structure State (core : Core) where
  call : ServerCall core := {}
  /-- `emitter.cancelled` -/
  cancelled : Bool := false
  /-- The batch with `RECV_MESSAGE` has not completed. -/
  readOutstanding : Bool := true
  /-- The batch with `RECV_CLOSE_ON_SERVER` has not completed. -/
  cancelOutstanding : Bool := true
  /-- The batch of `sendMetadata` has not completed. -/
  metadataOutstanding : Bool := false
  /-- The handler has been called. -/
  handling : Bool := false

inductive Act (core : Core) (γ : Type*)
  | readCompletes (completion : Completion (Option Buffer))
  | cancelCompletes (completion : Completion Bool)
  | metadataCompletes (completion : Completion Unit)
  | sendMetadata (responseMetadata : Metadata core)
  | emitError (error : ErrorObject core)
  | sendUnaryData (err : Option (ErrorObject core)) (value : γ) (trailer : Option (Metadata core))
      (flags : JsValue)
  | releaseCall

namespace State

variable (s : State core)

/-- `emitter.emit('error', error)` -/
def emitError (error : ErrorObject core) : State core :=
  { s with call := s.call.handleError error }

/-- The callback of the batch with the request -/
def readCompletes (deserialize : Option Buffer → Except (ErrorObject core) β) :
    Completion (Option Buffer) → State core
  | .error err => s.emitError (.ofAddon err)
  | .result read =>
      match deserialize read with
      | .error e => { s with call := s.call.handleError e.internal }
      | .ok _ => if s.cancelled then s else { s with handling := true }

/-- What the callback in `waitForCancel` emits -/
def onCancelEvent : CancelEvent → State core
  | .error err => s.emitError (.ofAddon err)
  | .cancelled => { s with cancelled := true }

/-- The callback in `waitForCancel` -/
def cancelCompletes (completion : Completion Bool) : State core :=
  (cancelCompletion completion.err? completion.result?).events.foldl onCancelEvent s

/-- The callback in `sendMetadata` -/
def metadataCompletes : Completion Unit → State core
  | .error err => s.emitError (.ofAddon err)
  | .result _ => s

/-- `emitter.sendMetadata(responseMetadata)`. If the call has been released, the error that the
callback emits sends nothing. -/
def sendMetadata (responseMetadata : Metadata core) : State core :=
  { s with
    call := s.call.sendMetadata responseMetadata
    metadataOutstanding := s.metadataOutstanding || !s.call.metadataSent && !s.call.released }

end State

variable (deserialize : Option Buffer → Except (ErrorObject core) β)
  (serialize : γ → Except (ErrorObject core) JsValue)

def step (s : State core) : Act core γ → Option (State core)
  | .readCompletes completion =>
      Runs.when (s.readOutstanding = true)
        ({ s with readOutstanding := false }.readCompletes deserialize completion)
  | .cancelCompletes completion =>
      Runs.when (s.cancelOutstanding = true)
        ({ s with cancelOutstanding := false }.cancelCompletes completion)
  | .metadataCompletes completion =>
      Runs.when (s.metadataOutstanding = true)
        ({ s with metadataOutstanding := false }.metadataCompletes completion)
  | .sendMetadata responseMetadata =>
      Runs.when (s.handling = true) (s.sendMetadata responseMetadata)
  | .emitError error => Runs.when (s.handling = true) (s.emitError error)
  | .sendUnaryData err value trailer flags =>
      Runs.when (s.handling = true)
        { s with call := s.call.sendUnaryData serialize err value trailer flags }
  | .releaseCall => some { s with call := { s.call with released := true } }

/-- Somebody reports something that is sent, if it can be. -/
def Reports (s : State core) : Act core γ → Prop
  | .readCompletes (.error _) => True
  | .readCompletes (.result read) => ∃ e, deserialize read = .error e ∧ e.internal.Accepted
  | .cancelCompletes (.error _) | .metadataCompletes (.error _) => True
  | .cancelCompletes (.result _) | .metadataCompletes (.result _) => False
  | .sendMetadata _ => s.call.metadataSent = false
  | .emitError error => error.Accepted
  | .sendUnaryData err value _ _ => DataAccepted serialize err value
  | .releaseCall => False

variable {deserialize serialize}

/-- What one step sends. -/
theorem step_sends {s s' : State core} {a : Act core γ}
    (h : step deserialize serialize s a = some s') :
    ∃ more, Sends s.call s'.call more ∧
      (more ≠ [] ↔ s.call.released = false ∧ Reports deserialize serialize s a) := by
  cases a with
  | readCompletes completion =>
      obtain ⟨-, rfl⟩ := Runs.when_eq_some.mp h
      cases completion with
      | error err => exact sends_addonError s.call err
      | result read =>
          cases hread : deserialize read with
          | error e =>
              obtain ⟨more, hsends, hmore⟩ := sends_handleError s.call e.internal
              refine ⟨more, ?_, hmore.trans (and_congr_right fun _ => ?_)⟩
              · simp only [State.readCompletes, hread]
                exact hsends
              · exact ⟨fun haccepted => ⟨e, hread, haccepted⟩, fun ⟨e', he', haccepted⟩ =>
                  Except.error.inj (hread.symm.trans he') ▸ haccepted⟩
          | ok request =>
              obtain ⟨more, hsends, hmore⟩ : ∃ more, Sends s.call s.call more ∧ _ :=
                sends_silent rfl rfl
              refine ⟨more, ?_, hmore.trans (and_congr_right fun _ => iff_of_false id ?_)⟩
              · simp only [State.readCompletes, hread]
                split <;> exact hsends
              · rintro ⟨e, he, -⟩
                exact absurd (hread.symm.trans he) nofun
  | cancelCompletes completion =>
      obtain ⟨-, rfl⟩ := Runs.when_eq_some.mp h
      cases completion with
      | error err => exact sends_addonError s.call err
      | result cancelled =>
          cases cancelled with
          | true => exact sends_silent rfl rfl
          | false => exact sends_silent rfl rfl
  | metadataCompletes completion =>
      obtain ⟨-, rfl⟩ := Runs.when_eq_some.mp h
      cases completion with
      | error err => exact sends_addonError s.call err
      | result _ => exact sends_silent rfl rfl
  | sendMetadata responseMetadata =>
      obtain ⟨-, rfl⟩ := Runs.when_eq_some.mp h
      exact sends_sendMetadata s.call responseMetadata
  | emitError error =>
      obtain ⟨-, rfl⟩ := Runs.when_eq_some.mp h
      exact sends_handleError s.call error
  | sendUnaryData err value trailer flags =>
      obtain ⟨-, rfl⟩ := Runs.when_eq_some.mp h
      exact sends_sendUnaryData s.call serialize err value trailer flags
  | releaseCall =>
      obtain rfl := Option.some.inj h
      exact sends_silent rfl rfl

end UnaryHandler

/-! ### `handleClientStreaming` -/

namespace ClientStreamHandler

structure State (core : Core) (β : Type*) where
  call : ServerCall core := {}
  stream : ServerReadStream.State core β := {}
  /-- `stream.cancelled` -/
  cancelled : Bool := false
  /-- The batch with `RECV_CLOSE_ON_SERVER` has not completed. -/
  cancelOutstanding : Bool := true
  /-- The batch of `sendMetadata` has not completed. -/
  metadataOutstanding : Bool := false

inductive Act (core : Core) (γ : Type*)
  /-- Anything but the release of the call -/
  | stream (a : ServerReadStream.Act)
  | cancelCompletes (completion : Completion Bool)
  | metadataCompletes (completion : Completion Unit)
  | sendMetadata (responseMetadata : Metadata core)
  | emitError (error : ErrorObject core)
  /-- The callback of the handler -/
  | sendUnaryData (err : Option (ErrorObject core)) (value : γ) (trailer : Option (Metadata core))
      (flags : JsValue)
  | releaseCall

namespace State

variable (s : State core β)

/-- `stream.emit('error', error)` -/
def emitError (error : ErrorObject core) : State core β :=
  { s with call := s.call.handleError error }

/-- What the callback in `waitForCancel` emits -/
def onCancelEvent : CancelEvent → State core β
  | .error err => s.emitError (.ofAddon err)
  | .cancelled => { s with cancelled := true, stream := s.stream.terminate }

/-- The callback in `waitForCancel` -/
def cancelCompletes (completion : Completion Bool) : State core β :=
  (cancelCompletion completion.err? completion.result?).events.foldl onCancelEvent s

/-- The callback in `sendMetadata` -/
def metadataCompletes : Completion Unit → State core β
  | .error err => s.emitError (.ofAddon err)
  | .result _ => s

/-- `stream.sendMetadata(responseMetadata)`. If the call has been released, the error that the
callback emits sends nothing. -/
def sendMetadata (responseMetadata : Metadata core) : State core β :=
  { s with
    call := s.call.sendMetadata responseMetadata
    metadataOutstanding := s.metadataOutstanding || !s.call.metadataSent && !s.call.released }

/-- The stream has gone on, and may have emitted an error. -/
def streamGoesOn (stream : ServerReadStream.State core β) (error : Option (ErrorObject core)) :
    State core β :=
  match error with
  | some e => { s with stream }.emitError e
  | none => { s with stream }

end State

variable (deserialize : Buffer → Except (ErrorObject core) β)
  (serialize : γ → Except (ErrorObject core) JsValue)

def step (s : State core β) : Act core γ → Option (State core β)
  | .stream .releaseCall => none
  | .stream a =>
      (ServerReadStream.step deserialize s.stream a).map fun stream =>
        s.streamGoesOn stream (ServerReadStream.emits deserialize s.stream a)
  | .cancelCompletes completion =>
      Runs.when (s.cancelOutstanding = true)
        ({ s with cancelOutstanding := false }.cancelCompletes completion)
  | .metadataCompletes completion =>
      Runs.when (s.metadataOutstanding = true)
        ({ s with metadataOutstanding := false }.metadataCompletes completion)
  | .sendMetadata responseMetadata => some (s.sendMetadata responseMetadata)
  | .emitError error => some (s.emitError error)
  | .sendUnaryData err value trailer flags =>
      some { s with
        stream := s.stream.terminate
        call := s.call.sendUnaryData serialize err value trailer flags }
  | .releaseCall =>
      (ServerReadStream.step deserialize s.stream .releaseCall).map fun stream =>
        { s with stream, call := { s.call with released := true } }

/-- Somebody reports something that is sent, if it can be. -/
def Reports (s : State core β) : Act core γ → Prop
  | .stream a => ∃ e, ServerReadStream.emits deserialize s.stream a = some e ∧ e.Accepted
  | .cancelCompletes (.error _) | .metadataCompletes (.error _) => True
  | .cancelCompletes (.result _) | .metadataCompletes (.result _) => False
  | .sendMetadata _ => s.call.metadataSent = false
  | .emitError error => error.Accepted
  | .sendUnaryData err value _ _ => DataAccepted serialize err value
  | .releaseCall => False

variable {deserialize serialize}

/-- The step of a stream, if it is one. -/
theorem stream_of_step {s s' : State core β} {a : ServerReadStream.Act}
    (h : step deserialize serialize s (.stream a) = some s') :
    ∃ stream, ServerReadStream.step deserialize s.stream a = some stream ∧
      s' = s.streamGoesOn stream (ServerReadStream.emits deserialize s.stream a) := by
  cases a with
  | releaseCall => exact absurd h nofun
  | _ =>
      simp only [step] at h
      obtain ⟨stream, hstream, rfl⟩ := Option.map_eq_some_iff.mp h
      exact ⟨stream, hstream, rfl⟩

/-- What one step sends. -/
theorem step_sends {s s' : State core β} {a : Act core γ}
    (h : step deserialize serialize s a = some s') :
    ∃ more, Sends s.call s'.call more ∧
      (more ≠ [] ↔ s.call.released = false ∧ Reports deserialize serialize s a) := by
  cases a with
  | stream a =>
      obtain ⟨stream, -, rfl⟩ := stream_of_step h
      cases hemits : ServerReadStream.emits deserialize s.stream a with
      | none =>
          obtain ⟨more, hsends, hmore⟩ : ∃ more, Sends s.call s.call more ∧ _ :=
            sends_silent rfl rfl
          exact ⟨more, hsends, hmore.trans (and_congr_right fun _ => iff_of_false id
            fun ⟨_, he, _⟩ => absurd (hemits.symm.trans he) nofun)⟩
      | some e =>
          obtain ⟨more, hsends, hmore⟩ := sends_handleError s.call e
          refine ⟨more, hsends, hmore.trans (and_congr_right fun _ => ?_)⟩
          exact ⟨fun haccepted => ⟨e, hemits, haccepted⟩, fun ⟨e', he', haccepted⟩ =>
            Option.some.inj (hemits.symm.trans he') ▸ haccepted⟩
  | cancelCompletes completion =>
      obtain ⟨-, rfl⟩ := Runs.when_eq_some.mp h
      cases completion with
      | error err => exact sends_addonError s.call err
      | result cancelled =>
          cases cancelled with
          | true => exact sends_silent rfl rfl
          | false => exact sends_silent rfl rfl
  | metadataCompletes completion =>
      obtain ⟨-, rfl⟩ := Runs.when_eq_some.mp h
      cases completion with
      | error err => exact sends_addonError s.call err
      | result _ => exact sends_silent rfl rfl
  | sendMetadata responseMetadata =>
      obtain rfl := Option.some.inj h
      exact sends_sendMetadata s.call responseMetadata
  | emitError error =>
      obtain rfl := Option.some.inj h
      exact sends_handleError s.call error
  | sendUnaryData err value trailer flags =>
      obtain rfl := Option.some.inj h
      exact sends_sendUnaryData s.call serialize err value trailer flags
  | releaseCall =>
      obtain ⟨stream, -, rfl⟩ := Option.map_eq_some_iff.mp h
      exact sends_silent rfl rfl

end ClientStreamHandler

/-! ### One status a call -/

/-- **One status a call, as long as nobody reports after it.** In every run of either function one
status is sent at most, initial metadata at most once and nothing after the status, if and only if
no step reports anything while a status has been sent and the call has not been released. -/
theorem oneStatus_iff (deserialize : Option Buffer → Except (ErrorObject core) β)
    (deserializeMessage : Buffer → Except (ErrorObject core) β)
    (serialize : γ → Except (ErrorObject core) JsValue) :
    (∀ acts, Runs.Always (UnaryHandler.step deserialize serialize)
        (fun s => OneStatus s.call.ops) {} acts ↔
      Runs.Guarded (UnaryHandler.step deserialize serialize)
        (fun s a => HasStatus s.call.ops → s.call.released = false →
          ¬ UnaryHandler.Reports deserialize serialize s a) {} acts) ∧
    ∀ acts, Runs.Always (ClientStreamHandler.step deserializeMessage serialize)
        (fun s => OneStatus s.call.ops) {} acts ↔
      Runs.Guarded (ClientStreamHandler.step deserializeMessage serialize)
        (fun s a => HasStatus s.call.ops → s.call.released = false →
          ¬ ClientStreamHandler.Reports deserializeMessage serialize s a) {} acts :=
  ⟨always_oneStatus_iff (fun _ _ _ => UnaryHandler.step_sends) marked_new oneStatus_new,
    always_oneStatus_iff (fun _ _ _ => ClientStreamHandler.step_sends) marked_new oneStatus_new⟩

/-- Two statuses: that of a message that cannot be parsed, and that of the response, when the
handler calls its callback all the same. -/
theorem clientStream_twoStatuses :
    ¬ Runs.Always (ClientStreamHandler.step
        (fun _ : Buffer => (.error { message := some (.string "malformed") } :
          Except (ErrorObject Core.ascii) Unit))
        (fun _ : Unit => .ok (.buffer [] [])))
      (fun s => OneStatus s.call.ops) {}
      [.stream .read, .stream (.readCompletes (.message (some [1]))),
        .sendUnaryData none () none .undefined] := by
  intro h
  have hlast := h.last rfl
  have hops := hlast.metadataOnce
  exact absurd hops (by decide)

end GrpcNode.NativeCore
