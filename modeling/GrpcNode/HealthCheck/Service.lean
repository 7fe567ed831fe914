import GrpcNode.HealthCheck.Messages
import GrpcNode.NativeCore.ClientCall
import GrpcNode.NativeCore.Dispatch
import GrpcNode.NativeCore.RemoteCall

/-!
# GrpcNode.HealthCheck.Service

The health service as a server offers it: `HealthService` of `health_grpc_pb.js`, with a
`HealthImplementation` behind it, and a client that calls `check`.

While the call is on its way the server goes on calling `setStatus`. `always_checked` says what the
client hears: the status that was set last when `check` was called, unless the call has failed. The
core and the network are a `Transport`, and `google-protobuf` is a `Jspb`.
-/

namespace GrpcNode.HealthCheck

open GrpcNode.Js
open GrpcNode.JsCore (Status)
open GrpcNode.NativeCore
open HealthCheckRequest (getService)

variable {β ω φ : Type} {μ : Type → Type}

/-! ### The definition -/

/-- The functions that the definition and the implementation consist of -/
inductive HealthFunction
  | serializeHealthCheckRequest
  | deserializeHealthCheckRequest
  | serializeHealthCheckResponse
  | deserializeHealthCheckResponse
  | check
  | setStatus

/-- `HealthService`. Other services of a server have functions, too. -/
def HealthService (functions : HealthFunction → φ) : ServiceDefinition φ := .ofPairs
  [("check", {
    originalName := none
    path := "/grpc.health.v1.Health/Check"
    requestStream := false
    responseStream := false
    requestSerialize := functions .serializeHealthCheckRequest
    requestDeserialize := functions .deserializeHealthCheckRequest
    responseSerialize := functions .serializeHealthCheckResponse
    responseDeserialize := functions .deserializeHealthCheckResponse })]

/-- A `HealthImplementation`, with its other properties -/
def healthImplementation (functions : HealthFunction → φ) (reference : Nat)
    (others : String → ImplementationValue φ) : Implementation φ where
  reference
  get name :=
    if name = "check" then .function (functions .check)
    else if name = "setStatus" then .function (functions .setStatus)
    else others name

/-- A server that has the service among others calls `check` for its path. -/
theorem serves_check (core : Core) {functions : HealthFunction → φ} {reference : Nat}
    {others : String → ImplementationValue φ}
    {services : List (ServiceDefinition φ × Implementation φ)} (hservable : Servable services)
    (hmem : (HealthService functions, healthImplementation functions reference others) ∈ services) :
    (Server.addServices {} services).1.handleNewCall core "/grpc.health.v1.Health/Check" =
      .handler {
        func := .bound (functions .check) reference
        serialize := functions .serializeHealthCheckResponse
        deserialize := functions .deserializeHealthCheckRequest
        type := .unary } := by
  obtain ⟨⟨func, serialize, deserialize, type⟩, hchosen, hcall⟩ :=
    (hservable.serves core).2.methods _ hmem _ List.mem_cons_self
  have hcheck : (healthImplementation functions reference others).get "check" =
      .function (functions .check) := by simp [healthImplementation]
  obtain ⟨func', hfunc, rfl⟩ | ⟨hundefined, -⟩ := hchosen.func
  · obtain rfl := ImplementationValue.function.inj (hcheck.symm.trans hfunc)
    obtain rfl : serialize = _ := hchosen.serialize
    obtain rfl : deserialize = _ := hchosen.deserialize
    obtain rfl : type = _ := hchosen.type
    exact hcall
  · cases hcheck.symm.trans hundefined

/-! ### A call of `check` -/

variable (core : Core) (jspb : Jspb β ω μ)

/-- An exception is an error without a code. -/
def throws {α : Type} (result : Except JsError α) : Except (ErrorObject core) α :=
  result.mapError .ofAddon

/-- `handler.deserialize` -/
def requestDeserialize (read : Option Buffer) : Except (ErrorObject core) (HealthCheckRequest μ) :=
  throws core (deserializeHealthCheckRequest jspb read)

/-- `handler.serialize`, which makes a `Buffer` of the bytes -/
def responseSerialize (value : Option (HealthCheckResponse μ β)) :
    Except (ErrorObject core) JsValue :=
  (throws core (serializeHealthCheckResponse jspb value)).map (.buffer · [])

namespace CheckCall

abbrev Handler (core : Core) (μ : Type → Type) (β : Type) :=
  CallHandler core (UnaryHandler.State core)
    (UnaryHandler.Act core (Option (HealthCheckResponse μ β)))

abbrev Call (core : Core) (μ : Type → Type) (β : Type) :=
  RemoteCall.State core (UnaryHandler.State core) (HealthCheckResponse μ β)

abbrev CallAct (core : Core) (μ : Type → Type) (β : Type) :=
  RemoteCall.Act (UnaryHandler.Act core (Option (HealthCheckResponse μ β)))

/-- `handleUnary` for `check` -/
def handler : Handler core μ β :=
  .unary (requestDeserialize core jspb) (responseSerialize core jspb)

/-- The completion function in `makeUnaryRequest` for `check` -/
def complete : RemoteCall.Complete (HealthCheckResponse μ β) :=
  RemoteCall.completeUnary (deserializeHealthCheckResponse jspb)

/-- What `makeUnaryRequest` starts, for a request without metadata -/
def requestOps (core : Core) (bytes : Buffer) : List CoreOp :=
  match NativeCore.startBatch core
      (ClientCall.unaryBatch (.new : NativeCore.Metadata core) (.buffer bytes [])) with
  | .ok ops => ops
  | .error _ => []

/-- The state of both ends -/
structure State (core : Core) (μ : Type → Type) (β : Type) where
  health : HealthImplementation Int32
  call : Call core μ β := { server := {} }
  /-- The calls of `setStatus` -/
  calls : List (String × Int32) := []
  /-- Those before `check` was called. -/
  checked : Option (List (String × Int32)) := none
  /-- There is `null` in place of the request. -/
  lost : Bool := false
  /-- The errors of the server's batches that have failed -/
  failed : List JsError := []

inductive Act
  | setStatus (service : String) (status : Int32)
  /-- The batch with the request completes with a message. -/
  | requestArrives (bytes : Buffer)
  /-- It completes without one. -/
  | requestLost
  | requestFails (err : JsError)
  | cancelCompletes (cancelled : Bool)
  | cancelFails (err : JsError)
  | releaseCall
  | respond
  | giveUp (response : Response)

variable (transport : Transport) (builtIns : BuiltIns Int32 β) (toPath : String → List String)

namespace State

variable {core} (s : State core μ β)

/-- The call goes on. -/
def goOn (a : CallAct core μ β) : Option (State core μ β) :=
  (RemoteCall.step transport (handler core jspb) (complete jspb) s.call a).map
    fun call => { s with call }

/-- A batch fails. -/
def fails (err : JsError) : State core μ β := { s with failed := s.failed ++ [err] }

/-- `check(call, callback)`, with what it calls the callback with, unless it throws -/
def check (request : HealthCheckRequest μ) :
    Option (UnaryHandler.Act core (Option (HealthCheckResponse μ β))) :=
  match s.health.check builtIns toPath (getService jspb request) with
  | .error _ => none
  | .ok .notFound =>
      some (.sendUnaryData (some { code := some (statusCode .notFound) }) none none .undefined)
  | .ok (.response status) =>
      some (.sendUnaryData none (some (HealthCheckResponse.setStatus jspb (.new jspb) status)) none
        .undefined)

/-- The request that `check` is called with -/
def request : Completion (Option Buffer) → Option (HealthCheckRequest μ)
  | .error _ => none
  | .result read =>
      if s.call.server.cancelled then none else (deserializeHealthCheckRequest jspb read).toOption

/-- `handler.func(emitter, callback)` -/
def callCheck (request : HealthCheckRequest μ) : Option (State core μ β) :=
  let s := { s with checked := some s.calls }
  match s.check jspb builtIns toPath request with
  | none => some s
  | some a => s.goOn jspb transport (.server a)

/-- The callback with the request in `handleUnary` -/
def readCompletes (completion : Completion (Option Buffer)) : Option (State core μ β) :=
  (s.goOn jspb transport (.server (.readCompletes completion))).bind fun s' =>
    match s.request jspb completion with
    | none => some s'
    | some request => s'.callCheck jspb transport builtIns toPath request

end State

variable {core} (request : HealthCheckRequest μ)

/-- The transport decides what arrives of the request. The addon releases a call when its status
has been sent. -/
def step (s : State core μ β) : Act → Option (State core μ β)
  | .setStatus service status =>
      some { s with
        health := s.health.setStatus service status
        calls := s.calls ++ [(service, status)] }
  | .requestArrives bytes =>
      match serializeHealthCheckRequest jspb (some request) with
      | .error _ => none
      | .ok sent =>
          if transport.message (requestOps core sent) 0 bytes then
            s.readCompletes jspb transport builtIns toPath (.result (some bytes))
          else none
  | .requestLost =>
      { s with lost := true }.readCompletes jspb transport builtIns toPath (.result none)
  | .requestFails err => (s.fails err).readCompletes jspb transport builtIns toPath (.error err)
  | .cancelCompletes cancelled =>
      s.goOn jspb transport (.server (.cancelCompletes (.result cancelled)))
  | .cancelFails err =>
      (s.fails err).goOn jspb transport (.server (.cancelCompletes (.error err)))
  | .releaseCall =>
      if (told s.call.said).isSome then s.goOn jspb transport (.server .releaseCall) else none
  | .respond => s.goOn jspb transport .respond
  | .giveUp response => s.goOn jspb transport (.giveUp response)

/-! ### What the client hears -/

/-- The status and the callback's error -/
def failure (code : Status) (details : String) :
    Outcome (ResponseEvent (HealthCheckResponse μ β)) :=
  ⟨[.metadata .empty, .callback (.serviceError details code.toNat (some .empty)),
    .status { code := code.toNat, details, metadata := some .empty }], none⟩

/-- The client hears of a status, or that there is none. -/
inductive Hears (outcome : Outcome (ResponseEvent (HealthCheckResponse μ β))) :
    Answer Int32 β → Prop
  | response {status : Int32} {received : HealthCheckResponse μ β}
      (hstatus : HealthCheckResponse.getStatus jspb received = .status status)
      (houtcome : outcome = ⟨[.metadata .empty, .callback (.value received),
        .status { code := Status.ok.toNat, details := "OK", metadata := some .empty }], none⟩) :
      Hears outcome (.response (.status status))
  | notFound (houtcome : outcome = failure .notFound "Unknown Error") : Hears outcome .notFound

variable (core) in
/-- What the client has heard: that the core gave up, that a batch of the server failed, or what had
been set when `check` was called. -/
def Heard (initial : StatusMap Int32) (failed : List JsError)
    (checked : Option (List (String × Int32)))
    (outcome : Outcome (ResponseEvent (HealthCheckResponse μ β))) : Prop :=
  RemoteCall.GaveUp core transport (complete jspb) outcome ∨
  (∃ err ∈ failed, outcome =
    failure .unknown (copyStringFromSlice (createSliceFromString err.message))) ∨
  ∃ before, checked = some before ∧
    (Answers builtIns toPath initial before (getService jspb request) →
      Hears jspb outcome (expected initial before (getService jspb request)))

/-! ### What the server says -/

/-- An answer of the server means an answer of `check`. -/
def Means (a : NativeCore.Answer core) : Answer Int32 β → Prop
  | .notFound => a = { code := Status.notFound.toNat, details := "Unknown Error", trailer := .new }
  | .response status => ∃ bytes,
      serializeHealthCheckResponse jspb
        (some (HealthCheckResponse.setStatus jspb (.new jspb) status)) = .ok bytes ∧
      a = { message := some bytes, code := Status.ok.toNat, details := "OK", trailer := .new }

/-- The answer that the server makes of an error of the addon -/
def batchFailed (core : Core) (err : JsError) : NativeCore.Answer core :=
  { code := Status.unknown.toNat, details := err.message, trailer := .new }

/-- Something is said because of an error of the addon, or because of `check`. -/
def Explained (initial : StatusMap Int32) (failed : List JsError)
    (checked : Option (List (String × Int32))) (e : Said core) : Prop :=
  (∃ err ∈ failed, e.answer? = some (batchFailed core err)) ∨
  ∃ before a, checked = some before ∧ e.answer? = some a ∧
    (Answers builtIns toPath initial before (getService jspb request) →
      Means jspb a (expected initial before (getService jspb request)))

variable {jspb transport builtIns toPath request}

theorem answer_ofAddon (err : JsError) :
    (ErrorObject.ofAddon err : ErrorObject core).answer = some (batchFailed core err) := rfl

/-- There is nothing illegal in metadata without entries. -/
theorem legalMetadata_new : LegalMetadata core (.new : Metadata core).array :=
  fun _ he => absurd he List.not_mem_nil

theorem complete_failure (code : Status) (hcode : code ≠ .ok) (details : String) :
    complete jspb (NativeCore.Answer.response
      { code := code.toNat, details, trailer := (.new : Metadata core) } .new) =
      failure code (copyStringFromSlice (createSliceFromString details)) := by
  cases code <;> first | rfl | exact absurd rfl hcode

/-- The client takes an answer of the server for what it means. -/
theorem complete_means (hjspb : jspb.Documented) {a : NativeCore.Answer core}
    {answer : Answer Int32 β} (h : Means jspb a answer)
    (hstatus : ∀ value, answer = .response value → ∃ status, value = .status status) :
    Hears jspb (complete jspb (a.response .new)) answer := by
  cases answer with
  | notFound =>
      obtain rfl := h
      refine .notFound ?_
      rw [complete_failure .notFound Status.noConfusion]
      rfl
  | response value =>
      obtain ⟨bytes, hbytes, rfl⟩ := h
      obtain ⟨status, rfl⟩ := hstatus value rfl
      obtain ⟨bytes', hbytes', received, hreceived, hvalue⟩ :=
        healthCheckResponse_roundTrips hjspb status
      obtain rfl := Except.ok.inj (hbytes.symm.trans hbytes')
      refine .response hvalue ?_
      unfold complete RemoteCall.completeUnary unaryCompletion
      simp only [NativeCore.Answer.response, hreceived]
      rfl

theorem expected_status {initial : StatusMap Int32} {before : List (String × Int32)}
    {service : String} {value : Value Int32 β}
    (h : expected initial before service = .response value) : ∃ status, value = .status status := by
  unfold expected at h
  split at h
  · exact ⟨_, (Answer.response.inj h).symm⟩
  · cases h

/-- An answer that means something comes without a trailer. -/
theorem Means.trailer {a : NativeCore.Answer core} {answer : Answer Int32 β}
    (h : Means jspb a answer) : a.trailer = .new := by
  cases answer with
  | notFound =>
      obtain rfl := h
      rfl
  | response value =>
      obtain ⟨bytes, -, rfl⟩ := h
      rfl

section

variable {initial : StatusMap Int32} {failed : List JsError}
  {checked : Option (List (String × Int32))} {e : Said core} {a : NativeCore.Answer core}

/-- What the client hears of an answer that is explained, if it hears of it when it can be sent -/
theorem Explained.heard (hjspb : jspb.Documented)
    (h : Explained jspb builtIns toPath request initial failed checked e)
    (ha : e.answer? = some a) {outcome : Outcome (ResponseEvent (HealthCheckResponse μ β))}
    (houtcome : LegalMetadata core a.trailer.array → outcome = complete jspb (a.response .new)) :
    Heard core jspb transport builtIns toPath request initial failed checked outcome := by
  rcases h with ⟨err, herr, heq⟩ | ⟨before, a', hchecked, heq, hmeans⟩
  · obtain rfl := Option.some.inj (heq.symm.trans ha)
    refine .inr (.inl ⟨err, herr, (houtcome legalMetadata_new).trans ?_⟩)
    exact complete_failure .unknown Status.noConfusion err.message
  · obtain rfl := Option.some.inj (heq.symm.trans ha)
    refine .inr (.inr ⟨before, hchecked, fun hanswers => ?_⟩)
    have hmeans := hmeans hanswers
    rw [houtcome (hmeans.trailer ▸ legalMetadata_new)]
    exact complete_means hjspb hmeans fun value hvalue => expected_status hvalue

/-- It can be sent. -/
theorem Explained.legal
    (h : Explained jspb builtIns toPath request initial failed checked e)
    (ha : e.answer? = some a) {before : List (String × Int32)} (hbefore : checked = some before)
    (hanswers : Answers builtIns toPath initial before (getService jspb request)) :
    LegalMetadata core a.trailer.array := by
  rcases h with ⟨err, -, heq⟩ | ⟨before', a', hchecked, heq, hmeans⟩
  · obtain rfl := Option.some.inj (heq.symm.trans ha)
    exact legalMetadata_new
  · obtain rfl := Option.some.inj (heq.symm.trans ha)
    obtain rfl := Option.some.inj (hchecked.symm.trans hbefore)
    exact (hmeans hanswers).trailer ▸ legalMetadata_new

/-- It stays explained when another batch fails. -/
theorem Explained.fails
    (h : Explained jspb builtIns toPath request initial failed checked e) (err : JsError) :
    Explained jspb builtIns toPath request initial (failed ++ [err]) checked e :=
  h.imp_left fun ⟨err, herr, heq⟩ => ⟨err, List.mem_append_left _ herr, heq⟩

end

/-! ### What is said in a step -/

/-- On a call that has not been released an answer is said, and it opens the call if the flag is not
set. -/
theorem mem_heard {call : ServerCall core} {answer : Option (NativeCore.Answer core)}
    {e : Said core} (h : e ∈ (call.heard answer).toList) :
    call.released = false ∧
      ∃ a, answer = some a ∧ e = .answer a (!call.metadataSent) := by
  unfold ServerCall.heard at h
  split at h
  · cases h
  · rename_i hreleased
    obtain ⟨a, ha, rfl⟩ := Option.map_eq_some_iff.mp (Option.mem_toList.mp h)
    exact ⟨eq_false_of_ne_true hreleased, a, ha, rfl⟩

variable (jspb) in
/-- What the functions of `handleUnary` say to the results of `check`. -/
def checkSaid (call : ServerCall core) : Answer Int32 β → Option (Said core)
  | .notFound => call.heard (some {
      code := Status.notFound.toNat
      details := "Unknown Error"
      trailer := .new })
  | .response value =>
      call.dataSaid (responseSerialize core jspb) none
        (some (HealthCheckResponse.setStatus jspb (.new jspb) value)) none

/-- The callback is called with the result of `check`. -/
theorem check_cases {s : State core μ β} {request : HealthCheckRequest μ}
    {a : UnaryHandler.Act core (Option (HealthCheckResponse μ β))}
    (h : s.check jspb builtIns toPath request = some a) :
    ∃ answer, s.health.check builtIns toPath (getService jspb request) = .ok answer ∧
      (a ≠ .releaseCall ∧ ∀ m, a ≠ .sendMetadata m) ∧
      ∀ server : UnaryHandler.State core,
        (handler core jspb).said server a = checkSaid jspb server.call answer := by
  unfold State.check at h
  split at h
  · cases h
  · rename_i hcheck
    obtain rfl := Option.some.inj h
    exact ⟨_, hcheck, ⟨fun heq => (by cases heq), fun _ heq => (by cases heq)⟩, fun _ => rfl⟩
  · rename_i hcheck
    obtain rfl := Option.some.inj h
    exact ⟨_, hcheck, ⟨fun heq => (by cases heq), fun _ heq => (by cases heq)⟩, fun _ => rfl⟩

theorem check_eq_none {s : State core μ β} {request : HealthCheckRequest μ}
    (h : s.check jspb builtIns toPath request = none) :
    ∃ e, s.health.check builtIns toPath (getService jspb request) = .error e := by
  unfold State.check at h
  split at h
  · exact ⟨_, ‹_›⟩
  · cases h
  · cases h

variable (core) in
theorem responseSerialize_setStatus (hjspb : jspb.Documented) (status : Int32) : ∃ bytes,
    serializeHealthCheckResponse jspb
        (some (HealthCheckResponse.setStatus jspb (.new jspb) (.status status))) = .ok bytes ∧
    responseSerialize core jspb
        (some (HealthCheckResponse.setStatus jspb (.new jspb) (.status status))) =
      .ok (.buffer bytes []) := by
  obtain ⟨bytes, hbytes, -⟩ := healthCheckResponse_roundTrips hjspb status
  refine ⟨bytes, hbytes, ?_⟩
  rw [responseSerialize, hbytes]
  rfl

/-- They say an answer, and if the status is one that has been set, the answer means it. -/
theorem mem_checkSaid (hjspb : jspb.Documented) {call : ServerCall core} {answer : Answer Int32 β}
    {e : Said core} (h : e ∈ (checkSaid jspb call answer).toList) :
    ∃ a, e.answer? = some a ∧
      ((∀ value, answer = .response value → ∃ status, value = .status status) →
        Means jspb a answer) := by
  cases answer with
  | notFound =>
      obtain ⟨-, a, ha, rfl⟩ := mem_heard h
      exact ⟨a, rfl, fun _ => (Option.some.inj ha).symm⟩
  | response value =>
      unfold checkSaid ServerCall.dataSaid at h
      dsimp only at h
      split at h
      · rename_i hthrown
        obtain ⟨-, a, -, rfl⟩ := mem_heard h
        refine ⟨a, rfl, fun hstatus => ?_⟩
        obtain ⟨status, rfl⟩ := hstatus value rfl
        obtain ⟨bytes, -, hbytes⟩ := responseSerialize_setStatus core hjspb status
        cases hthrown.symm.trans hbytes
      · rename_i hserialize
        obtain ⟨-, a, ha, rfl⟩ := mem_heard h
        refine ⟨a, rfl, fun hstatus => ?_⟩
        obtain ⟨status, rfl⟩ := hstatus value rfl
        obtain ⟨bytes, hbytes, hbuffer⟩ := responseSerialize_setStatus core hjspb status
        obtain ⟨rfl, -⟩ := JsValue.buffer.inj (Except.ok.inj (hserialize.symm.trans hbuffer))
        exact ⟨_, hbytes, (Option.some.inj ha).symm⟩
      · cases h

/-- And they say it, unless the call has been released. -/
theorem checkSaid_isSome (hjspb : jspb.Documented) {call : ServerCall core}
    (hreleased : call.released = false) {answer : Answer Int32 β}
    (hstatus : ∀ value, answer = .response value → ∃ status, value = .status status) :
    ∃ a opens, checkSaid jspb call answer = some (.answer a opens) := by
  cases answer with
  | notFound =>
      unfold checkSaid ServerCall.heard
      rw [hreleased]
      exact ⟨_, _, rfl⟩
  | response value =>
      obtain ⟨status, rfl⟩ := hstatus value rfl
      obtain ⟨bytes, -, hbuffer⟩ := responseSerialize_setStatus core hjspb status
      unfold checkSaid ServerCall.dataSaid ServerCall.heard
      simp only [hbuffer, hreleased]
      exact ⟨_, _, rfl⟩

theorem told_isSome {said : List (Said core)} {a : NativeCore.Answer core} {opens : Bool}
    (h : .answer a opens ∈ said) : (told said).isSome := by
  cases said with
  | nil => cases h
  | cons e said =>
      cases e with
      | answer b opens => rfl
      | initialMetadata m =>
          rw [told, Option.isSome_map]
          refine List.findSome?_isSome_iff.mpr ⟨.answer a opens, ?_, rfl⟩
          exact (List.mem_cons.mp h).resolve_left fun heq => by cases heq

/-- The call has been opened by the answer that was said first, if anything has been said. -/
def Opened (said : List (Said core)) : Prop := ∀ e, said.head? = some e → ∃ a, e = .answer a true

/-- Then the first answer is told, with empty initial metadata. -/
theorem told_answer {said : List (Said core)} (hopened : Opened said)
    {t : Option (Metadata core) × NativeCore.Answer core} (h : told said = some t) :
    t.1 = some .new ∧ ∃ e ∈ said, e.answer? = some t.2 := by
  cases said with
  | nil => cases h
  | cons e said =>
      obtain ⟨a, rfl⟩ := hopened e rfl
      obtain rfl := Option.some.inj h
      exact ⟨rfl, _, List.mem_cons_self, rfl⟩

/-! ### The invariant -/

/-- A step of the server -/
theorem goOn_server {s s' : State core μ β}
    {a : UnaryHandler.Act core (Option (HealthCheckResponse μ β))}
    (h : s.goOn jspb transport (.server a) = some s') : ∃ server,
      UnaryHandler.step (requestDeserialize core jspb) (responseSerialize core jspb)
        s.call.server a = some server ∧
      s' = { s with call := { s.call with
        server, said := s.call.said ++ ((handler core jspb).said s.call.server a).toList } } := by
  obtain ⟨call, hcall, rfl⟩ := Option.map_eq_some_iff.mp h
  obtain ⟨server, hserver, rfl⟩ := Option.map_eq_some_iff.mp hcall
  exact ⟨server, hserver, rfl⟩

theorem released_startBatch (call : ServerCall core) (batch : Batch) :
    (call.startBatch batch).released = call.released := by
  unfold ServerCall.startBatch
  split
  · rfl
  · split <;> rfl

theorem metadataSent_startBatch (call : ServerCall core) (batch : Batch) :
    (call.startBatch batch).metadataSent = call.metadataSent := by
  unfold ServerCall.startBatch
  split
  · rfl
  · split <;> rfl

theorem released_sendUnaryData {γ : Type} (call : ServerCall core)
    (serialize : γ → Except (ErrorObject core) JsValue) (err : Option (ErrorObject core))
    (value : γ) (trailer : Option (Metadata core)) (flags : JsValue) :
    (call.sendUnaryData serialize err value trailer flags).released = call.released := by
  cases err with
  | some err => cases trailer <;> exact released_startBatch call _
  | none =>
      simp only [ServerCall.sendUnaryData, ServerCall.sendUnaryResponse]
      split
      · exact released_startBatch call _
      · split
        · rfl
        · exact released_startBatch _ _

/-- The steps of `handleUnary` neither release the call nor wait for the request again. -/
theorem unary_flags {server server' : UnaryHandler.State core}
    {a : UnaryHandler.Act core (Option (HealthCheckResponse μ β))}
    (h : UnaryHandler.step (requestDeserialize core jspb) (responseSerialize core jspb) server a =
      some server')
    (hact : a ≠ .releaseCall) :
    server'.call.released = server.call.released ∧
      (server'.readOutstanding = true → server.readOutstanding = true) := by
  cases a with
  | readCompletes completion =>
      obtain ⟨hread, rfl⟩ := Runs.when_eq_some.mp h
      refine ⟨?_, fun _ => hread⟩
      cases completion with
      | error err => exact released_startBatch _ _
      | result read =>
          simp only [UnaryHandler.State.readCompletes]
          split
          · exact released_startBatch _ _
          · split <;> rfl
  | cancelCompletes completion =>
      obtain ⟨-, rfl⟩ := Runs.when_eq_some.mp h
      cases completion with
      | error err => exact ⟨released_startBatch _ _, id⟩
      | result cancelled => cases cancelled <;> exact ⟨rfl, id⟩
  | metadataCompletes completion =>
      obtain ⟨-, rfl⟩ := Runs.when_eq_some.mp h
      cases completion with
      | error err => exact ⟨released_startBatch _ _, id⟩
      | result _ => exact ⟨rfl, id⟩
  | sendMetadata responseMetadata =>
      obtain ⟨-, rfl⟩ := Runs.when_eq_some.mp h
      refine ⟨?_, id⟩
      simp only [UnaryHandler.State.sendMetadata, ServerCall.sendMetadata]
      split
      · exact released_startBatch _ _
      · rfl
  | emitError error =>
      obtain ⟨-, rfl⟩ := Runs.when_eq_some.mp h
      exact ⟨released_startBatch _ _, id⟩
  | sendUnaryData err value trailer flags =>
      obtain ⟨-, rfl⟩ := Runs.when_eq_some.mp h
      exact ⟨released_sendUnaryData _ _ _ _ _ _, id⟩
  | releaseCall => exact absurd rfl hact

variable (jspb) in
/-- Nothing but answers is said without `sendMetadata`. -/
theorem said_eq_heard (server : UnaryHandler.State core)
    {a : UnaryHandler.Act core (Option (HealthCheckResponse μ β))}
    (ha : ∀ m, a ≠ .sendMetadata m) :
    ∃ answer, (handler core jspb).said server a = server.call.heard answer := by
  have hnone : server.call.heard none = none := by
    unfold ServerCall.heard
    split <;> rfl
  cases a with
  | readCompletes completion =>
      cases completion with
      | error err => exact ⟨_, rfl⟩
      | result read =>
          simp only [handler, CallHandler.unary, CallHandler.unarySaid]
          split
          · exact ⟨_, rfl⟩
          · exact ⟨none, hnone.symm⟩
  | cancelCompletes completion =>
      cases completion with
      | error err => exact ⟨_, rfl⟩
      | result _ => exact ⟨none, hnone.symm⟩
  | metadataCompletes completion =>
      cases completion with
      | error err => exact ⟨_, rfl⟩
      | result _ => exact ⟨none, hnone.symm⟩
  | sendMetadata responseMetadata => exact absurd rfl (ha responseMetadata)
  | emitError error => exact ⟨_, rfl⟩
  | sendUnaryData err value trailer flags =>
      simp only [handler, CallHandler.unary, CallHandler.unarySaid, ServerCall.dataSaid]
      split
      · exact ⟨_, rfl⟩
      · split
        · exact ⟨_, rfl⟩
        · exact ⟨_, rfl⟩
        · exact ⟨none, hnone.symm⟩
  | releaseCall => exact ⟨none, hnone.symm⟩

/-- What is said as long as the call has not been released. -/
theorem heard_eq_none {call : ServerCall core} {answer : Option (NativeCore.Answer core)}
    (hreleased : call.released = false) (h : call.heard answer = none) : answer = none := by
  unfold ServerCall.heard at h
  rw [hreleased] at h
  exact Option.map_eq_none_iff.mp h

/-- A response is serialized to a buffer, or not at all. -/
theorem buffer_of_responseSerialize {value : Option (HealthCheckResponse μ β)} {message : JsValue}
    (h : responseSerialize core jspb value = .ok message) : ∃ bytes, message = .buffer bytes [] := by
  unfold responseSerialize at h
  cases hserialize : throws core (serializeHealthCheckResponse jspb value) with
  | error e =>
      rw [hserialize] at h
      cases h
  | ok bytes =>
      rw [hserialize] at h
      exact ⟨bytes, (Except.ok.inj h).symm⟩

/-- The flag `metadataSent` is not set by a step that says nothing. -/
theorem metadataSent_of_silent {server server' : UnaryHandler.State core}
    {a : UnaryHandler.Act core (Option (HealthCheckResponse μ β))}
    (h : UnaryHandler.step (requestDeserialize core jspb) (responseSerialize core jspb) server a =
      some server')
    (ha : ∀ m, a ≠ .sendMetadata m) (hreleased : server.call.released = false)
    (hsilent : (handler core jspb).said server a = none) :
    server'.call.metadataSent = server.call.metadataSent := by
  cases a with
  | readCompletes completion =>
      obtain ⟨-, rfl⟩ := Runs.when_eq_some.mp h
      cases completion with
      | error err => exact metadataSent_startBatch _ _
      | result read =>
          simp only [UnaryHandler.State.readCompletes]
          split
          · exact metadataSent_startBatch _ _
          · split <;> rfl
  | cancelCompletes completion =>
      obtain ⟨-, rfl⟩ := Runs.when_eq_some.mp h
      cases completion with
      | error err => exact metadataSent_startBatch _ _
      | result cancelled => cases cancelled <;> rfl
  | metadataCompletes completion =>
      obtain ⟨-, rfl⟩ := Runs.when_eq_some.mp h
      cases completion with
      | error err => exact metadataSent_startBatch _ _
      | result _ => rfl
  | sendMetadata responseMetadata => exact absurd rfl (ha responseMetadata)
  | emitError error =>
      obtain ⟨-, rfl⟩ := Runs.when_eq_some.mp h
      exact metadataSent_startBatch _ _
  | sendUnaryData err value trailer flags =>
      obtain ⟨-, rfl⟩ := Runs.when_eq_some.mp h
      cases err with
      | some err => cases trailer <;> exact metadataSent_startBatch _ _
      | none =>
          -- A response would have been said.
          simp only [handler, CallHandler.unary, CallHandler.unarySaid, ServerCall.dataSaid]
            at hsilent
          simp only [ServerCall.sendUnaryData, ServerCall.sendUnaryResponse]
          cases hserialize : responseSerialize core jspb value with
          | error e => exact metadataSent_startBatch _ _
          | ok message =>
              obtain ⟨bytes, rfl⟩ := buffer_of_responseSerialize hserialize
              rw [hserialize] at hsilent
              cases heard_eq_none hreleased hsilent
  | releaseCall =>
      obtain rfl := Option.some.inj h
      rfl

variable (jspb transport builtIns toPath request) in
/-- What holds of the server, of the client, and of what has been said between them. -/
structure Inv (initial : StatusMap Int32) (s : State core μ β) : Prop where
  call : RemoteCall.Inv transport (handler core jspb) (complete jspb) s.call
  health : s.health = (HealthImplementation.new initial).setAll s.calls
  /-- `check` is called with the request, which comes once. -/
  outstanding : s.call.server.readOutstanding = true → s.checked = none
  before : ∀ before, s.checked = some before → before <+: s.calls
  opened : Opened s.call.said
  /-- As long as nothing has been said, no initial metadata have been sent. -/
  unset : s.call.said = [] → s.call.server.call.released = false →
    s.call.server.call.metadataSent = false
  said : s.lost = false →
    ∀ e ∈ s.call.said, Explained jspb builtIns toPath request initial s.failed s.checked e
  released : s.call.server.call.released = true → (told s.call.said).isSome

variable {initial : StatusMap Int32} {s s' : State core μ β}

theorem told_goOn {a : UnaryHandler.Act core (Option (HealthCheckResponse μ β))}
    (hstep : s.goOn jspb transport (.server a) = some s') (h : (told s.call.said).isSome) :
    (told s'.call.said).isSome := by
  obtain ⟨server, -, rfl⟩ := goOn_server hstep
  obtain ⟨t, ht⟩ := Option.isSome_iff_exists.mp h
  rw [told_append ht]
  rfl

/-- What is said first opens the call. -/
theorem Inv.opened_append (h : Inv jspb transport builtIns toPath request initial s)
    {a : UnaryHandler.Act core (Option (HealthCheckResponse μ β))}
    (ha : ∀ m, a ≠ .sendMetadata m) :
    Opened (s.call.said ++ ((handler core jspb).said s.call.server a).toList) := by
  cases hsaid : s.call.said with
  | cons first rest =>
      intro e he
      refine h.opened e ?_
      rw [hsaid]
      exact he
  | nil =>
      obtain ⟨answer, hanswer⟩ := said_eq_heard jspb s.call.server ha
      intro e he
      rw [List.nil_append] at he
      have hmem := List.mem_of_mem_head? he
      rw [hanswer] at hmem
      obtain ⟨hreleased, b, -, rfl⟩ := mem_heard hmem
      rw [h.unset hsaid hreleased]
      exact ⟨b, rfl⟩

/-- The server goes on, and what it says is explained. -/
theorem Inv.goOn (htransport : transport.Documented core)
    (h : Inv jspb transport builtIns toPath request initial s)
    {a : UnaryHandler.Act core (Option (HealthCheckResponse μ β))}
    (hstep : s.goOn jspb transport (.server a) = some s') (ha : ∀ m, a ≠ .sendMetadata m)
    (hsaid : s.lost = false → ∀ e ∈ ((handler core jspb).said s.call.server a).toList,
      Explained jspb builtIns toPath request initial s.failed s.checked e)
    (hrelease : a = .releaseCall → (told s.call.said).isSome) :
    Inv jspb transport builtIns toPath request initial s' := by
  obtain ⟨call, hcall, heq⟩ := Option.map_eq_some_iff.mp hstep
  have hinv := h.call.step htransport hcall
  have htold := told_goOn hstep
  obtain ⟨server, hserver, rfl⟩ := goOn_server hstep
  obtain rfl : call = _ := congrArg State.call heq
  have hflags : (server.call.released = true → (told s.call.said).isSome) ∧
      (server.call.released = false → s.call.server.call.released = false) ∧
      (server.readOutstanding = true → s.call.server.readOutstanding = true) := by
    by_cases hact : a = .releaseCall
    · subst hact
      obtain rfl := Option.some.inj hserver
      exact ⟨fun _ => hrelease rfl, fun hreleased => (by cases hreleased), id⟩
    · obtain ⟨hreleased, houtstanding⟩ := unary_flags hserver hact
      exact ⟨fun hrel => h.released (hreleased.symm.trans hrel), hreleased.symm.trans,
        houtstanding⟩
  exact {
    call := hinv
    health := h.health
    outstanding := fun hread => h.outstanding (hflags.2.2 hread)
    before := h.before
    opened := h.opened_append ha
    unset := fun hnone hreleased => by
      obtain ⟨hbefore, hsilent⟩ := List.append_eq_nil_iff.mp hnone
      have hreleased' := hflags.2.1 hreleased
      rw [metadataSent_of_silent hserver ha hreleased' (Option.toList_eq_nil_iff.mp hsilent)]
      exact h.unset hbefore hreleased'
    said := fun hlost e he => (List.mem_append.mp he).elim (h.said hlost e) (hsaid hlost e)
    released := fun hreleased => htold (hflags.1 hreleased) }

variable (jspb builtIns toPath request initial s) in
/-- If `check` has been called with the request, there is an answer. -/
def Answered : Prop :=
  s.lost = false → ∀ before, s.checked = some before →
    Answers builtIns toPath initial before (getService jspb request) → (told s.call.said).isSome

/-- `check` is called. -/
theorem Inv.callCheck (hjspb : jspb.Documented) (htransport : transport.Documented core)
    (h : Inv jspb transport builtIns toPath request initial s)
    (houtstanding : s.call.server.readOutstanding = false) (hchecked : s.checked = none)
    {received : HealthCheckRequest μ}
    (hservice : s.lost = false → getService jspb received = getService jspb request)
    (hstep : s.callCheck jspb transport builtIns toPath received = some s') :
    Inv jspb transport builtIns toPath request initial s' ∧
      Answered jspb builtIns toPath request initial s' := by
  have hnone : ∀ {before}, s.checked ≠ some before := fun hsome =>
    absurd (hchecked.symm.trans hsome) (Option.some_ne_none _).symm
  -- When the callback has not been called yet
  have hchecking : Inv jspb transport builtIns toPath request initial
      { s with checked := some s.calls } :=
    { h with
      outstanding := fun hread => absurd (houtstanding.symm.trans hread) Bool.false_ne_true
      before := fun before hbefore => Option.some.inj hbefore ▸ List.prefix_rfl
      said := fun hlost e he => (h.said hlost e he).imp_right fun ⟨_, _, hsome, _⟩ =>
        absurd hsome hnone }
  have hanswer : s.lost = false →
      Answers builtIns toPath initial s.calls (getService jspb request) →
      s.health.check builtIns toPath (getService jspb received) =
        .ok (expected initial s.calls (getService jspb request)) := by
    intro hlost hanswers
    rw [h.health, hservice hlost]
    exact hanswers
  unfold State.callCheck at hstep
  dsimp only at hstep
  cases hcheck : State.check jspb builtIns toPath { s with checked := some s.calls } received with
  | none =>
      rw [hcheck] at hstep
      obtain rfl := Option.some.inj hstep
      refine ⟨hchecking, fun hlost before hbefore hanswers => ?_⟩
      obtain rfl := Option.some.inj hbefore
      obtain ⟨e, he⟩ := check_eq_none hcheck
      cases he.symm.trans (hanswer hlost hanswers)
  | some a =>
      rw [hcheck] at hstep
      obtain ⟨answer, hok, ⟨hrelease, hmetadata⟩, hsaid⟩ := check_cases hcheck
      have hexpected : s.lost = false →
          Answers builtIns toPath initial s.calls (getService jspb request) →
          answer = expected initial s.calls (getService jspb request) := fun hlost hanswers =>
        Except.ok.inj (hok.symm.trans (hanswer hlost hanswers))
      refine ⟨hchecking.goOn htransport hstep hmetadata (fun hlost e he => ?_)
        (fun hact => absurd hact hrelease), fun hlost before hbefore hanswers => ?_⟩
      · rw [hsaid] at he
        obtain ⟨x, hx, hmeans⟩ := mem_checkSaid hjspb he
        refine .inr ⟨s.calls, x, rfl, hx, fun hanswers => ?_⟩
        obtain rfl := hexpected hlost hanswers
        exact hmeans fun value hvalue => expected_status hvalue
      · obtain ⟨server, -, rfl⟩ := goOn_server hstep
        obtain rfl := Option.some.inj hbefore
        cases hreleased : s.call.server.call.released with
        | true => exact told_goOn hstep (h.released hreleased)
        | false =>
            obtain rfl := hexpected hlost hanswers
            obtain ⟨x, opens, hx⟩ := checkSaid_isSome hjspb hreleased
              fun value hvalue => expected_status hvalue
            refine told_isSome (List.mem_append_right _ (?_ : Said.answer x opens ∈ _))
            rw [hsaid, hx]
            exact List.mem_singleton_self _

/-- A batch fails. -/
theorem Inv.fails (h : Inv jspb transport builtIns toPath request initial s) (err : JsError) :
    Inv jspb transport builtIns toPath request initial (s.fails err) :=
  { h with said := fun hlost e he => (h.said hlost e he).fails err }

/-- An error of the addon is passed on. -/
theorem explained_ofAddon {call : ServerCall core} {err : JsError} {failed : List JsError}
    (herr : err ∈ failed) {checked : Option (List (String × Int32))} {e : Said core}
    (h : e ∈ (call.errorSaid (.ofAddon err)).toList) :
    Explained jspb builtIns toPath request initial failed checked e := by
  obtain ⟨-, a, ha, rfl⟩ := mem_heard h
  obtain rfl := Option.some.inj ((answer_ofAddon err).symm.trans ha)
  exact .inl ⟨err, herr, rfl⟩

/-- The batch with the request completes: with the request itself, if it has not been lost. -/
theorem Inv.readCompletes (hjspb : jspb.Documented) (htransport : transport.Documented core)
    (h : Inv jspb transport builtIns toPath request initial s)
    {completion : Completion (Option Buffer)}
    (harrives : s.lost = false → ∀ read, completion = .result read → ∃ received,
      deserializeHealthCheckRequest jspb read = .ok received ∧
        getService jspb received = getService jspb request)
    (hfails : ∀ err, completion = .error err → err ∈ s.failed)
    (hstep : s.readCompletes jspb transport builtIns toPath completion = some s') :
    Inv jspb transport builtIns toPath request initial s' ∧
      Answered jspb builtIns toPath request initial s' := by
  obtain ⟨s₁, hread, hcall⟩ := Option.bind_eq_some_iff.mp hstep
  have hsaid : s.lost = false →
      ∀ e ∈ ((handler core jspb).said s.call.server (.readCompletes completion)).toList,
        Explained jspb builtIns toPath request initial s.failed s.checked e := by
    intro hlost e he
    cases completion with
    | error err => exact explained_ofAddon (hfails err rfl) he
    | result read =>
        obtain ⟨received, hreceived, -⟩ := harrives hlost read rfl
        have hsilent : (handler core jspb).said s.call.server (.readCompletes (.result read)) =
            none := by
          simp only [handler, CallHandler.unary, CallHandler.unarySaid, requestDeserialize,
            hreceived]
          rfl
        rw [hsilent] at he
        cases he
  have hinv := h.goOn htransport hread (fun _ heq => by cases heq) hsaid
    fun hrelease => by cases hrelease
  obtain ⟨server, hserver, rfl⟩ := goOn_server hread
  obtain ⟨houtstanding, hserver⟩ := Runs.when_eq_some.mp hserver
  have hchecked := h.outstanding houtstanding
  have hdone : server.readOutstanding = false := by
    rw [← hserver]
    cases completion with
    | error err => rfl
    | result read =>
        simp only [UnaryHandler.State.readCompletes]
        split
        · rfl
        · split <;> rfl
  cases hrequest : s.request jspb completion with
  | none =>
      rw [hrequest] at hcall
      obtain rfl := Option.some.inj hcall
      exact ⟨hinv, fun _ before hbefore => absurd (hchecked.symm.trans hbefore)
        (Option.some_ne_none _).symm⟩
  | some received =>
      rw [hrequest] at hcall
      refine hinv.callCheck hjspb htransport hdone hchecked (fun hlost => ?_) hcall
      cases completion with
      | error err => cases hrequest
      | result read =>
          obtain ⟨received', hreceived, hservice⟩ := harrives hlost read rfl
          simp only [State.request, hreceived] at hrequest
          split at hrequest
          · cases hrequest
          · obtain rfl := Option.some.inj hrequest
            exact hservice

theorem Answered.goOn (h : Answered jspb builtIns toPath request initial s)
    {a : UnaryHandler.Act core (Option (HealthCheckResponse μ β))}
    (hstep : s.goOn jspb transport (.server a) = some s') :
    Answered jspb builtIns toPath request initial s' := by
  have htold := told_goOn hstep
  obtain ⟨server, -, rfl⟩ := goOn_server hstep
  exact fun hlost before hbefore hanswers => htold (h hlost before hbefore hanswers)

theorem setAll_append (health : HealthImplementation Int32) (calls : List (String × Int32))
    (service : String) (status : Int32) :
    health.setAll (calls ++ [(service, status)]) = (health.setAll calls).setStatus service status :=
  List.foldl_append

/-- The request is the only message that the client sends. -/
theorem messages_requestOps (core : Core) (bytes : Buffer) :
    (requestOps core bytes).filterMap CoreOp.message? = [bytes] := rfl

/-- There is nothing illegal in what the client starts. -/
theorem legal_requestOps (core : Core) (bytes : Buffer) :
    ∀ op ∈ requestOps core bytes, op.Legal core := by
  obtain ⟨flags, hops, hflags⟩ : ∃ flags, requestOps core bytes = [.sendInitialMetadata [],
      .sendMessage bytes flags, .sendCloseFromClient, .recvInitialMetadata, .recvMessage,
      .recvStatusOnClient] ∧ flags &&& core.writeUsedMask = flags := by
    refine ⟨_, rfl, ?_⟩
    rw [Nat.and_assoc, Nat.and_self]
  intro op hop
  rw [hops] at hop
  simp only [List.mem_cons, List.not_mem_nil, or_false] at hop
  rcases hop with rfl | rfl | rfl | rfl | rfl | rfl
  · exact fun _ he => absurd he List.not_mem_nil
  · exact hflags
  all_goals trivial

theorem inv_step (hjspb : jspb.Documented) (htransport : transport.Documented core) {a : Act}
    (h : Inv jspb transport builtIns toPath request initial s ∧
      Answered jspb builtIns toPath request initial s)
    (hstep : step jspb transport builtIns toPath request s a = some s') :
    Inv jspb transport builtIns toPath request initial s' ∧
      Answered jspb builtIns toPath request initial s' := by
  obtain ⟨h, hanswered⟩ := h
  cases a with
  | setStatus service status =>
      obtain rfl := Option.some.inj hstep
      refine ⟨{ h with health := ?_, before := ?_ }, hanswered⟩
      · rw [h.health, setAll_append]
      · exact fun before hbefore => (h.before before hbefore).trans (List.prefix_append _ _)
  | requestArrives bytes =>
      obtain ⟨sent, hsent, received, hreceived, hservice⟩ :=
        healthCheckRequest_roundTrips hjspb request
      simp only [step, hsent] at hstep
      split at hstep
      · rename_i hmessage
        have hnext := htransport.inOrder hmessage
        rw [messages_requestOps] at hnext
        obtain rfl : sent = bytes := Option.some.inj hnext
        refine h.readCompletes hjspb htransport (fun _ read hread => ?_)
          (fun err herr => by cases herr) hstep
        obtain rfl := Completion.result.inj hread
        exact ⟨received, hreceived, hservice⟩
      · cases hstep
  | requestLost =>
      have hlost : Inv jspb transport builtIns toPath request initial { s with lost := true } :=
        { h with said := fun hfalse => absurd hfalse.symm Bool.false_ne_true }
      exact hlost.readCompletes hjspb htransport
        (fun hfalse => absurd hfalse.symm Bool.false_ne_true) (fun err herr => by cases herr) hstep
  | requestFails err =>
      refine (h.fails err).readCompletes hjspb htransport (fun _ read hread => by cases hread)
        (fun err' herr => ?_) hstep
      obtain rfl := Completion.error.inj herr
      exact List.mem_append_right _ (List.mem_singleton_self _)
  | cancelCompletes cancelled =>
      refine ⟨h.goOn htransport hstep (fun _ heq => by cases heq) (fun _ e he => ?_)
        (fun hrelease => by cases hrelease), hanswered.goOn hstep⟩
      cases he
  | cancelFails err =>
      refine ⟨(h.fails err).goOn htransport hstep (fun _ heq => by cases heq) (fun _ e he => ?_)
        (fun hrelease => by cases hrelease), Answered.goOn (s := s.fails err) hanswered hstep⟩
      exact explained_ofAddon (List.mem_append_right _ (List.mem_singleton_self _)) he
  | releaseCall =>
      simp only [step] at hstep
      split at hstep
      · rename_i htold
        refine ⟨h.goOn htransport hstep (fun _ heq => by cases heq) (fun _ e he => ?_)
          (fun _ => htold), hanswered.goOn hstep⟩
        cases he
      · cases hstep
  | respond =>
      obtain ⟨call, hcall, rfl⟩ := Option.map_eq_some_iff.mp hstep
      have hinv := h.call.step htransport hcall
      simp only [RemoteCall.step] at hcall
      split at hcall
      · cases hcall
      · obtain ⟨response, -, rfl⟩ := Option.map_eq_some_iff.mp hcall
        exact ⟨{ h with call := hinv }, hanswered⟩
  | giveUp response =>
      obtain ⟨call, hcall, rfl⟩ := Option.map_eq_some_iff.mp hstep
      have hinv := h.call.step htransport hcall
      obtain ⟨-, rfl⟩ := Runs.when_eq_some.mp hcall
      exact ⟨{ h with call := hinv }, hanswered⟩

/-- What has been said is what the client has heard. -/
theorem Inv.heard (hjspb : jspb.Documented)
    (h : Inv jspb transport builtIns toPath request initial s) (hlost : s.lost = false)
    {outcome : Outcome (ResponseEvent (HealthCheckResponse μ β))}
    (houtcome : s.call.client = some outcome) :
    Heard core jspb transport builtIns toPath request initial s.failed s.checked outcome := by
  rcases h.call.heard outcome houtcome with hgaveUp | ⟨t, htold, hresponse⟩
  · exact .inl hgaveUp
  · obtain ⟨hmetadata, e, he, ht⟩ := told_answer h.opened htold
    exact (h.said hlost e he).heard hjspb ht fun htrailer =>
      hresponse .new ⟨hmetadata, legalMetadata_new, htrailer⟩

/-! ### Progress -/

variable (jspb transport) in
theorem goOn_of_step (s : State core μ β)
    {a : UnaryHandler.Act core (Option (HealthCheckResponse μ β))}
    {server : UnaryHandler.State core}
    (h : UnaryHandler.step (requestDeserialize core jspb) (responseSerialize core jspb)
      s.call.server a = some server) :
    s.goOn jspb transport (.server a) = some { s with call := { s.call with
      server, said := s.call.said ++ ((handler core jspb).said s.call.server a).toList } } := by
  have hstep : (handler core jspb).step s.call.server a = some server := h
  simp only [State.goOn, RemoteCall.step, hstep, Option.map_some]

variable (jspb transport builtIns toPath) in
/-- `check` can be called when the handler is called. -/
theorem callCheck_isSome {s : State core μ β} (hhandling : s.call.server.handling = true)
    (received : HealthCheckRequest μ) : ∃ s',
      s.callCheck jspb transport builtIns toPath received = some s' ∧
        s'.checked = some s.calls := by
  unfold State.callCheck
  dsimp only
  cases hcheck : State.check jspb builtIns toPath { s with checked := some s.calls } received with
  | none => exact ⟨_, rfl, rfl⟩
  | some a =>
      unfold State.check at hcheck
      split at hcheck
      · cases hcheck
      all_goals
        obtain rfl := Option.some.inj hcheck
        exact ⟨_, goOn_of_step jspb transport _ (Runs.when_eq_some.mpr ⟨hhandling, rfl⟩), rfl⟩

/-- The request can arrive, and then `check` is called, if the call has not been cancelled. -/
theorem requestArrives_isSome (hjspb : jspb.Documented) (htransport : transport.Documented core)
    (houtstanding : s.call.server.readOutstanding = true) : ∃ bytes s',
      step jspb transport builtIns toPath request s (.requestArrives bytes) = some s' ∧
        (s.call.server.cancelled = false → s'.checked = some s.calls) := by
  obtain ⟨bytes, hbytes, received, hreceived, -⟩ := healthCheckRequest_roundTrips hjspb request
  have hmessage : transport.message (requestOps core bytes) 0 bytes = true :=
    htransport.arrives (legal_requestOps core bytes) rfl
  have hread : requestDeserialize core jspb (some bytes) = .ok received := by
    rw [requestDeserialize, hreceived]
    rfl
  have hgoOn := goOn_of_step jspb transport s (a := .readCompletes (.result (some bytes)))
    (Runs.when_eq_some.mpr ⟨houtstanding, rfl⟩)
  refine ⟨bytes, ?_⟩
  simp only [step, hbytes, hmessage, if_true, State.readCompletes, hgoOn, Option.bind_some,
    State.request, hreceived]
  cases hcancelled : s.call.server.cancelled with
  | true => exact ⟨_, rfl, fun hfalse => absurd hfalse.symm Bool.false_ne_true⟩
  | false =>
      let called : State core μ β := { s with call := { s.call with
        server := { s.call.server with readOutstanding := false, handling := true }
        said := s.call.said ++ ((handler core jspb).said s.call.server
          (.readCompletes (.result (some bytes)))).toList } }
      obtain ⟨s', hs', hchecked⟩ :=
        callCheck_isSome jspb transport builtIns toPath (s := called) rfl received
      refine ⟨s', ?_, fun _ => hchecked⟩
      simpa [called, UnaryHandler.State.readCompletes, Except.toOption, hread, hcancelled] using hs'

/-! ### The main result -/

variable (jspb transport builtIns toPath request) in
/-- **A health check.** The client hears of the status at the time when `check` was called, unless
the core gave up, lost the request, or failed in a batch of the server. If no such thing happens, it
will hear. -/
structure Checked (initial : StatusMap Int32) (s : State core μ β) : Prop where
  heard : s.lost = false → ∀ outcome, s.call.client = some outcome →
    Heard core jspb transport builtIns toPath request initial s.failed s.checked outcome
  before : ∀ before, s.checked = some before → before <+: s.calls
  arrives : s.call.server.readOutstanding = true → ∃ bytes s',
    step jspb transport builtIns toPath request s (.requestArrives bytes) = some s' ∧
      (s.call.server.cancelled = false → s'.checked = some s.calls)
  answered : s.lost = false → s.call.client = none → ∀ before, s.checked = some before →
    Answers builtIns toPath initial before (getService jspb request) → ∃ s',
      step jspb transport builtIns toPath request s .respond = some s' ∧ s'.call.client.isSome

theorem Inv.checked (hjspb : jspb.Documented) (htransport : transport.Documented core)
    (h : Inv jspb transport builtIns toPath request initial s)
    (hanswered : Answered jspb builtIns toPath request initial s) :
    Checked jspb transport builtIns toPath request initial s where
  heard hlost _ houtcome := h.heard hjspb hlost houtcome
  before := h.before
  arrives := requestArrives_isSome hjspb htransport
  answered hlost hclient before hbefore hanswers := by
    obtain ⟨t, htold⟩ := Option.isSome_iff_exists.mp (hanswered hlost before hbefore hanswers)
    obtain ⟨hmetadata, e, he, ht⟩ := told_answer h.opened htold
    have hsendable : Sendable t .new :=
      ⟨hmetadata, legalMetadata_new, (h.said hlost e he).legal ht hbefore hanswers⟩
    obtain ⟨call, hcall, hheard⟩ := h.call.answered htransport hclient htold hsendable
    refine ⟨{ s with call }, ?_, hheard⟩
    simp only [step, State.goOn, hcall]
    rfl

/-- Members have their names as values, and no members. -/
def memberNames : BuiltIns Int32 String where
  ofObject name := name
  ofStatus _ _ := .ok none
  ofBuiltIn _ _ := .ok none

/-- The request for the service `a` -/
def requestA : HealthCheckRequest Option :=
  HealthCheckRequest.setService (.wire String) (.new (.wire String)) "a"

/-- The status changes before `check` is called, and after it. -/
def checkA : List Act :=
  [.setStatus "a" 1, .requestArrives [10, 1, 97], .setStatus "a" 2, .respond]

end CheckCall

end GrpcNode.HealthCheck
