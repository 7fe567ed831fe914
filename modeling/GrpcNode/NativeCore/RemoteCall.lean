import GrpcNode.NativeCore.Answers

/-!
# GrpcNode.NativeCore.RemoteCall

A call with one response, with both of its ends: the handler of the server, `handleUnary` or
`handleClientStreaming`, and the completion function of the client, `makeUnaryRequest`'s or
`makeClientStreamRequest`'s. Between them is a `Transport`, which takes the batches of the server
and completes the batch of the client, and which may give up at any time.

Each end is a program of its own that may go on after the call is over. `always_remoteCall` says
that together they are a remote call: the client hears once, and what it hears is the first answer
of the server.
-/

namespace GrpcNode.NativeCore

open GrpcNode.Js
open GrpcNode.JsCore (MetadataObject Status)

variable {core : Core}

/-- A function of the server that handles calls with one response. -/
structure CallHandler (core : Core) (σ α : Type*) where
  step : σ → α → Option σ
  call : σ → ServerCall core
  /-- What a step says. -/
  said : σ → α → Option (Said core)
  speaks : ∀ {s a s'}, step s a = some s' → Speaks (call s) (call s') (said s a)

namespace CallHandler

variable {β γ : Type*}

/-- What the callbacks say to an error of the addon. -/
def completionSaid {ρ : Type*} (call : ServerCall core) : Completion ρ → Option (Said core)
  | .error err => call.errorSaid (.ofAddon err)
  | .result _ => none

/-- What a step of `handleUnary` says. -/
def unarySaid (deserialize : Option Buffer → Except (ErrorObject core) β)
    (serialize : γ → Except (ErrorObject core) JsValue) (s : UnaryHandler.State core) :
    UnaryHandler.Act core γ → Option (Said core)
  | .readCompletes (.error err) => s.call.errorSaid (.ofAddon err)
  | .readCompletes (.result read) =>
      match deserialize read with
      | .error e => s.call.errorSaid e.internal
      | .ok _ => none
  | .cancelCompletes completion => completionSaid s.call completion
  | .metadataCompletes completion => completionSaid s.call completion
  | .sendMetadata responseMetadata => s.call.metadataSaid responseMetadata
  | .emitError error => s.call.errorSaid error
  | .sendUnaryData err value trailer _ => s.call.dataSaid serialize err value trailer
  | .releaseCall => none

/-- What a step of `handleClientStreaming` says. -/
def clientStreamSaid (deserialize : Buffer → Except (ErrorObject core) β)
    (serialize : γ → Except (ErrorObject core) JsValue) (s : ClientStreamHandler.State core β) :
    ClientStreamHandler.Act core γ → Option (Said core)
  | .stream a => (ServerReadStream.emits deserialize s.stream a).bind s.call.errorSaid
  | .cancelCompletes completion => completionSaid s.call completion
  | .metadataCompletes completion => completionSaid s.call completion
  | .sendMetadata responseMetadata => s.call.metadataSaid responseMetadata
  | .emitError error => s.call.errorSaid error
  | .sendUnaryData err value trailer _ => s.call.dataSaid serialize err value trailer
  | .releaseCall => none

/-- A step that does not touch the batches -/
theorem speaks_silent {call call' : ServerCall core} (hstarted : call'.started = call.started)
    (hsent : call'.metadataSent = call.metadataSent) : Speaks call call' none :=
  .silent hstarted fun h => hsent.trans h

/-- `handleUnary` -/
def unary (deserialize : Option Buffer → Except (ErrorObject core) β)
    (serialize : γ → Except (ErrorObject core) JsValue) :
    CallHandler core (UnaryHandler.State core) (UnaryHandler.Act core γ) where
  step := UnaryHandler.step deserialize serialize
  call := UnaryHandler.State.call
  said := unarySaid deserialize serialize
  speaks := by
    intro s a s' h
    cases a with
    | readCompletes completion =>
        obtain ⟨-, rfl⟩ := Runs.when_eq_some.mp h
        cases completion with
        | error err => exact speaks_handleError s.call (.ofAddon err)
        | result read =>
            simp only [unarySaid, UnaryHandler.State.readCompletes]
            cases deserialize read with
            | error e => exact speaks_handleError s.call e.internal
            | ok request => dsimp only; split <;> exact speaks_silent rfl rfl
    | cancelCompletes completion =>
        obtain ⟨-, rfl⟩ := Runs.when_eq_some.mp h
        cases completion with
        | error err => exact speaks_handleError s.call (.ofAddon err)
        | result cancelled => cases cancelled <;> exact speaks_silent rfl rfl
    | metadataCompletes completion =>
        obtain ⟨-, rfl⟩ := Runs.when_eq_some.mp h
        cases completion with
        | error err => exact speaks_handleError s.call (.ofAddon err)
        | result _ => exact speaks_silent rfl rfl
    | sendMetadata responseMetadata =>
        obtain ⟨-, rfl⟩ := Runs.when_eq_some.mp h
        exact speaks_sendMetadata s.call responseMetadata
    | emitError error =>
        obtain ⟨-, rfl⟩ := Runs.when_eq_some.mp h
        exact speaks_handleError s.call error
    | sendUnaryData err value trailer flags =>
        obtain ⟨-, rfl⟩ := Runs.when_eq_some.mp h
        exact speaks_sendUnaryData s.call serialize err value trailer flags
    | releaseCall =>
        obtain rfl := Option.some.inj h
        exact speaks_silent rfl rfl

/-- `handleClientStreaming` -/
def clientStream (deserialize : Buffer → Except (ErrorObject core) β)
    (serialize : γ → Except (ErrorObject core) JsValue) :
    CallHandler core (ClientStreamHandler.State core β) (ClientStreamHandler.Act core γ) where
  step := ClientStreamHandler.step deserialize serialize
  call := ClientStreamHandler.State.call
  said := clientStreamSaid deserialize serialize
  speaks := by
    intro s a s' h
    cases a with
    | stream a =>
        obtain ⟨stream, -, rfl⟩ := ClientStreamHandler.stream_of_step h
        simp only [clientStreamSaid]
        cases ServerReadStream.emits deserialize s.stream a with
        | none => exact speaks_silent rfl rfl
        | some e => exact speaks_handleError s.call e
    | cancelCompletes completion =>
        obtain ⟨-, rfl⟩ := Runs.when_eq_some.mp h
        cases completion with
        | error err => exact speaks_handleError s.call (.ofAddon err)
        | result cancelled => cases cancelled <;> exact speaks_silent rfl rfl
    | metadataCompletes completion =>
        obtain ⟨-, rfl⟩ := Runs.when_eq_some.mp h
        cases completion with
        | error err => exact speaks_handleError s.call (.ofAddon err)
        | result _ => exact speaks_silent rfl rfl
    | sendMetadata responseMetadata =>
        obtain rfl := Option.some.inj h
        exact speaks_sendMetadata s.call responseMetadata
    | emitError error =>
        obtain rfl := Option.some.inj h
        exact speaks_handleError s.call error
    | sendUnaryData err value trailer flags =>
        obtain rfl := Option.some.inj h
        exact speaks_sendUnaryData s.call serialize err value trailer flags
    | releaseCall =>
        obtain ⟨stream, -, rfl⟩ := Option.map_eq_some_iff.mp h
        exact speaks_silent rfl rfl

end CallHandler

/-! ### Both ends -/

namespace RemoteCall

variable {σ α β ε : Type*}

/-- The state of both ends -/
structure State (core : Core) (σ β : Type*) where
  server : σ
  /-- What the server has said. -/
  said : List (Said core) := []
  /-- The completion function has been called. -/
  client : Option (Outcome (ResponseEvent β)) := none

inductive Act (α : Type*)
  /-- The server does something. -/
  | server (a : α)
  /-- The response is complete. -/
  | respond
  /-- The core gives up, with what has arrived of a response and a status of its own. -/
  | giveUp (response : Response)

/-- The completion function of a client, when the batch has succeeded. -/
abbrev Complete (β : Type*) := UnaryResponse → Outcome (ResponseEvent β)

/-- The client hears once, since its batch completes once. -/
def step (transport : Transport) (handler : CallHandler core σ α) (complete : Complete β)
    (s : State core σ β) : Act α → Option (State core σ β)
  | .server a => (handler.step s.server a).map fun server =>
      { s with server, said := s.said ++ (handler.said s.server a).toList }
  | .respond =>
      if s.client.isSome then none
      else (transport.response (transport.taken (handler.call s.server).started)).map
        fun response => { s with client := some (complete (response.value core)) }
  | .giveUp response =>
      Runs.when (s.client.isNone = true ∧ transport.failure response.status = true)
        { s with client := some (complete (response.value core)) }

/-- `makeUnaryRequest` -/
def completeUnary (deserialize : Option Buffer → Except ε β) : Complete β :=
  fun response => unaryCompletion deserialize none (some response)

/-- `makeClientStreamRequest` -/
def completeClientStream (deserialize : Option Buffer → Except ε β) : Complete β :=
  fun response => clientStreamCompletion deserialize none (some ⟨response.read, response.status⟩)

/-! ### What a client should hear -/

/-- The object has the entries of the metadata. -/
def Conveys (m : Metadata core) (object : MetadataObject) : Prop :=
  ∀ key, object.own.lookup key = m.internalRepr.own.lookup key

/-- What an answer means: the arguments of the callback, and the status. The first argument is the
message of a failure to parse. -/
def result (unparsed : String) (deserialize : Option Buffer → Except ε β) (a : Answer core)
    (trailer : MetadataObject) : CallbackArguments β × CallStatus :=
  let status : CallStatus := { code := a.code, details := a.details, metadata := some trailer }
  if a.code = Status.ok.toNat then
    match deserialize a.message with
    | .ok value => (.value value, status)
    | .error _ => (.serviceError unparsed parseFailure.code none, parseFailure)
  else (.serviceError a.details a.code (some trailer), status)

/-- The client hears an answer: the callback is called once, and then there is the status. -/
structure Hears (unparsed : Answer core → String) (deserialize : Option Buffer → Except ε β)
    (t : Option (Metadata core) × Answer core) (outcome : Outcome (ResponseEvent β)) : Prop where
  returns : outcome.thrown = none
  metadata : ∀ object, .metadata object ∈ outcome.events → ∃ m, t.1 = some m ∧ Conveys m object
  completes : ∃ trailer, Conveys t.2.trailer trailer ∧ outcome.completion.events =
    [.callback (result (unparsed t.2) deserialize t.2 trailer).1,
      .status (result (unparsed t.2) deserialize t.2 trailer).2]

/-- What the core can carry: initial metadata have been sent, the metadata come from the functions of
the class, and the details are not cut off. -/
structure Portable (t : Option (Metadata core) × Answer core) : Prop where
  metadata : ∃ m, t.1 = some m ∧ Sound core m.internalRepr
  trailer : Sound core t.2.trailer.internalRepr
  details : Carried t.2.details

/-- The core has given up, with a status of its own. -/
def GaveUp (core : Core) (transport : Transport) (complete : Complete β)
    (outcome : Outcome (ResponseEvent β)) : Prop :=
  ∃ response : Response, transport.failure response.status = true ∧
    response.status.status ≠ Status.ok.toNat ∧ outcome = complete (response.value core)

/-- **A remote call.** If the client hears, then of the first answer, or that the core gave up; and
as soon as there is an answer, the client can hear of it. -/
structure Remote (unparsed : Answer core → String) (deserialize : Option Buffer → Except ε β)
    (transport : Transport) (handler : CallHandler core σ α) (complete : Complete β)
    (s : State core σ β) : Prop where
  heard : ∀ outcome, s.client = some outcome → GaveUp core transport complete outcome ∨
    ∃ t, told s.said = some t ∧ (Portable t → Hears unparsed deserialize t outcome)
  answered : s.client = none → ∀ t, told s.said = some t → Portable t →
    ∃ s', step transport handler complete s .respond = some s' ∧ s'.client.isSome

/-! ### What it hears -/

/-- The array has a slot for each value. -/
theorem array_eq (m : Metadata core) : m.array = writtenEntries m.internalRepr.own.entries :=
  Option.some.inj (m.createMetadataArray_eq.symm.trans (createMetadataArray_eq m.valid))

/-- The core finds nothing illegal in what `set` and `add` have taken. -/
theorem legal_writtenEntry {key : String} {value : JsCore.MetadataValue} (h : Accepts core key value) :
    core.headerKeyIsLegal (writtenEntry key value).1 = true ∧
      (core.isBinaryHeader (writtenEntry key value).1 = true ∨
        core.headerNonbinValueIsLegal (writtenEntry key value).2 = true) := by
  obtain ⟨hkey, hvalid⟩ := h
  cases value with
  | string s =>
      refine ⟨hkey, .inr ?_⟩
      show core.headerNonbinValueIsLegal (createSliceFromString s) = true
      by_contra hillegal
      cases hbinary : core.isBinaryHeader (createSliceFromString key) <;>
        simp [validate, hillegal, hbinary] at hvalid
  | buffer b =>
      refine ⟨hkey, .inl ?_⟩
      show core.isBinaryHeader (createSliceFromString key) = true
      by_contra hnot
      simp [validate, hnot] at hvalid

/-- What comes from the functions of the class can be sent. -/
theorem legalMetadata_array {m : Metadata core} (hm : Sound core m.internalRepr) :
    LegalMetadata core m.array := by
  intro e he
  rw [array_eq, writtenEntries] at he
  obtain ⟨⟨key, v⟩, hentry, he⟩ := List.mem_flatMap.mp he
  obtain ⟨-, values, rfl, -, hvalues⟩ := hm key v (OrderedMap.mem_entries_iff.mp hentry)
  obtain ⟨value, hvalue, rfl⟩ := List.mem_map.mp he
  exact legal_writtenEntry (hvalues value hvalue)

/-- What can be carried can be sent. -/
theorem Portable.sendable {t : Option (Metadata core) × Answer core} {m : Metadata core}
    (h : Portable t) (ht : t.1 = some m) : Sendable t m := by
  obtain ⟨m', hm', hsound⟩ := h.metadata
  obtain rfl := Option.some.inj (hm'.symm.trans ht)
  exact ⟨ht, legalMetadata_array hsound, legalMetadata_array h.trailer⟩

/-- On the other side the array becomes an object again. -/
theorem parseMetadata_array (hcore : core.Documented) {m : Metadata core}
    (hm : Sound core m.internalRepr) : Conveys m (parseMetadata core m.array) := by
  intro key
  have hstored : ∀ e ∈ m.internalRepr.own.entries, Stored core e.1 e.2 := fun e he =>
    hm e.1 e.2 (OrderedMap.mem_entries_iff.mp he)
  have hempty : ∀ k, MetadataObject.empty.own.lookup k = none := fun _ => rfl
  rw [parseMetadata, array_eq, parse_entries hcore m.internalRepr.own.nodup hstored rfl
    (fun e _ => hempty e.1), hempty, Option.or_none, lookupIn_perm (.refl _)]

theorem response_received (a : Answer core) (m : Metadata core) (h : Carried a.details) :
    (a.response m).status.received =
      { code := a.code
        details := a.details
        metadata := some (fromCoreRepresentation (parseMetadata core a.trailer.array)) } := by
  rw [ClientStatus.received, Answer.response, copyStringFromSlice_of_carried h]

variable {deserialize : Option Buffer → Except ε β}

/-- The metadata of the response, and what the answer means -/
theorem completeUnary_response (a : Answer core) (m : Metadata core) (h : Carried a.details) :
    let trailer := fromCoreRepresentation (parseMetadata core a.trailer.array)
    completeUnary deserialize (a.response m) =
      ⟨[.metadata (fromCoreRepresentation (parseMetadata core m.array)),
        .callback (result parseFailure.details deserialize a trailer).1,
        .status (result parseFailure.details deserialize a trailer).2], none⟩ := by
  have hread : (a.response m).read = a.message := rfl
  unfold completeUnary unaryCompletion result
  dsimp only
  rw [response_received a m h, hread]
  by_cases hok : a.code = Status.ok.toNat
  · rw [if_pos hok, if_pos hok]
    cases deserialize a.message <;> rfl
  · rw [if_neg hok, if_neg hok]
    rfl

/-- The metadata are in the other batch. -/
theorem completeClientStream_response (a : Answer core) (m : Metadata core)
    (h : Carried a.details) :
    let trailer := fromCoreRepresentation (parseMetadata core a.trailer.array)
    completeClientStream deserialize (a.response m) =
      ⟨[.callback (result a.details deserialize a trailer).1,
        .status (result a.details deserialize a trailer).2], none⟩ := by
  have hread : (a.response m).read = a.message := rfl
  have hdetails : (a.response m).status.details = a.details := copyStringFromSlice_of_carried h
  unfold completeClientStream clientStreamCompletion result
  dsimp only
  rw [response_received a m h, hread, hdetails]
  by_cases hok : a.code = Status.ok.toNat
  · rw [if_pos hok, if_pos hok]
    cases deserialize a.message <;> rfl
  · rw [if_neg hok, if_neg hok]

/-- What the client of a unary call hears of an answer -/
theorem hears_unary (hcore : core.Documented) {t : Option (Metadata core) × Answer core}
    {m : Metadata core} (ht : t.1 = some m) (h : Portable t) :
    Hears (fun _ => parseFailure.details) deserialize t
      (completeUnary deserialize (t.2.response m)) := by
  obtain ⟨m', hm', hsound⟩ := h.metadata
  obtain rfl := Option.some.inj (hm'.symm.trans ht)
  rw [completeUnary_response t.2 m' h.details]
  refine ⟨rfl, fun object hobject => ⟨m', hm', ?_⟩,
    fromCoreRepresentation (parseMetadata core t.2.trailer.array),
    parseMetadata_array hcore h.trailer, rfl⟩
  have hhead : object = fromCoreRepresentation (parseMetadata core m'.array) := by
    simpa using hobject
  rw [hhead]
  exact parseMetadata_array hcore hsound

/-- What the client of a client-streaming call hears of an answer -/
theorem hears_clientStream (hcore : core.Documented) {t : Option (Metadata core) × Answer core}
    {m : Metadata core} (h : Portable t) :
    Hears Answer.details deserialize t (completeClientStream deserialize (t.2.response m)) := by
  rw [completeClientStream_response t.2 m h.details]
  refine ⟨rfl, fun object hobject => ?_,
    fromCoreRepresentation (parseMetadata core t.2.trailer.array),
    parseMetadata_array hcore h.trailer, rfl⟩
  simp at hobject

/-! ### Every run -/

variable {transport : Transport} {handler : CallHandler core σ α} {complete : Complete β}
  {unparsed : Answer core → String}

/-- What holds of the two ends. -/
structure Inv (transport : Transport) (handler : CallHandler core σ α) (complete : Complete β)
    (s : State core σ β) : Prop where
  corresponds : Corresponds transport (handler.call s.server) s.said
  /-- What has been heard is the response that the first answer makes, if it can be sent. -/
  heard : ∀ outcome, s.client = some outcome → GaveUp core transport complete outcome ∨
    ∃ t, told s.said = some t ∧
      ∀ m, Sendable t m → outcome = complete (t.2.response m)

theorem Inv.step (htransport : transport.Documented core) {s s' : State core σ β} {a : Act α}
    (h : Inv transport handler complete s)
    (hstep : step transport handler complete s a = some s') :
    Inv transport handler complete s' := by
  cases a with
  | server a =>
      obtain ⟨server, hserver, rfl⟩ := Option.map_eq_some_iff.mp hstep
      refine ⟨h.corresponds.speaks htransport (handler.speaks hserver), fun outcome houtcome => ?_⟩
      refine (h.heard outcome houtcome).imp id ?_
      rintro ⟨t, htold, hresponse⟩
      exact ⟨t, told_append htold _, hresponse⟩
  | respond =>
      simp only [RemoteCall.step] at hstep
      split at hstep
      · cases hstep
      · obtain ⟨response, hresponse, rfl⟩ := Option.map_eq_some_iff.mp hstep
        refine ⟨h.corresponds, fun outcome houtcome => .inr ?_⟩
        obtain rfl := Option.some.inj houtcome
        obtain ⟨t, htold⟩ := h.corresponds.told_of_response htransport hresponse
        refine ⟨t, htold, fun m hsendable => congrArg complete ?_⟩
        have heq := h.corresponds.response_eq htransport htold hsendable
        rw [hresponse] at heq
        exact Option.some.inj heq
  | giveUp response =>
      obtain ⟨⟨-, hfailure⟩, rfl⟩ := Runs.when_eq_some.mp hstep
      refine ⟨h.corresponds, fun outcome houtcome => .inl ?_⟩
      exact ⟨response, hfailure, htransport.failure hfailure, (Option.some.inj houtcome).symm⟩

/-- As soon as there is an answer that can be sent, the response can be complete. -/
theorem Inv.answered (htransport : transport.Documented core) {s : State core σ β}
    (h : Inv transport handler complete s) (hclient : s.client = none)
    {t : Option (Metadata core) × Answer core} {m : Metadata core} (htold : told s.said = some t)
    (hsendable : Sendable t m) :
    ∃ s', RemoteCall.step transport handler complete s .respond = some s' ∧ s'.client.isSome := by
  have heq := h.corresponds.response_eq htransport htold hsendable
  obtain ⟨response, hresponse, -⟩ := Option.map_eq_some_iff.mp heq
  refine ⟨{ s with client := some (complete (response.value core)) }, ?_, rfl⟩
  simp [RemoteCall.step, hclient, hresponse]

theorem Inv.remote (htransport : transport.Documented core)
    (hcomplete : ∀ (t : Option (Metadata core) × Answer core) (m : Metadata core),
      t.1 = some m → Portable t → Hears unparsed deserialize t (complete (t.2.response m)))
    {s : State core σ β} (h : Inv transport handler complete s) :
    Remote unparsed deserialize transport handler complete s where
  heard outcome houtcome := by
    refine (h.heard outcome houtcome).imp id ?_
    rintro ⟨t, htold, hresponse⟩
    refine ⟨t, htold, fun hportable => ?_⟩
    obtain ⟨m, hm, -⟩ := hportable.metadata
    rw [hresponse m (hportable.sendable hm)]
    exact hcomplete t m hm hportable
  answered hclient t htold hportable := by
    obtain ⟨m, hm, -⟩ := hportable.metadata
    exact h.answered htransport hclient htold (hportable.sendable hm)

theorem remote_always (htransport : transport.Documented core)
    (hcomplete : ∀ (t : Option (Metadata core) × Answer core) (m : Metadata core),
      t.1 = some m → Portable t → Hears unparsed deserialize t (complete (t.2.response m)))
    {server : σ} (hserver : (handler.call server).started = []) (acts : List (Act α)) :
    Runs.Always (step transport handler complete)
      (Remote unparsed deserialize transport handler complete) { server } acts := by
  have hinitial : Inv transport handler complete ({ server } : State core σ β) :=
    ⟨.silent rfl hserver, fun _ h => absurd h.symm (Option.some_ne_none _)⟩
  exact (Runs.always_of_invariant (fun _ _ _ => Inv.step htransport) hinitial acts).mono
    fun _ => Inv.remote htransport hcomplete

/-- A request, or nothing. -/
def requestBytes (read : Option Buffer) : Except (ErrorObject Core.ascii) Buffer :=
  .ok (read.getD [])

def messageBytes (message : Buffer) : Except (ErrorObject Core.ascii) Buffer := .ok message

def bufferOf (message : Buffer) : Except (ErrorObject Core.ascii) JsValue := .ok (.buffer message [])

def readBytes (read : Option Buffer) : Except Unit (Option Buffer) := .ok read

/-- The value, and not the error that comes too late. -/
example : (Runs.exec (step .direct (.unary requestBytes bufferOf) (completeUnary readBytes))
      { server := {} }
      [.server (.readCompletes (.result (some [7]))), .server (.sendUnaryData none [7] none .undefined),
        .server (.emitError { message := some (.string "late") }), .respond]).bind State.client =
    some ⟨[.metadata .empty, .callback (.value (some [7])), .status ⟨0, "OK", some .empty⟩], none⟩ :=
  rfl

end RemoteCall

end GrpcNode.NativeCore
