import GrpcNode.JsCore.Status
import GrpcNode.NativeCore.StatusDetails

/-!
# GrpcNode.NativeCore.ClientCompletion

The callbacks of the batches that end a call: those of `makeUnaryRequest` and
`makeClientStreamRequest` in `client.js`, and that of `waitForCancel` in `server.js`.

The addon passes them either a result or an error and nothing else. They read the result before
they look at the error, or in spite of it, so `survives_iff` says that they get through exactly if
there is a result.

The first two are copies of each other, up to one word. `completion_eq_iff` says for which results
the word makes a difference.
-/

namespace GrpcNode.NativeCore

open GrpcNode.Js
open GrpcNode.JsCore (MetadataObject Status)

/-- The arguments of the callback of a batch: `(null, result)`, or an error alone. -/
inductive Completion (ρ : Type*)
  | result (value : ρ)
  | error (err : JsError)

namespace Completion

variable {ρ : Type*}

/-- The first argument, if it is truthy. -/
def err? : Completion ρ → Option JsError
  | .result _ => none
  | .error err => some err

/-- The second argument, if it is not `undefined`. -/
def result? : Completion ρ → Option ρ
  | .result value => some value
  | .error _ => none

end Completion

/-- The call of the callback in `CompleteTag` -/
def completeTag {ρ : Type*} (errorMessage : Option String) (tagObj : ρ) : Completion ρ :=
  match errorMessage with
  | none => .result tagObj
  | some errorMessage => .error (.error errorMessage)

/-- The error that `drain_completion_queue` has for a batch that did not succeed -/
def batchError : String := "The async function encountered an error"

/-- The error of `Call::StartBatch` on a call that has been released -/
def callCompletedError : JsError :=
  .error "The async function failed because the call has completed"

/-- A status as the client sees it. One that the client makes has no metadata. -/
structure CallStatus where
  code : Nat
  details : String
  metadata : Option MetadataObject := none

/-- `Metadata._fromCoreRepresentation(metadata)`, as its `_internal_repr` -/
def fromCoreRepresentation (metadata : MetadataObject) : MetadataObject := ⟨metadata.own, .object⟩

/-- `response.status`, when its metadata has been replaced. -/
def ClientStatus.received (status : ClientStatus) : CallStatus where
  code := status.code
  details := status.details
  metadata := some (fromCoreRepresentation status.metadata)

/-- The status of a call whose response cannot be parsed. -/
def parseFailure : CallStatus where
  code := Status.internal.toNat
  details := "Failed to parse server response"

/-! ### The response -/

/-- What the callback of the user is called with. -/
inductive CallbackArguments (β : Type*)
  | error (err : JsError)
  | serviceError (message : String) (code : Nat) (metadata : Option MetadataObject)
  | value (value : β)

/-- What a completion function does. -/
inductive ResponseEvent (β : Type*)
  | metadata (metadata : MetadataObject)
  | callback (args : CallbackArguments β)
  | status (status : CallStatus)

def ResponseEvent.isCallback {β : Type*} : ResponseEvent β → Bool
  | callback _ => true
  | metadata _ | status _ => false

/-- What a function has done when it returns or throws. -/
structure Outcome (ε : Type*) where
  events : List ε
  thrown : Option JsError

/-- The response to a unary request. -/
structure UnaryResponse where
  metadata : MetadataObject
  read : Option Buffer
  status : ClientStatus

/-- The response to a client-streaming request. Its metadata is in another batch. -/
structure StreamResponse where
  read : Option Buffer
  status : ClientStatus

variable {ε β : Type*} (deserialize : Option Buffer → Except ε β)

/-- The completion function of `makeUnaryRequest` -/
def unaryCompletion (err : Option JsError) (response : Option UnaryResponse) :
    Outcome (ResponseEvent β) :=
  match response with
  | none => ⟨[], some (.typeError "Cannot read property 'status' of undefined")⟩
  | some response =>
      let status := response.status.received
      let emitted := ResponseEvent.metadata (fromCoreRepresentation response.metadata)
      let fail (status : CallStatus) : Outcome (ResponseEvent β) :=
        ⟨[emitted, .callback (.serviceError status.details status.code status.metadata),
          .status status], none⟩
      if status.code = Status.ok.toNat then
        match err with
        -- Got a batch error, but OK status. Something went wrong
        | some err => ⟨[emitted, .callback (.error err)], none⟩
        | none =>
            match deserialize response.read with
            | .ok deserialized => ⟨[emitted, .callback (.value deserialized), .status status], none⟩
            | .error _ => fail parseFailure
      else fail status

/-- The completion function of `makeClientStreamRequest`. The message of the error is the
details of the status that was received, also when the status is another. -/
def clientStreamCompletion (err : Option JsError) (response : Option StreamResponse) :
    Outcome (ResponseEvent β) :=
  match response with
  | none => ⟨[], some (.typeError "Cannot read property 'status' of undefined")⟩
  | some response =>
      let status := response.status.received
      let fail (status : CallStatus) : Outcome (ResponseEvent β) :=
        ⟨[.callback (.serviceError response.status.details status.code status.metadata),
          .status status], none⟩
      if status.code = Status.ok.toNat then
        match err with
        -- Got a batch error, but OK status. Something went wrong
        | some err => ⟨[.callback (.error err)], none⟩
        | none =>
            match deserialize response.read with
            | .ok deserialized => ⟨[.callback (.value deserialized), .status status], none⟩
            | .error _ => fail parseFailure
      else fail status

/-- The completion function gets through, and calls the callback of the user once. -/
def Outcome.Survives (outcome : Outcome (ResponseEvent β)) : Prop :=
  outcome.thrown = none ∧ (outcome.events.filter ResponseEvent.isCallback).length = 1

/-! ### The cancellation -/

/-- What the callback in `waitForCancel` emits. -/
inductive CancelEvent
  | error (err : JsError)
  | cancelled

/-- The callback in `waitForCancel` -/
def cancelCompletion (err : Option JsError) (result : Option Bool) : Outcome CancelEvent :=
  let emitted := (err.map CancelEvent.error).toList
  match result with
  | none => ⟨emitted, some (.typeError "Cannot read property 'cancelled' of undefined")⟩
  | some true => ⟨emitted ++ [.cancelled], none⟩
  | some false => ⟨emitted, none⟩

/-! ### What gets through -/

variable {deserialize}

theorem survives_unaryCompletion (err : Option JsError) (response : UnaryResponse) :
    (unaryCompletion deserialize err (some response)).Survives := by
  unfold unaryCompletion
  dsimp only
  split
  · cases err with
    | some err => exact ⟨rfl, rfl⟩
    | none => cases deserialize response.read <;> exact ⟨rfl, rfl⟩
  · exact ⟨rfl, rfl⟩

theorem survives_clientStreamCompletion (err : Option JsError) (response : StreamResponse) :
    (clientStreamCompletion deserialize err (some response)).Survives := by
  unfold clientStreamCompletion
  dsimp only
  split
  · cases err with
    | some err => exact ⟨rfl, rfl⟩
    | none => cases deserialize response.read <;> exact ⟨rfl, rfl⟩
  · exact ⟨rfl, rfl⟩

/-- **The completion functions get through exactly if they are given a result**: whatever the
status, the message and the deserializer are. -/
theorem survives_iff :
    (∀ completion : Completion UnaryResponse,
      (unaryCompletion deserialize completion.err? completion.result?).Survives ↔
        ∃ response, completion = .result response) ∧
    (∀ completion : Completion StreamResponse,
      (clientStreamCompletion deserialize completion.err? completion.result?).Survives ↔
        ∃ response, completion = .result response) ∧
    ∀ completion : Completion Bool,
      (cancelCompletion completion.err? completion.result?).thrown = none ↔
        ∃ cancelled, completion = .result cancelled := by
  refine ⟨fun completion => ?_, fun completion => ?_, fun completion => ?_⟩
  · cases completion with
    | result response =>
        exact iff_of_true (survives_unaryCompletion _ response) ⟨response, rfl⟩
    | error err => exact iff_of_false (fun h => nomatch h.1) nofun
  · cases completion with
    | result response =>
        exact iff_of_true (survives_clientStreamCompletion _ response) ⟨response, rfl⟩
    | error err => exact iff_of_false (fun h => nomatch h.1) nofun
  · cases completion with
    | result cancelled =>
        refine iff_of_true ?_ ⟨cancelled, rfl⟩
        cases cancelled <;> rfl
    | error err => exact iff_of_false nofun nofun

/-- A batch that did not succeed: each of the functions throws, and the callback of the user is
not called. -/
theorem not_survives_batchError :
    ¬ (∀ completion : Completion UnaryResponse, (unaryCompletion
        (fun _ => Except.ok (ε := Unit) ()) completion.err? completion.result?).Survives) ∧
    ¬ (∀ completion : Completion StreamResponse, (clientStreamCompletion
        (fun _ => Except.ok (ε := Unit) ()) completion.err? completion.result?).Survives) ∧
    ¬ ∀ completion : Completion Bool,
        (cancelCompletion completion.err? completion.result?).thrown = none := by
  refine ⟨fun h => ?_, fun h => ?_, fun h => ?_⟩
  · exact absurd (h (completeTag (some batchError) ⟨.empty, none, ⟨0, "OK", .empty⟩⟩)).1 nofun
  · exact absurd (h (completeTag (some batchError) ⟨none, ⟨0, "OK", .empty⟩⟩)).1 nofun
  · exact absurd (h (completeTag (some batchError) false)) nofun

/-! ### The copies -/

/-- Not the event `metadata`: of the two functions only one emits it, since for the other the
metadata is in another batch. -/
def ResponseEvent.isMetadata : ResponseEvent β → Bool
  | metadata _ => true
  | callback _ | status _ => false

/-- The calls of the callback, and the status. -/
def Outcome.completion (outcome : Outcome (ResponseEvent β)) : Outcome (ResponseEvent β) :=
  { outcome with events := outcome.events.filter fun event => !event.isMetadata }

/-- The response cannot be parsed, and the status that came with it does not say so. -/
def LosesReason (deserialize : Option Buffer → Except ε β) (err : Option JsError)
    (read : Option Buffer) (status : ClientStatus) : Prop :=
  status.code = Status.ok.toNat ∧ err = none ∧ (∃ e, deserialize read = .error e) ∧
    status.details ≠ parseFailure.details

/-- **The two completion functions agree, but for the message of a failure to parse.** Where the
response cannot be parsed, the one takes the message from the new status and the other from the
status that it replaces. -/
theorem completion_eq_iff (deserialize : Option Buffer → Except ε β) (err : Option JsError)
    (metadata : MetadataObject) (read : Option Buffer) (status : ClientStatus) :
    (unaryCompletion deserialize err (some ⟨metadata, read, status⟩)).completion =
        (clientStreamCompletion deserialize err (some ⟨read, status⟩)).completion ↔
      ¬ LosesReason deserialize err read status := by
  unfold unaryCompletion clientStreamCompletion LosesReason
  by_cases hok : status.code = Status.ok.toNat
  · have hreceived : status.received.code = Status.ok.toNat := hok
    dsimp only
    rw [if_pos hreceived, if_pos hreceived]
    cases err with
    | some err => exact iff_of_true rfl (by simp)
    | none =>
        cases hread : deserialize read with
        | ok deserialized => exact iff_of_true rfl (by simp)
        | error e =>
            -- What is left of the events differs in the message at most.
            show (⟨[.callback (.serviceError parseFailure.details parseFailure.code
                parseFailure.metadata), .status parseFailure], none⟩ :
                Outcome (ResponseEvent β)) =
              ⟨[.callback (.serviceError status.details parseFailure.code
                parseFailure.metadata), .status parseFailure], none⟩ ↔ _
            simp [hok, eq_comm]
  · have hreceived : ¬ status.received.code = Status.ok.toNat := hok
    dsimp only
    rw [if_neg hreceived, if_neg hreceived]
    exact iff_of_true rfl fun h => hok h.1

/-- A deserializer that throws, and a status that says `OK`. -/
theorem completion_ne_of_throws :
    ¬ ∀ (deserialize : Option Buffer → Except Unit Unit) (err : Option JsError)
      (metadata : MetadataObject) (read : Option Buffer) (status : ClientStatus),
      (unaryCompletion deserialize err (some ⟨metadata, read, status⟩)).completion =
        (clientStreamCompletion deserialize err (some ⟨read, status⟩)).completion := by
  intro h
  have heq := h (fun _ => .error ()) none .empty (some [0]) ⟨0, "OK", .empty⟩
  have hevents := congrArg Outcome.events heq
  have hmessage : parseFailure.details = "OK" :=
    (CallbackArguments.serviceError.inj (ResponseEvent.callback.inj
      (List.cons.inj hevents).1)).1
  exact absurd hmessage (by decide)

end GrpcNode.NativeCore
