import GrpcNode.JsCore.CallCredentials
import GrpcNode.JsCore.Metadata
import GrpcNode.Lib.PromiseTree

/-!
# GrpcNode.JsCore.GenerateMetadata

`generateMetadata` of `call-credentials.ts`.

Composed credentials start all their generators at once, wait for `Promise.all`, and merge
what they get. The promises of one such call form a `PromiseTree`, whose leaves belong to the
generators. A callback that is called at once is the same as one that is called right after the
start, since nobody hears of it before.
-/

namespace GrpcNode.JsCore

open GrpcNode.Js

/-- The loop over `generated`. -/
def Metadata.mergeAll (base : Metadata) : List Metadata → Except JsError Metadata
  | [] => .ok base
  | gen :: generated =>
      match base.merge gen with
      | (base, none) => mergeAll base generated
      | (_, some e) => .error e

/-- Why a promise is rejected: with what a generator passes to its callback, or with an
exception. -/
inductive Reason (ε : Type)
  | failure (err : ε)
  | exception (e : JsError)

/-- The promises of one `generateMetadata`. -/
abbrev Generation (ε : Type) := PromiseTree (Reason ε) Metadata

/-- `ComposedCallCredentials.generateMetadata` behind its `await`. -/
def gather {ε : Type} (generated : List Metadata) : Except (Reason ε) Metadata :=
  (Metadata.new.mergeAll generated).mapError .exception

/-- What the callback of a generator makes of its arguments. -/
def callbackResult {ε : Type} (err : ε) : Option Metadata → Except (Reason ε) Metadata
  | some metadata => .ok metadata
  | none => .error (.failure err)

/-! ### The call -/

namespace CallCredentials

open PromiseTree (handleAt)

variable {γ ω ε : Type}

mutual

/-- `generateMetadata(options)` up to the first `await`: the promises, and the calls of
generators. -/
def generateMetadata (options : ω) : CallCredentials γ → Generation ε × List (γ × ω)
  -- Nothing to wait for, and nothing to merge.
  | empty => (.node [] (some (.ok Metadata.new)), [])
  | single metadataGenerator => (.leaf none, [(metadataGenerator, options)])
  | composed creds =>
      let started := generateMetadataOf options creds
      (.node started.1 none, started.2)

/-- `map(this.creds, (cred) => cred.generateMetadata(options))` -/
def generateMetadataOf (options : ω) : List (CallCredentials γ) →
    List (Generation ε) × List (γ × ω)
  | [] => ([], [])
  | cred :: creds =>
      let first := generateMetadata options cred
      let rest := generateMetadataOf options creds
      (first.1 :: rest.1, first.2 ++ rest.2)

end

/-- A `generateMetadata` under way: the calls of generators, and the promises. -/
structure Generating (γ ω ε : Type) where
  calls : List (γ × ω)
  generation : Generation ε

/-- What the call leaves when it returns. -/
def Generating.start (options : ω) (creds : CallCredentials γ) : Generating γ ω ε :=
  let started := generateMetadata options creds
  ⟨started.2, started.1⟩

/-- What can happen. Inner promises are given by the way to them. -/
inductive GenerationAct (ε : Type)
  /-- The `k`-th generator that has been called calls its callback, or calls it again. To throw is
  to call it with an error. -/
  | callback (k : Nat) (err : ε) (metadata : Option Metadata)
  /-- `Promise.all` hears that the part at this place is rejected. -/
  | rejected (path : List Nat) (i : Nat)
  /-- `Promise.all` has heard of all its parts. -/
  | fulfilled (path : List Nat)

/-- One step. The generators have been called from left to right, so that the `k`-th call is that
for the `k`-th leaf. -/
def Generating.step (s : Generating γ ω ε) (act : GenerationAct ε) : Option (Generating γ ω ε) :=
  let generation :=
    match act with
    | .callback k err metadata => (s.generation.leafPath k).bind fun path =>
        handleAt gather path (.settle (callbackResult err metadata)) s.generation
    | .rejected path i => handleAt gather path (.rejected i) s.generation
    | .fulfilled path => handleAt gather path .fulfilled s.generation
  generation.map fun generation => { s with generation }

end CallCredentials

end GrpcNode.JsCore
