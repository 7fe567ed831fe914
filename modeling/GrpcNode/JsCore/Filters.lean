import GrpcNode.Js.Number
import GrpcNode.JsCore.CallCredentials
import GrpcNode.JsCore.Metadata

/-!
# GrpcNode.JsCore.Filters

The filters of a channel, as far as they process what is sent: `compression-filter.ts`,
`call-credentials-filter.ts` and `deadline-filter.ts`.

All three work in place on the `Metadata` object that the caller passed. What is here is
what each of them does to the object once it holds it; when that happens is the channel's
business.
-/

namespace GrpcNode.JsCore

open GrpcNode.Js

/-- `CompressionFilter.sendMetadata` -/
def CompressionFilter.sendMetadata (headers : Metadata) : Except JsError Metadata := do
  let headers ← headers.set "grpc-encoding" (.string "identity")
  headers.set "grpc-accept-encoding" (.string "identity")

/-- What `CompressionFilter` writes is there already. -/
def CarriesEncodings (m : Metadata) : Prop :=
  m.values "grpc-encoding" = [.string "identity"] ∧
    m.values "grpc-accept-encoding" = [.string "identity"]

/-- The filter sets its two keys, one after the other. -/
theorem CompressionFilter.exists_set {m m' : Metadata} (h : sendMetadata m = .ok m') :
    ∃ m₁, m.set "grpc-encoding" (.string "identity") = .ok m₁ ∧
      m₁.set "grpc-accept-encoding" (.string "identity") = .ok m' := by
  unfold sendMetadata at h
  cases hset : m.set "grpc-encoding" (.string "identity") with
  | ok m₁ =>
      rw [hset] at h
      exact ⟨m₁, rfl, h⟩
  | error e =>
      rw [hset] at h
      exact absurd h nofun

theorem CompressionFilter.exists_sendMetadata (m : Metadata) : ∃ m', sendMetadata m = .ok m' := by
  have hencoding : validate (normalizeKey "grpc-encoding") (some (.string "identity")) = .ok () := by
    decide
  have haccept : validate (normalizeKey "grpc-accept-encoding")
      (some (.string "identity")) = .ok () := by
    decide
  obtain ⟨m₁, hset⟩ : ∃ m₁, m.set "grpc-encoding" (.string "identity") = .ok m₁ :=
    ⟨_, Metadata.set_of_valid hencoding⟩
  obtain ⟨m₂, hset'⟩ : ∃ m₂, m₁.set "grpc-accept-encoding" (.string "identity") = .ok m₂ :=
    ⟨_, Metadata.set_of_valid haccept⟩
  refine ⟨m₂, ?_⟩
  rw [sendMetadata, hset]
  exact hset'

theorem CompressionFilter.lookup_of_ne {m m' : Metadata} (h : sendMetadata m = .ok m')
    {key : String} (hencoding : key ≠ "grpc-encoding") (haccept : key ≠ "grpc-accept-encoding") :
    m'.internalRepr.own.lookup key = m.internalRepr.own.lookup key := by
  obtain ⟨m₁, hset, hset'⟩ := exists_set h
  calc m'.internalRepr.own.lookup key = m₁.internalRepr.own.lookup key :=
        Metadata.lookup_set_of_ne (by decide) hset' haccept
    _ = m.internalRepr.own.lookup key := Metadata.lookup_set_of_ne (by decide) hset hencoding

theorem CompressionFilter.carriesEncodings {m m' : Metadata} (h : sendMetadata m = .ok m') :
    CarriesEncodings m' := by
  obtain ⟨m₁, hset, hset'⟩ := exists_set h
  refine ⟨?_, Metadata.values_set_self (by decide) (by decide) hset'⟩
  have hvalues := Metadata.values_set_self (by decide) (by decide) hset
  rw [Metadata.values_eq_cons_iff] at hvalues ⊢
  rw [Metadata.lookup_set_of_ne (by decide) hset' (by decide), hvalues]

/-- The filter leaves an object alone exactly if it has nothing to write. -/
theorem CompressionFilter.sendMetadata_self_iff {m : Metadata} :
    sendMetadata m = .ok m ↔ CarriesEncodings m := by
  constructor
  · exact carriesEncodings
  · rintro ⟨hencoding, haccept⟩
    have hset := (Metadata.set_self_iff (by decide) (by decide) (by decide)).mpr hencoding
    have hset' := (Metadata.set_self_iff (by decide) (by decide) (by decide)).mpr haccept
    unfold sendMetadata
    rw [hset]
    exact hset'

/-! ### Call credentials -/

/-- What `await credsMetadata` can give: a `Metadata` object, or the function that
`generateMetadata.bind({})` is. -/
inductive CredsMetadata (γ : Type)
  | metadata (m : Metadata)
  | boundFunction (credentials : CallCredentials γ)

/-- `merge(other)`. A function has no `internalRepr`, and `forOwn(undefined, ...)` goes
through nothing. -/
def Metadata.mergeCredsMetadata {γ : Type} (m : Metadata) :
    CredsMetadata γ → Metadata × Option JsError
  | .metadata other => m.merge other
  | .boundFunction _ => (m, none)

/-- `CallCredentialsFilter.sendMetadata`: `credsMetadata` is the bound function itself, which
is never called. -/
def CallCredentialsFilter.sendMetadata {γ : Type} (credentials : CallCredentials γ)
    (resultMetadata : Metadata) : Metadata × Option JsError :=
  let credsMetadata : CredsMetadata γ := .boundFunction credentials
  resultMetadata.mergeCredsMetadata credsMetadata

/-! ### Deadlines -/

/-- `Deadline` -/
inductive Deadline
  | date (time : JsNumber)
  | number (value : JsNumber)
  deriving DecidableEq

/-- The `deadline` field of a `DeadlineFilter`. -/
def Deadline.getTime : Deadline → JsNumber
  | .date time => time
  | .number value => value

/-- `Infinity` -/
def noDeadline : JsNumber := .infinity false

/-- `units` -/
def units : List (String × Nat) :=
  [("m", 1), ("S", 1000), ("M", 60 * 1000), ("H", 60 * 60 * 1000)]

/-- What the `timeoutString` of `DeadlineFilter.sendMetadata` resolves to when the channel
is connected at the time `now`. It stays pending when no unit is large enough. -/
def timeoutString (deadline : JsNumber) (now : Int) : Option String :=
  let timeoutMs := deadline.sub now
  units.findSome? fun (unit, factor) =>
    let amount := timeoutMs.div factor
    if amount.lt (10 ^ 8) then some (amount.ceil.toText ++ unit) else none

/-- `finalMetadata.set('grpc-timeout', await timeoutString)` -/
def DeadlineFilter.setTimeout (finalMetadata : Metadata) (timeoutString : String) :
    Except JsError Metadata :=
  finalMetadata.set "grpc-timeout" (.string timeoutString)

theorem DeadlineFilter.lookup_of_ne {m m' : Metadata} {timeout : String}
    (h : setTimeout m timeout = .ok m') {key : String} (hkey : key ≠ "grpc-timeout") :
    m'.internalRepr.own.lookup key = m.internalRepr.own.lookup key :=
  Metadata.lookup_set_of_ne (by decide) h hkey

/-- The text is the number of units, rounded up, and the unit. -/
theorem timeoutString_eq {deadline : JsNumber} {now : Int} {t : String}
    (h : timeoutString deadline now = some t) :
    ∃ u ∈ units, t = (((deadline.sub now).div u.2).ceil.toText ++ u.1) := by
  obtain ⟨u, hu, hsome⟩ := List.exists_of_findSome?_eq_some h
  refine ⟨u, hu, ?_⟩
  dsimp only at hsome
  split at hsome
  · exact (Option.some.inj hsome).symm
  · exact absurd hsome nofun

theorem valid_timeoutText (x : JsNumber) {u : String × Nat} (hu : u ∈ units) :
    validate "grpc-timeout" (some (.string (x.toText ++ u.1))) = .ok () := by
  have hunit : u.1.toList ≠ [] ∧ (u.1.toList.all fun c => ' ' ≤ c ∧ c ≤ '~') = true := by
    have hunits : ∀ u ∈ units, u.1.toList ≠ [] ∧
        (u.1.toList.all fun c => ' ' ≤ c ∧ c ≤ '~') = true := by decide
    exact hunits u hu
  have hkey : isLegalKey "grpc-timeout" = true ∧ isBinaryKey "grpc-timeout" = false := by decide
  have hlegal : isLegalNonBinaryValue (x.toText ++ u.1) = true := by
    rw [isLegalNonBinaryValue, Bool.and_eq_true, decide_eq_true_iff, List.all_eq_true]
    refine ⟨fun hempty => hunit.1 ?_, fun c hc => ?_⟩
    · have hlist := congrArg String.toList hempty
      rw [String.toList_append] at hlist
      exact (List.append_eq_nil_iff.mp hlist).2
    · rw [String.toList_append, List.mem_append] at hc
      rcases hc with hc | hc
      · exact decide_eq_true_iff.mpr (printable_of_isNumberChar (JsNumber.isNumberChar_toText hc))
      · exact List.all_eq_true.mp hunit.2 c hc
  simp [validate, hkey, hlegal]

theorem valid_timeoutString {deadline : JsNumber} {now : Int} {t : String}
    (h : timeoutString deadline now = some t) :
    validate "grpc-timeout" (some (.string t)) = .ok () := by
  obtain ⟨u, hu, rfl⟩ := timeoutString_eq h
  exact valid_timeoutText _ hu

/-- The filter leaves an object alone exactly if it carries the timeout already. -/
theorem DeadlineFilter.setTimeout_self_iff {m : Metadata} {deadline : JsNumber} {now : Int}
    {timeout : String} (h : timeoutString deadline now = some timeout) :
    setTimeout m timeout = .ok m ↔ m.values "grpc-timeout" = [.string timeout] :=
  Metadata.set_self_iff (by decide) (by decide) (valid_timeoutString h)

example : timeoutString (.finite 5000) 4000 = some "1000m" := by decide +kernel
example : timeoutString (.infinity true) 0 = some "-Infinitym" := by decide +kernel
example : timeoutString .nan 0 = none := by decide +kernel

end GrpcNode.JsCore
