import GrpcNode.JsCore.ChannelCalls
import GrpcNode.Lib.Runs

/-!
# GrpcNode.JsCore.ChannelCredentials

The call credentials and the headers of the requests.

What the generators of metadata would give is stated over the list of generators that the
credentials of the channel and those of the call amount to. The filter never calls them
(`CallCredentialsFilter.sendMetadata`), so the headers carry what the user's object has
under the keys that nobody else sets, and nothing besides (`userValuesKept`).
-/

namespace GrpcNode.JsCore

open GrpcNode.Js

variable {γ : Type}

/-! ### What the generators give -/

/-- The values of `key` that the generators of `creds` give, one after the other. -/
def CallCredentials.generated (generate : γ → Except JsError Metadata)
    (creds : CallCredentials γ) (key : String) : List MetadataValue :=
  creds.leaves.flatMap fun g =>
    match generate g with
    | .ok m => m.values key
    | .error _ => []

/-- One of the generators fails. -/
def CallCredentials.Fails (generate : γ → Except JsError Metadata) (creds : CallCredentials γ) :
    Prop :=
  ∃ g ∈ creds.leaves, ∃ e, generate g = .error e

namespace Channel

open Metadata (headerValues encodeValue)

/-- The keys that the channel, its compression filter and its deadline filter set. -/
def reservedKeys : List String :=
  [":authority", "content-type", ":method", ":path", "te", "grpc-encoding",
    "grpc-accept-encoding", "grpc-timeout"]

/-- All that was started for the call has come to an end. -/
structure State.Finished (s : State γ) (call : Nat) : Prop where
  handled : ∀ attempt ∈ s.attempts, attempt.call = call → attempt.stage = .handled
  restarts : .restart call ∉ s.immediates

/-- The requests of the call carry, under every other key, what the user has put there,
followed by what the credentials of the channel and those of the call generate. If a
generator fails, there is no request, and the call ends with an error; a status that is
given to it from outside is not to be `OK`, since no peer has sent one. -/
structure CarriesCredentials (generate : γ → Except JsError Metadata) (config : Config γ)
    (objects : Nat → Metadata) (acts : List (Act γ)) (s : State γ) (i : Nat) (call : Call γ) :
    Prop where
  values : ∀ r ∈ s.requests, r.call = i → ∀ key ∉ reservedKeys,
    headerValues r.headers key =
      ((objects call.metadata).values key ++ config.callCredentials.generated generate key ++
        call.credentials.generated generate key).map encodeValue
  failed : config.callCredentials.Fails generate ∨ call.credentials.Fails generate →
    (∀ r ∈ s.requests, r.call ≠ i) ∧
      ((∀ status, .callEnds i status ∈ acts → status.code ≠ .ok) → s.Finished i →
        ∃ status, call.status = some status ∧ status.code ≠ .ok)

/-- In every run of a channel, for all objects of the user, the calls that are made with the
credentials `creds` carry them. -/
def CredentialsReachWire (generate : γ → Except JsError Metadata) (config : Config γ)
    (creds : CallCredentials γ) : Prop :=
  ∀ (objects : Nat → Metadata) (acts : List (Act γ)) (s : State γ),
    Runs.exec (step config) (State.initial objects) acts = some s →
    ∀ (i : Nat) (call : Call γ), s.calls[i]? = some call → call.credentials = creds →
      CarriesCredentials generate config objects acts s i call

/-! ### What the requests carry -/

/-- What the user has put under other keys stays where it is, and is what the requests
carry there. -/
structure Work.UserValuesKept (objects : Nat → Metadata) (w : Work γ) : Prop where
  heap : ∀ address, ∀ key ∉ reservedKeys,
    (w.heap address).internalRepr.own.lookup key =
      (objects address).internalRepr.own.lookup key
  requests : ∀ r ∈ w.requests, ∃ call, w.calls[r.call]? = some call ∧ ∀ key ∉ reservedKeys,
    headerValues r.headers key = ((objects call.metadata).values key).map encodeValue

/-- The channel adds its own five headers to those of the metadata. -/
theorem headerValues_requestHeaders {config : Config γ} {call : Call γ} {m : Metadata}
    {headers : Headers} (h : State.requestHeaders config call m = .ok headers) {key : String}
    (hkey : key ∉ reservedKeys) :
    headerValues headers key = (m.values key).map encodeValue := by
  simp only [reservedKeys, List.mem_cons, not_or] at hkey
  obtain ⟨hauthority, hcontent, hmethod, hpath, hte, -⟩ := hkey
  unfold State.requestHeaders at h
  cases hheaders : m.toHttp2Headers with
  | error e =>
      rw [hheaders] at h
      exact absurd h nofun
  | ok own =>
      rw [hheaders] at h
      obtain rfl := Except.ok.inj h
      rw [← Metadata.headerValues_toHttp2Headers hheaders, headerValues, headerValues,
        OrderedMap.lookup_put_of_ne _ _ hte, OrderedMap.lookup_put_of_ne _ _ hpath,
        OrderedMap.lookup_put_of_ne _ _ hmethod, OrderedMap.lookup_put_of_ne _ _ hcontent,
        OrderedMap.lookup_put_of_ne _ _ hauthority]

theorem Work.UserValuesKept.step {config : Config γ} {state : ConnectivityState}
    {sub : SubChannel} {objects : Nat → Metadata} {w w' : Work γ} {a : Act γ}
    (hw : w.UserValuesKept objects) (h : w.Step config state sub a w') :
    w'.UserValuesKept objects := by
  have hold : ∀ r ∈ w.requests, ∃ call, w'.calls[r.call]? = some call ∧ ∀ key ∉ reservedKeys,
      headerValues r.headers key = ((objects call.metadata).values key).map encodeValue := by
    intro r hr
    obtain ⟨call, hcall, hvalues⟩ := hw.requests r hr
    obtain ⟨status, hcall'⟩ := h.call_kept hcall
    exact ⟨_, hcall', hvalues⟩
  cases h with
  | filtered _ hcall hfiltered =>
      refine ⟨fun address key hkey => ?_, hold⟩
      have hfilter : key ∉ ["grpc-encoding", "grpc-accept-encoding", "grpc-timeout"] :=
        fun hmem => hkey (List.mem_append_right
          [":authority", "content-type", ":method", ":path", "te"] hmem)
      show (if _ then _ else _ : Metadata).internalRepr.own.lookup key = _
      split
      · rename_i haddress
        rw [hfiltered.lookup_of_ne hfilter, haddress]
        exact hw.heap _ key hkey
      · exact hw.heap address key hkey
  | request hattempt hcall _ _ _ hheaders =>
      refine ⟨hw.heap, fun r hr => ?_⟩
      rcases List.mem_append.mp hr with hr | hr
      · exact hold r hr
      · obtain rfl := List.mem_singleton.mp hr
        refine ⟨_, hcall, fun key hkey => ?_⟩
        rw [headerValues_requestHeaders hheaders hkey, Metadata.values, Metadata.values,
          hw.heap _ key hkey]
  | _ => exact ⟨hw.heap, hold⟩

/-- In every run the requests carry what the user has put under the keys that are free, and
nothing else. -/
theorem userValuesKept {config : Config γ} {objects : Nat → Metadata} {acts : List (Act γ)}
    {s : State γ} (h : Runs.exec (step config) (State.initial objects) acts = some s) :
    s.work.UserValuesKept objects :=
  Runs.exec_invariant (P := fun s => s.work.UserValuesKept objects)
    (fun _ _ _ hs hstep => hs.step (step_work hstep)) ⟨fun _ _ _ => rfl, nofun⟩ h

/-! ### When the credentials reach the wire -/

/-- One call with an empty object, on a channel that connects at once. -/
def oneCall (creds : CallCredentials γ) : List (Act γ) :=
  [.createStream 0 "/m" { credentials := some creds }, .sessionConnect 0, .emitNext 0, .emitNext 0,
    .filter 0, .filter 0, .filter 0, .settle 0]

/-- The call makes its request, whatever the credentials are. -/
theorem exec_oneCall (config : Config γ) (creds : CallCredentials γ) :
    ∃ s call r, Runs.exec (step config) (State.initial fun _ => Metadata.new) (oneCall creds) =
        some s ∧ s.calls[0]? = some call ∧ call.credentials = creds ∧ call.metadata = 0 ∧
      r ∈ s.requests ∧ r.call = 0 :=
  ⟨_, _, _, rfl, rfl, rfl, rfl, .head [], rfl⟩

/-- If the credentials reach the wire, then they have nothing to bring there. -/
theorem CredentialsReachWire.nothing {generate : γ → Except JsError Metadata}
    {config : Config γ} {creds : CallCredentials γ}
    (h : CredentialsReachWire generate config creds) :
    ¬ config.callCredentials.Fails generate ∧ ¬ creds.Fails generate ∧
      ∀ key ∉ reservedKeys, config.callCredentials.generated generate key = [] ∧
        creds.generated generate key = [] := by
  obtain ⟨s, call, r, hexec, hcall, hcreds, hmetadata, hr, hzero⟩ := exec_oneCall config creds
  have hcarries := h _ _ s hexec 0 call hcall hcreds
  -- There is a request, so none of the generators may fail.
  have hfails : ¬ (config.callCredentials.Fails generate ∨ creds.Fails generate) :=
    fun hfails => (hcarries.failed (by rwa [hcreds])).1 r hr hzero
  refine ⟨fun hf => hfails (.inl hf), fun hf => hfails (.inr hf), fun key hkey => ?_⟩
  -- The request carries what the empty object has under the key.
  obtain ⟨call', hcall', hvalues⟩ := (userValuesKept hexec).requests r hr
  rw [show s.work.calls = s.calls from rfl, hzero, hcall, Option.some.injEq] at hcall'
  obtain rfl := hcall'
  have hsent := (hvalues key hkey).symm.trans (hcarries.values r hr hzero key hkey)
  rw [hcreds, show (Metadata.new.values key) = [] from rfl, List.map_nil, List.nil_append] at hsent
  exact List.append_eq_nil_iff.mp (List.map_eq_nil_iff.mp hsent.symm)

/-- **When call credentials reach the wire.** The credentials of the channel and those of the
call reach the wire if and only if there is nothing to be brought there: no generator fails,
and all that they generate is under keys that the channel and the other filters set. -/
theorem credentialsReachWire_iff (generate : γ → Except JsError Metadata) (config : Config γ)
    (creds : CallCredentials γ) :
    CredentialsReachWire generate config creds ↔
      ¬ config.callCredentials.Fails generate ∧ ¬ creds.Fails generate ∧
        ∀ key ∉ reservedKeys, config.callCredentials.generated generate key = [] ∧
          creds.generated generate key = [] := by
  refine ⟨CredentialsReachWire.nothing, ?_⟩
  rintro ⟨hconfig, hcreds, hnothing⟩ objects acts s hexec i call hcall rfl
  refine ⟨fun r hr hri key hkey => ?_, fun hfails => ?_⟩
  · obtain ⟨call', hcall', hvalues⟩ := (userValuesKept hexec).requests r hr
    rw [show s.work.calls = s.calls from rfl, hri, hcall, Option.some.injEq] at hcall'
    obtain rfl := hcall'
    rw [hvalues key hkey, (hnothing key hkey).1, (hnothing key hkey).2, List.append_nil,
      List.append_nil]
  · rcases hfails with hfails | hfails
    · exact absurd hfails hconfig
    · exact absurd hfails hcreds

/-- A token in the credentials of the call does not arrive. -/
theorem token_not_sent :
    ¬ CredentialsReachWire (γ := Unit)
      (fun _ => .ok ⟨MetadataObject.empty.put "authorization" (.array [.string "Bearer t"])⟩)
      ⟨"localhost", .empty⟩ (.single ()) := by
  intro h
  obtain ⟨-, -, hnothing⟩ := h.nothing
  exact absurd (hnothing "authorization" (by decide)).2 (by decide)

end Channel

end GrpcNode.JsCore
