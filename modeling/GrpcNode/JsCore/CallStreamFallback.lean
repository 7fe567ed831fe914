import GrpcNode.JsCore.CallStreamTrailers

/-!
# GrpcNode.JsCore.CallStreamFallback

The status of a call that gets no `grpc-status`.

The `'response'` handler keeps the status that the HTTP status stands for, and the
`'trailers'` handler falls back on it. The `'streamClosed'` handler does not: a response
without trailers ends with `INTERNAL` (`mappedStatus_iff`).
-/

namespace GrpcNode.JsCore.CallStream

open GrpcNode.Js

/-- No action brings a `grpc-status`, and the HTTP/2 stream goes on, or ends with
`NGHTTP2_NO_ERROR`. -/
structure NoGrpcStatus (filterStack : ReceiveFilter) (s : State) (a : Act) : Prop where
  trailers : ∀ headers, a = .onTrailers headers → headers.own.lookup "grpc-status" = none
  closed : ∀ errorCode, a = .onStreamClosed errorCode → errorCode = 0
  noError : a ≠ .onError
  notCancelled : ¬ Cancels filterStack s a

/-- A call that has ended has the mapped status. -/
def EndedWith (mappedStatusCode : Status) (s : State) : Prop :=
  ∀ status, s.call.finalStatus = some status → status.code = mappedStatusCode

/-- The mapped status is kept, also by the trailers whose promise has not settled. -/
structure Mapped (mappedStatusCode : Status) (s : State) : Prop where
  writable : s.Writable
  responded : s.responded = true
  mapped : s.call.mappedStatusCode = mappedStatusCode
  jobs : ∀ status, .receiveTrailers status ∈ s.jobs → status.code = mappedStatusCode

theorem mapHttpStatus_eq_internal {httpStatus : String} :
    mapHttpStatus (some (.one httpStatus)) = .internal ↔ httpStatus = "400" := by
  unfold mapHttpStatus
  constructor
  · intro h
    by_contra hne
    simp only [if_neg hne] at h
    split_ifs at h
  · rintro rfl
    rfl

/-- Trailers without a `grpc-status` have the mapped status. -/
theorem code_of_trailersStatus {mappedStatusCode : Status} {headers : HeaderObject}
    {status : StatusObject} (hnone : headers.own.lookup "grpc-status" = none)
    (h : trailersStatus mappedStatusCode headers = .ok status) :
    status.code = mappedStatusCode := by
  have hreadable := (readable_iff mappedStatusCode).mpr ⟨status, h⟩
  have hcode : trailersCode mappedStatusCode headers = .ok mappedStatusCode := by
    rw [trailersCode, HeaderObject.ownProperty_of_accessible hreadable.accessible, hnone]
  rw [trailersStatus, hcode] at h
  cases hdetails : trailersDetails headers with
  | error e =>
      rw [hdetails] at h
      cases (show Except.error e = Except.ok status from h)
  | ok details =>
      rw [hdetails] at h
      obtain rfl := Except.ok.inj h
      rfl

theorem Outcome.Next.responded {o o' : Outcome} {a : Act} (h : o.Next o' a)
    (ha : ∀ headers, a ≠ .onResponse headers) :
    o'.responded = o.responded ∧ o'.mappedStatusCode = o.mappedStatusCode := by
  cases h with
  | response headers _ _ _ => exact absurd rfl (ha headers)
  | trailers _ heq => exact heq ▸ ⟨rfl, rfl⟩
  | trailersThrow _ heq => exact heq ▸ ⟨rfl, rfl⟩
  | ends heq => exact heq ▸ ⟨rfl, rfl⟩
  | settle _ hframe => exact ⟨hframe.responded, hframe.mappedStatusCode⟩
  | other _ _ _ hframe => exact ⟨hframe.responded, hframe.mappedStatusCode⟩

/-- The response comes once. -/
theorem not_onResponse {filterStack : ReceiveFilter} {s s' : State} {a : Act}
    (h : step filterStack s a = some s') (hresponded : s.responded = true) (headers : Headers) :
    a ≠ .onResponse headers := by
  rintro rfl
  cases step_effect h with
  | onResponse _ _ hfirst => exact absurd (hresponded.symm.trans hfirst) nofun

variable {receiveMetadata : Metadata → Except JsError Metadata} {mappedStatusCode : Status}

theorem Mapped.step {s s' : State} {a : Act} (hs : Mapped mappedStatusCode s)
    (ha : NoGrpcStatus ⟨receiveMetadata, .ok⟩ s a)
    (h : step ⟨receiveMetadata, .ok⟩ s a = some s') : Mapped mappedStatusCode s' := by
  have hnext := next_of_step hs.writable h
  obtain ⟨hresponded, hmapped⟩ := hnext.responded (not_onResponse h hs.responded)
  refine ⟨hs.writable.step h, hresponded.trans hs.responded, hmapped.trans hs.mapped, ?_⟩
  intro status hjob
  rcases hnext.of_mem_jobs hjob with hold | ⟨headers, rfl, hstatus⟩
  · exact hs.jobs status hold
  · exact (code_of_trailersStatus (ha.trailers headers rfl) hstatus).trans hs.mapped

/-- What ends the call is the job of trailers, or the close of the HTTP/2 stream. -/
theorem endedWith_step {httpStatus : String} {s s' : State} {a : Act}
    (hmapped : Mapped (mapHttpStatus (some (.one httpStatus))) s)
    (hs : EndedWith (mapHttpStatus (some (.one httpStatus))) s)
    (ha : NoGrpcStatus ⟨receiveMetadata, .ok⟩ s a)
    (h : step ⟨receiveMetadata, .ok⟩ s a = some s') :
    EndedWith (mapHttpStatus (some (.one httpStatus))) s' ↔
      (s.call.finalStatus = none → ∀ errorCode, a = .onStreamClosed errorCode →
        httpStatus = "400") := by
  have hfinal := finalStatus_step hmapped.writable h
  unfold EndedWith at hs ⊢
  cases hlive : s.call.finalStatus with
  | some status =>
      rw [hlive] at hs
      rw [hfinal, hlive, Option.some_or]
      exact iff_of_true hs nofun
  | none =>
      rw [hfinal, hlive, Option.none_or]
      by_cases hclosed : ∃ errorCode, a = .onStreamClosed errorCode
      · obtain ⟨errorCode, rfl⟩ := hclosed
        obtain rfl := ha.closed errorCode rfl
        rw [← mapHttpStatus_eq_internal]
        constructor
        · intro hends _ _ _
          exact (hends _ rfl).symm
        · rintro hinternal _ ⟨⟩
          exact (hinternal rfl 0 rfl).symm
      · refine iff_of_true (fun status hends => ?_) fun _ errorCode heq =>
          absurd ⟨errorCode, heq⟩ hclosed
        rcases endsCall_cases hends with hother | ⟨i, received, rfl, hjob, hreceived⟩
        · rcases hother with hclose | herror | hcancels
          · exact absurd hclose hclosed
          · exact absurd herror ha.noError
          · exact absurd hcancels ha.notCancelled
        · rw [hreceived]
          exact hmapped.jobs received (List.mem_of_getElem? hjob)

/-- The response brings the mapped status, -/
theorem mapped_of_onResponse {headers : Headers} {httpStatus : String} {s s' : State}
    (hs : NoTrailers s) (hbefore : s.trailed = false)
    (hstatus : headers.lookup ":status" = some (.one httpStatus))
    (h : step ⟨receiveMetadata, .ok⟩ s (.onResponse headers) = some s') :
    Mapped (mapHttpStatus (some (.one httpStatus))) s' := by
  have hnext := next_of_step hs.1 h
  cases hnext with
  | response _ jobs hjobs hframe =>
      refine ⟨hs.1.step h, hframe.responded, ?_, fun status hjob => ?_⟩
      · rw [← hstatus]
        exact hframe.mappedStatusCode
      · rw [show s'.jobs = s'.outcome.jobs from rfl, hframe.jobs] at hjob
        rcases List.mem_append.mp hjob with hold | hnew
        · exact absurd hold (hs.2 hbefore status)
        · exact absurd hnew (hjobs status)
  | other hne _ _ _ => exact absurd rfl (hne headers)

/-- and does not end the call, unless its metadata cannot be read. -/
theorem finalStatus_of_onResponse {headers : Headers} {s s' : State} (hs : s.Writable)
    (hlive : s.call.finalStatus = none)
    (hkept : ¬ Cancels ⟨receiveMetadata, .ok⟩ s (.onResponse headers))
    (h : step ⟨receiveMetadata, .ok⟩ s (.onResponse headers) = some s') :
    s'.call.finalStatus = none := by
  have hfinal := finalStatus_step hs h
  rw [hlive, Option.none_or] at hfinal
  refine hfinal.trans (Option.eq_none_iff_forall_ne_some.mpr fun status hends => ?_)
  rcases endsCall_cases hends with hother | ⟨i, received, heq, -⟩
  · rcases hother with ⟨errorCode, heq⟩ | heq | hcancels
    · exact absurd heq nofun
    · exact absurd heq nofun
    · exact hkept hcancels
  · exact absurd heq nofun

/-- **The HTTP status is the fallback exactly if trailers end the call.** After a response with a
`:status`, and without any `grpc-status`, the code is the one that the HTTP status stands for, if
and only if the HTTP/2 stream is not closed before the call has ended; `INTERNAL`, which it is then,
is what the HTTP status 400 stands for. -/
theorem mappedStatus_iff {before after : List Act} {headers : Headers} {httpStatus : String}
    {s s' : State} (hs : Runs.exec (step ⟨receiveMetadata, .ok⟩) State.initial before = some s)
    (hlive : s.call.finalStatus = none) (hbefore : s.trailed = false)
    (hstatus : headers.lookup ":status" = some (.one httpStatus))
    (h : step ⟨receiveMetadata, .ok⟩ s (.onResponse headers) = some s')
    (hquiet : Runs.Guarded (step ⟨receiveMetadata, .ok⟩) (NoGrpcStatus ⟨receiveMetadata, .ok⟩) s
      (.onResponse headers :: after)) :
    Runs.Always (step ⟨receiveMetadata, .ok⟩)
        (EndedWith (mapHttpStatus (some (.one httpStatus)))) s' after ↔
      Runs.Guarded (step ⟨receiveMetadata, .ok⟩)
        (fun t a => t.call.finalStatus = none → ∀ errorCode, a = .onStreamClosed errorCode →
          httpStatus = "400") s' after := by
  have hnone : NoTrailers s :=
    Runs.exec_invariant (fun _ _ _ hu hstep => hu.step hstep) noTrailers_initial hs
  obtain ⟨hfirst, hafter⟩ := hquiet s' h
  have hlive' := finalStatus_of_onResponse hnone.1 hlive hfirst.notCancelled h
  exact Runs.always_iff_guarded_of (D := NoGrpcStatus ⟨receiveMetadata, .ok⟩)
    (J := Mapped (mapHttpStatus (some (.one httpStatus))))
    (fun _ _ _ hmapped hs ha h => endedWith_step hmapped hs ha h)
    (fun _ _ _ hmapped _ _ ha h => hmapped.step ha h)
    (mapped_of_onResponse hnone hbefore hstatus h)
    (fun status hends => absurd (hlive'.symm.trans hends) nofun) hafter

/-- A response with the HTTP status 503. -/
def unavailableResponse : Headers := OrderedMap.empty.put ":status" (.one "503")

theorem noGrpcStatus_unavailableResponse (s : State) :
    NoGrpcStatus .base s (.onResponse unavailableResponse) where
  trailers _ := nofun
  closed _ := nofun
  noError := nofun
  notCancelled := by
    rintro ⟨e, he⟩
    have hok : (Metadata.fromHttp2Headers ((unavailableResponse.erase ":status").erase
      "content-type")).toOption.isSome = true := by decide +kernel
    rw [he] at hok
    exact absurd hok nofun

theorem noGrpcStatus_onStreamClosed (s : State) :
    NoGrpcStatus .base s (.onStreamClosed 0) where
  trailers _ := nofun
  closed _ h := (Act.onStreamClosed.inj h).symm
  noError := nofun
  notCancelled := id

theorem noGrpcStatus_settle (s : State) (i : Nat) : NoGrpcStatus .base s (.settle i) where
  trailers _ := nofun
  closed _ := nofun
  noError := nofun
  notCancelled := by
    rintro ⟨metadata, e, -, he⟩
    exact absurd he nofun

theorem noGrpcStatus_emptyTrailers (s : State) :
    NoGrpcStatus .base s (.onTrailers ⟨.empty, true⟩) where
  trailers headers h := by
    obtain rfl := Act.onTrailers.inj h
    rfl
  closed _ := nofun
  noError := nofun
  notCancelled := id

theorem mappedStatus_iff_unavailable :
    Runs.Always (step .base) (EndedWith (mapHttpStatus (some (.one "503"))))
        (State.initial.attachHttp2Stream.onResponse unavailableResponse)
        [.onTrailers ⟨.empty, true⟩, .settle 1, .onStreamClosed 0] ↔
      Runs.Guarded (step .base)
        (fun t a => t.call.finalStatus = none → ∀ errorCode, a = .onStreamClosed errorCode →
          "503" = "400") (State.initial.attachHttp2Stream.onResponse unavailableResponse)
        [.onTrailers ⟨.empty, true⟩, .settle 1, .onStreamClosed 0] := by
  refine mappedStatus_iff
    (show Runs.exec (step .base) State.initial [.attachHttp2Stream] =
      some State.initial.attachHttp2Stream from rfl) rfl rfl rfl rfl ?_
  exact fun s _ => ⟨noGrpcStatus_unavailableResponse _, fun s _ =>
    ⟨noGrpcStatus_emptyTrailers _, fun s _ => ⟨noGrpcStatus_settle _ _, fun s _ =>
      ⟨noGrpcStatus_onStreamClosed _, trivial⟩⟩⟩⟩

/-- A response with the HTTP status 503 and no trailers: the close of the HTTP/2 stream ends the
call. -/
theorem mappedStatus_unavailable : ∃ s s', Runs.exec (step .base) State.initial
      [.attachHttp2Stream] = some s ∧ s.call.finalStatus = none ∧
    step .base s (.onResponse unavailableResponse) = some s' ∧
    Runs.Guarded (step .base) (NoGrpcStatus .base) s
      [.onResponse unavailableResponse, .onStreamClosed 0] ∧
    ¬ Runs.Always (step .base) (EndedWith (mapHttpStatus (some (.one "503")))) s'
      [.onStreamClosed 0] := by
  refine ⟨State.initial.attachHttp2Stream, _, rfl, rfl, rfl, ?_, ?_⟩
  · exact fun s _ => ⟨noGrpcStatus_unavailableResponse _, fun s _ =>
      ⟨noGrpcStatus_onStreamClosed _, trivial⟩⟩
  · intro h
    exact absurd ((h.2 _ rfl) _ rfl) (by decide)

end GrpcNode.JsCore.CallStream
