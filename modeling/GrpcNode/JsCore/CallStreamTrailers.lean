import GrpcNode.JsCore.CallStreamOutcome

/-!
# GrpcNode.JsCore.CallStreamTrailers

What the trailers do to the status of a call.

The `'trailers'` handler makes a status of the headers, and the call ends with it when the
promise of `receiveTrailers` has settled. Until then the job waits in `State.jobs`. Two
things can go wrong. Neither the calls of `hasOwnProperty` on the header object nor the
percent-decoding of the message are in a `try`, so that there may be no status at all
(`trailersHandled_iff`). And any other event may end the call while the job waits: the status
is that of the trailers exactly if none does (`decided_iff`).
-/

namespace GrpcNode.JsCore.CallStream

open GrpcNode.Js

/-! ### The job of the trailers -/

/-- The status with which the call ends when the promise of `receiveTrailers(status)`
settles. -/
def receivedStatus (filterStack : ReceiveFilter) (status : StatusObject) : StatusObject :=
  match filterStack.receiveTrailers status with
  | .ok finalStatus => finalStatus
  | .error _ => ⟨.internal, "Failed to process received status", Metadata.new⟩

/-- The actions that cancel the call, from outside or from a handler. -/
def Cancels (filterStack : ReceiveFilter) (s : State) : Act → Prop
  | .cancelWithStatus _ _ => True
  | .onResponse headers =>
      ∃ e, Metadata.fromHttp2Headers ((headers.erase ":status").erase "content-type") = .error e
  | .settle i => ∃ metadata e, s.jobs[i]? = some (.receiveMetadata metadata) ∧
      filterStack.receiveMetadata metadata = .error e
  | _ => False

/-- The actions that end a call with no regard to trailers. -/
def EndsOtherwise (filterStack : ReceiveFilter) (s : State) (a : Act) : Prop :=
  (∃ errorCode, a = .onStreamClosed errorCode) ∨ a = .onError ∨ Cancels filterStack s a

/-- A call is ended by its trailers, or by something else. -/
theorem endsCall_cases {filterStack : ReceiveFilter} {s : State} {a : Act}
    {status : StatusObject} (h : endsCall filterStack s a = some status) :
    EndsOtherwise filterStack s a ∨ ∃ i received, a = .settle i ∧
      s.jobs[i]? = some (.receiveTrailers received) ∧
      status = receivedStatus filterStack received := by
  cases a with
  | onStreamClosed errorCode => exact .inl (.inl ⟨errorCode, rfl⟩)
  | onError => exact .inl (.inr (.inl rfl))
  | cancelWithStatus => exact .inl (.inr (.inr trivial))
  | onResponse headers =>
      simp only [endsCall] at h
      split at h
      · exact absurd h (by simp)
      · rename_i e hmetadata
        exact .inl (.inr (.inr ⟨e, hmetadata⟩))
  | settle i =>
      simp only [endsCall] at h
      split at h
      · rename_i metadata hjob
        split at h
        · exact absurd h (by simp)
        · rename_i e hfilter
          exact .inl (.inr (.inr ⟨metadata, e, hjob, hfilter⟩))
      · rename_i received hjob
        refine .inr ⟨i, received, rfl, hjob, ?_⟩
        unfold receivedStatus
        split at h <;> simp_all
      · exact absurd h (by simp)
  | _ => simp [endsCall] at h

theorem endsCall_of_endsOtherwise {filterStack : ReceiveFilter} {s : State} {a : Act}
    (h : EndsOtherwise filterStack s a) : endsCall filterStack s a ≠ none := by
  rcases h with ⟨errorCode, rfl⟩ | rfl | hcancels
  · exact nofun
  · exact nofun
  · cases a with
    | cancelWithStatus => exact nofun
    | onResponse headers =>
        obtain ⟨e, hmetadata⟩ := hcancels
        simp [endsCall, hmetadata]
    | settle i =>
        obtain ⟨metadata, e, hjob, hfilter⟩ := hcancels
        simp [endsCall, hjob, hfilter]
    | _ => exact absurd hcancels id

/-- The settling of the job of the trailers ends the call. -/
theorem endsCall_settle {filterStack : ReceiveFilter} {s : State} {i : Nat}
    {received : StatusObject} (h : s.jobs[i]? = some (.receiveTrailers received)) :
    endsCall filterStack s (.settle i) = some (receivedStatus filterStack received) := by
  simp only [endsCall, h, receivedStatus]
  cases filterStack.receiveTrailers received <;> rfl

namespace Outcome

variable {o o' : Outcome} {a : Act}

/-- The job of trailers waits until it settles. -/
theorem Next.mem_jobs (h : o.Next o' a) {job : Job} (hjob : job ∈ o.jobs) :
    job ∈ o'.jobs ∨ ∃ i, a = .settle i ∧ o.jobs[i]? = some job := by
  cases h with
  | response headers jobs _ hframe =>
      rw [hframe.jobs]
      exact .inl (List.mem_append_left _ hjob)
  | trailers _ heq =>
      rw [heq]
      exact .inl (List.mem_append_left _ hjob)
  | trailersThrow _ heq =>
      rw [heq]
      exact .inl hjob
  | ends heq =>
      rw [heq]
      exact .inl hjob
  | @settle i settled hsettled hframe =>
      rw [hframe.jobs]
      obtain ⟨j, hj⟩ := List.mem_iff_getElem?.mp hjob
      by_cases heq : j = i
      · exact .inr ⟨i, rfl, heq ▸ hj⟩
      · exact .inl (List.mem_eraseIdx_iff_getElem?.mpr ⟨j, heq, hj⟩)
  | other _ _ _ hframe =>
      rw [hframe.jobs]
      exact .inl hjob

/-- A job of trailers comes from trailers. -/
theorem Next.of_mem_jobs (h : o.Next o' a) {status : StatusObject}
    (hjob : .receiveTrailers status ∈ o'.jobs) : .receiveTrailers status ∈ o.jobs ∨
      ∃ headers, a = .onTrailers headers ∧
        trailersStatus o.mappedStatusCode headers = .ok status := by
  cases h with
  | response headers jobs hnone hframe =>
      rw [hframe.jobs] at hjob
      exact .inl ((List.mem_append.mp hjob).resolve_right (hnone status))
  | @trailers headers received hstatus heq =>
      rw [heq] at hjob
      rcases List.mem_append.mp hjob with hold | hnew
      · exact .inl hold
      · obtain rfl := Job.receiveTrailers.inj (List.mem_singleton.mp hnew)
        exact .inr ⟨headers, rfl, hstatus⟩
  | trailersThrow _ heq =>
      rw [heq] at hjob
      exact .inl hjob
  | ends heq =>
      rw [heq] at hjob
      exact .inl hjob
  | settle _ hframe =>
      rw [hframe.jobs] at hjob
      exact .inl (List.mem_of_mem_eraseIdx hjob)
  | other _ _ _ hframe =>
      rw [hframe.jobs] at hjob
      exact .inl hjob

theorem Next.trailed (h : o.Next o' a) (ha : ∀ headers, a ≠ .onTrailers headers) :
    o'.trailed = o.trailed ∧ o'.uncaught = o.uncaught := by
  cases h with
  | response headers jobs _ hframe => exact ⟨hframe.trailed, hframe.uncaught⟩
  | trailers _ _ => exact absurd rfl (ha _)
  | trailersThrow _ _ => exact absurd rfl (ha _)
  | ends heq => exact heq ▸ ⟨rfl, rfl⟩
  | settle _ hframe => exact ⟨hframe.trailed, hframe.uncaught⟩
  | other _ _ _ hframe => exact ⟨hframe.trailed, hframe.uncaught⟩

end Outcome

/-! ### Every trailers block ends the call -/

/-- The message of the trailers, if there is one, can be percent-decoded. -/
def Decodable (headers : Headers) : Prop :=
  ∀ message, headers.lookup "grpc-message" = some message →
    ∃ details, decodeURI message.toText = .ok details

/-- The handler can look for the two headers of the protocol, and can decode the message. -/
structure Readable (headers : HeaderObject) : Prop where
  accessible : headers.Accessible
  decodable : Decodable headers.own

theorem decodable_iff_trailersDetails {headers : HeaderObject} (h : headers.Accessible) :
    Decodable headers.own ↔ ∃ details, trailersDetails headers = .ok details := by
  unfold Decodable
  rw [trailersDetails_of_accessible h]
  cases headers.own.lookup "grpc-message" with
  | none => exact iff_of_true nofun ⟨_, rfl⟩
  | some message =>
      constructor
      · exact fun h => h message rfl
      · rintro h _ ⟨⟩
        exact h

/-- Nothing but the header object and the message can keep the trailers from having a status. -/
theorem readable_iff {headers : HeaderObject} (mappedStatusCode : Status) :
    Readable headers ↔ ∃ status, trailersStatus mappedStatusCode headers = .ok status := by
  by_cases haccessible : headers.Accessible
  · have hreadable : Readable headers ↔ Decodable headers.own :=
      ⟨Readable.decodable, fun h => ⟨haccessible, h⟩⟩
    obtain ⟨code, hcode⟩ := trailersCode_of_accessible haccessible mappedStatusCode
    rw [hreadable, decodable_iff_trailersDetails haccessible, trailersStatus, hcode]
    cases trailersDetails headers with
    | ok details => exact iff_of_true ⟨details, rfl⟩ ⟨_, rfl⟩
    | error e =>
        refine iff_of_false ?_ ?_
        · rintro ⟨details, h⟩
          cases h
        · rintro ⟨status, h⟩
          cases (show Except.error e = Except.ok status from h)
  · refine iff_of_false (fun h => haccessible h.accessible) ?_
    rintro ⟨status, h⟩
    cases (trailersStatus_of_not_accessible haccessible _).symm.trans h

/-- No exception has escaped; and when trailers have come and no promise of
`receiveTrailers` is left to settle, the call has a status. -/
structure TrailersHandled (s : State) : Prop where
  uncaught : s.uncaught = []
  ended : s.trailed = true → (∀ status, .receiveTrailers status ∉ s.jobs) →
    s.call.finalStatus ≠ none

/-- The settling of the last job gives the call a status. -/
theorem TrailersHandled.step_other {filterStack : ReceiveFilter} {s s' : State} {a : Act}
    (hs : TrailersHandled s) (hwrite : s.Writable) (h : step filterStack s a = some s')
    (ha : ∀ headers, a ≠ .onTrailers headers) : TrailersHandled s' := by
  have hnext := next_of_step hwrite h
  have hfinal := finalStatus_step hwrite h
  obtain ⟨htrailed, huncaught⟩ := hnext.trailed ha
  refine ⟨huncaught.trans hs.uncaught, fun htrailed' hnone hlive => ?_⟩
  obtain ⟨hbefore, hends⟩ := Option.or_eq_none_iff.mp (hfinal.symm.trans hlive)
  refine hs.ended (htrailed.symm.trans htrailed') (fun status hjob => ?_) hbefore
  rcases hnext.mem_jobs hjob with hwaits | ⟨i, rfl, hsettles⟩
  · exact hnone status hwaits
  · exact absurd ((endsCall_settle hsettles).symm.trans hends) nofun

theorem trailersHandled_step {filterStack : ReceiveFilter} {s s' : State} {a : Act}
    (hwrite : s.Writable) (hs : TrailersHandled s) (h : step filterStack s a = some s') :
    TrailersHandled s' ↔ ∀ headers, a = .onTrailers headers → Readable headers := by
  by_cases ha : ∃ headers, a = .onTrailers headers
  · obtain ⟨headers, rfl⟩ := ha
    have hnext := next_of_step hwrite h
    cases hnext with
    | @trailers _ status hstatus heq =>
        refine iff_of_true ⟨?_, ?_⟩ ?_
        · exact (congrArg Outcome.uncaught heq).trans hs.uncaught
        · intro _ hnone
          refine absurd ?_ (hnone status)
          rw [show s'.jobs = s'.outcome.jobs from rfl, heq]
          exact List.mem_append_right _ (List.mem_singleton_self _)
        · rintro _ ⟨⟩
          exact (readable_iff _).mpr ⟨status, hstatus⟩
    | @trailersThrow _ e he heq =>
        refine iff_of_false ?_ ?_
        · intro hs'
          have huncaught := (congrArg Outcome.uncaught heq).symm.trans hs'.uncaught
          exact List.append_ne_nil_of_right_ne_nil _ (List.cons_ne_nil e []) huncaught
        · intro hreadable
          obtain ⟨status, hok⟩ := (readable_iff _).mp (hreadable headers rfl)
          exact absurd (he.symm.trans hok) nofun
    | other _ hne _ _ => exact absurd rfl (hne headers)
  · have hne : ∀ headers, a ≠ .onTrailers headers := fun headers heq => ha ⟨headers, heq⟩
    exact iff_of_true (hs.step_other hwrite h hne) fun headers heq => absurd heq (hne headers)

/-- **Trailers end the call exactly if `hasOwnProperty` can be called on their header object and
their message can be decoded.** -/
theorem trailersHandled_iff (filterStack : ReceiveFilter) (acts : List Act) :
    Runs.Always (step filterStack) TrailersHandled State.initial acts ↔
      Runs.Guarded (step filterStack)
        (fun _ a => ∀ headers, a = .onTrailers headers → Readable headers) State.initial acts :=
  Runs.always_iff_guarded (J := State.Writable)
    (fun _ _ _ hwrite hs h => trailersHandled_step hwrite hs h)
    (fun _ _ _ hwrite _ _ h => hwrite.step h) rfl ⟨rfl, nofun⟩

/-- A message that is a lone percent sign. -/
def percentTrailers : HeaderObject where
  own := (OrderedMap.empty.put "grpc-status" (.one "5")).put "grpc-message" (.one "100%")

theorem trailersHandled_percent : ¬ Runs.Always (step .base) TrailersHandled State.initial
    [.attachHttp2Stream, .onTrailers percentTrailers] := by
  intro h
  have hrun : (Runs.exec (step .base) State.initial
      [.attachHttp2Stream, .onTrailers percentTrailers]).map State.uncaught =
        some [.uriError "URI malformed"] := by
    decide +kernel
  obtain ⟨s, hs, huncaught⟩ := Option.map_eq_some_iff.mp hrun
  exact absurd (huncaught.symm.trans (h.last hs).uncaught) nofun

/-! ### The trailers decide the status -/

/-- The call has the status `received` of its trailers, as the filters have changed it, or it has
none and this is still to come. -/
def Decided (filterStack : ReceiveFilter) (received : StatusObject) (s : State) : Prop :=
  s.call.finalStatus = some (receivedStatus filterStack received) ∨
    s.call.finalStatus = none ∧ .receiveTrailers received ∈ s.jobs

/-- No other event ends the call, unless it happens to end it with that same status. -/
def NotForestalled (filterStack : ReceiveFilter) (received : StatusObject) (s : State) (a : Act) :
    Prop :=
  s.call.finalStatus = none → EndsOtherwise filterStack s a →
    endsCall filterStack s a = some (receivedStatus filterStack received)

/-- The trailers come once. -/
structure SoleTrailers (received : StatusObject) (s : State) : Prop where
  writable : s.Writable
  trailed : s.trailed = true
  sole : ∀ status, .receiveTrailers status ∈ s.jobs → status = received

theorem not_onTrailers {filterStack : ReceiveFilter} {s s' : State} {a : Act}
    (h : step filterStack s a = some s') (htrailed : s.trailed = true) (headers : HeaderObject) :
    a ≠ .onTrailers headers := by
  rintro rfl
  cases step_effect h with
  | onTrailers _ _ hfirst => exact absurd (htrailed.symm.trans hfirst) nofun

theorem SoleTrailers.step {received : StatusObject} {filterStack : ReceiveFilter} {s s' : State}
    {a : Act} (hs : SoleTrailers received s) (h : step filterStack s a = some s') :
    SoleTrailers received s' where
  writable := hs.writable.step h
  trailed :=
    ((next_of_step hs.writable h).trailed (not_onTrailers h hs.trailed)).1.trans hs.trailed
  sole status hjob := by
    rcases (next_of_step hs.writable h).of_mem_jobs hjob with hold | ⟨headers, rfl, -⟩
    · exact hs.sole status hold
    · exact absurd rfl (not_onTrailers h hs.trailed headers)

theorem decided_step {received : StatusObject} {filterStack : ReceiveFilter} {s s' : State}
    {a : Act} (hsole : SoleTrailers received s) (hs : Decided filterStack received s)
    (h : step filterStack s a = some s') :
    Decided filterStack received s' ↔ NotForestalled filterStack received s a := by
  have hnext := next_of_step hsole.writable h
  have hfinal := finalStatus_step hsole.writable h
  unfold Decided NotForestalled
  rcases hs with hended | ⟨hlive, hjob⟩
  · refine iff_of_true (.inl ?_) fun hlive => absurd (hended.symm.trans hlive) nofun
    rw [hfinal, hended]
    rfl
  · rw [hlive, Option.none_or] at hfinal
    rw [hfinal]
    constructor
    · rintro (hends | ⟨hnone, -⟩) - hother
      · exact hends
      · exact absurd hnone (endsCall_of_endsOtherwise hother)
    · intro hguard
      cases hends : endsCall filterStack s a with
      | none =>
          refine .inr ⟨rfl, (hnext.mem_jobs hjob).resolve_right ?_⟩
          rintro ⟨i, rfl, hsettles⟩
          exact absurd ((endsCall_settle hsettles).symm.trans hends) nofun
      | some status =>
          rcases endsCall_cases hends with hother | ⟨i, settled, rfl, hsettles, rfl⟩
          · exact .inl (hends.symm.trans (hguard hlive hother))
          · rw [hsole.sole settled (List.mem_of_getElem? hsettles)]
            exact .inl rfl

/-- Before trailers come there is no job of them. -/
def NoTrailers (s : State) : Prop :=
  s.Writable ∧ (s.trailed = false → ∀ status, .receiveTrailers status ∉ s.jobs)

theorem noTrailers_initial : NoTrailers State.initial := ⟨rfl, fun _ _ => List.not_mem_nil⟩

theorem NoTrailers.step {filterStack : ReceiveFilter} {s s' : State} {a : Act}
    (hs : NoTrailers s) (h : step filterStack s a = some s') : NoTrailers s' := by
  have hnext := next_of_step hs.1 h
  refine ⟨hs.1.step h, fun hbefore status hjob => ?_⟩
  by_cases ha : ∃ headers, a = .onTrailers headers
  · obtain ⟨headers, rfl⟩ := ha
    have htrailed : s'.outcome.trailed = true := by
      cases hnext with
      | trailers _ heq => rw [heq]
      | trailersThrow _ heq => rw [heq]
      | other _ hne _ _ => exact absurd rfl (hne headers)
    exact absurd (htrailed.symm.trans hbefore) nofun
  · have hne : ∀ headers, a ≠ .onTrailers headers := fun headers heq => ha ⟨headers, heq⟩
    have hbefore' : s.trailed = false := (hnext.trailed hne).1.symm.trans hbefore
    rcases hnext.of_mem_jobs hjob with hold | ⟨headers, rfl, -⟩
    · exact hs.2 hbefore' status hold
    · exact hne headers rfl

theorem soleTrailers_of_onTrailers {received : StatusObject} {filterStack : ReceiveFilter}
    {s s' : State} {headers : HeaderObject} (hs : NoTrailers s)
    (h : step filterStack s (.onTrailers headers) = some s')
    (hstatus : trailersStatus s.call.mappedStatusCode headers = .ok received) :
    SoleTrailers received s' ∧ .receiveTrailers received ∈ s'.jobs := by
  have hfirst : s.trailed = false := by
    cases step_effect h with
    | onTrailers _ _ hfirst => exact hfirst
  have hs' : s' = s.onTrailers headers := by
    cases step_effect h with
    | onTrailers _ _ _ => rfl
  have hjobs : s'.jobs = s.jobs ++ [.receiveTrailers received] := by
    rw [hs', State.onTrailers]
    simp only [hstatus]
  refine ⟨⟨hs.1.step h, ?_, fun status hjob => ?_⟩, ?_⟩
  · rw [hs', State.onTrailers]
    simp only [hstatus]
  · rw [hjobs] at hjob
    rcases List.mem_append.mp hjob with hold | hnew
    · exact absurd hold (hs.2 hfirst status)
    · exact Job.receiveTrailers.inj (List.mem_singleton.mp hnew)
  · rw [hjobs]
    exact List.mem_append_right _ (List.mem_singleton_self _)

/-- **Received trailers decide the status** of a call that has none **exactly if** they can be
read, message included, and nothing else ends the call before the promise of `receiveTrailers`
settles. The close of the HTTP/2 stream does, with any error code. -/
theorem decided_iff (filterStack : ReceiveFilter) {before after : List Act}
    {headers : HeaderObject} {s s' : State} (hs : Runs.exec (step filterStack) State.initial before = some s)
    (hlive : s.call.finalStatus = none) (h : step filterStack s (.onTrailers headers) = some s') :
    (∃ received, trailersStatus s.call.mappedStatusCode headers = .ok received ∧
        Runs.Always (step filterStack) (Decided filterStack received) s' after) ↔
      Readable headers ∧
        ∀ received, trailersStatus s.call.mappedStatusCode headers = .ok received →
          Runs.Guarded (step filterStack) (NotForestalled filterStack received) s' after := by
  have hnone : NoTrailers s :=
    Runs.exec_invariant (fun _ _ _ hu hstep => hu.step hstep) noTrailers_initial hs
  have hlive' : s'.call.finalStatus = none := by
    have hfinal := finalStatus_step hnone.1 h
    rw [hlive] at hfinal
    exact hfinal
  have hiff : ∀ received, trailersStatus s.call.mappedStatusCode headers = .ok received →
      (Runs.Always (step filterStack) (Decided filterStack received) s' after ↔
        Runs.Guarded (step filterStack) (NotForestalled filterStack received) s' after) := by
    intro received hstatus
    obtain ⟨hsole, hjob⟩ := soleTrailers_of_onTrailers hnone h hstatus
    exact Runs.always_iff_guarded (J := SoleTrailers received)
      (fun _ _ _ hsole hs h => decided_step hsole hs h) (fun _ _ _ hsole _ _ h => hsole.step h)
      hsole (.inr ⟨hlive', hjob⟩)
  rw [readable_iff s.call.mappedStatusCode]
  constructor
  · rintro ⟨received, hstatus, halways⟩
    refine ⟨⟨received, hstatus⟩, fun other hother => ?_⟩
    obtain rfl := Except.ok.inj (hstatus.symm.trans hother)
    exact (hiff received hstatus).mp halways
  · rintro ⟨⟨received, hstatus⟩, hguard⟩
    exact ⟨received, hstatus, (hiff received hstatus).mpr (hguard received hstatus)⟩

/-- Trailers with the status `OK`. -/
def okTrailers : HeaderObject where
  own := OrderedMap.empty.put "grpc-status" (.one "0")

theorem decided_iff_okTrailers :
    (∃ received, trailersStatus .unknown okTrailers = .ok received ∧
        Runs.Always (step .base) (Decided .base received)
          (State.initial.attachHttp2Stream.onTrailers okTrailers) [.settle 0, .onStreamClosed 0]) ↔
      Readable okTrailers ∧ ∀ received, trailersStatus .unknown okTrailers = .ok received →
        Runs.Guarded (step .base) (NotForestalled .base received)
          (State.initial.attachHttp2Stream.onTrailers okTrailers) [.settle 0, .onStreamClosed 0] :=
  decided_iff .base
    (show Runs.exec (step .base) State.initial [.attachHttp2Stream] =
      some State.initial.attachHttp2Stream from rfl) rfl rfl

/-- The HTTP/2 stream is closed, with `NGHTTP2_NO_ERROR`, right after the trailers of a successful
call. -/
theorem decided_closedEarly : ∃ s s', Runs.exec (step .base) State.initial [.attachHttp2Stream] =
      some s ∧ s.call.finalStatus = none ∧ step .base s (.onTrailers okTrailers) = some s' ∧
    ¬ ∃ received, trailersStatus s.call.mappedStatusCode okTrailers = .ok received ∧
      Runs.Always (step .base) (Decided .base received) s' [.onStreamClosed 0, .settle 0] := by
  refine ⟨State.initial.attachHttp2Stream, _, rfl, rfl, rfl, ?_⟩
  rintro ⟨received, hstatus, halways⟩
  have hok : received.code = .ok := by
    have hcode : (trailersStatus .unknown okTrailers).map StatusObject.code = .ok .ok := by
      decide +kernel
    rw [show trailersStatus .unknown okTrailers = .ok received from hstatus] at hcode
    exact Except.ok.inj hcode
  have hlast := halways.2 _ rfl
  rcases hlast.1 with hdecided | ⟨hnone, -⟩
  · have hcode := congrArg StatusObject.code (Option.some.inj hdecided)
    exact absurd (hcode.trans hok) (by decide)
  · exact absurd hnone nofun

end GrpcNode.JsCore.CallStream
