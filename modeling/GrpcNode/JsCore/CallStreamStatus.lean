import GrpcNode.JsCore.CallStreamDelivery
import GrpcNode.JsCore.CallStreamOutcome

/-!
# GrpcNode.JsCore.CallStreamStatus

The `'status'` event of a call.

Every way of ending a call goes through `endCall`; `endsCall` tells for each action the
status it passes there, and `step_statuses` that a step emits this status and no other. The
client relies on `OK` coming after the messages. It does not always: `'data'` and `'end'`
are held back while the HTTP/2 stream is paused, and `'trailers'` is not. The status is in
time exactly when `'end'` was delivered before the promise of the trailers settled
(`statusAfterData_iff`).
-/

namespace GrpcNode.JsCore.CallStream

open GrpcNode.Js

/-! ### What ends a call -/

/-- The `'status'` events that ending the call with `status` causes. -/
def State.statusEvents (s : State) (status : Option StatusObject) : List StatusObject :=
  match s.call.finalStatus with
  | none => status.toList
  | some _ => []

theorem State.statusEvents_none (s : State) : s.statusEvents none = [] := by
  unfold statusEvents
  cases s.call.finalStatus <;> rfl

/-- **A step emits the status it ends the call with, and only if the call had none.** -/
theorem step_statuses {filterStack : ReceiveFilter} {s s' : State} {a : Act} (hs : s.Writable)
    (h : step filterStack s a = some s') :
    s'.statuses = s.statuses ++ s.statusEvents (endsCall filterStack s a) := by
  have hending : s'.statuses = (s.outcome.endWith (endsCall filterStack s a)).statuses := by
    rw [show s'.statuses = s'.outcome.statuses from rfl, step_outcome hs h]
    exact congrArg Prod.snd (Outcome.ending_next filterStack s a)
  rw [hending]
  cases endsCall filterStack s a with
  | none => rw [s.statusEvents_none, List.append_nil]; rfl
  | some status =>
      rw [Outcome.endWith, Outcome.endCall_eq, State.statusEvents]
      cases hstatus : s.call.finalStatus with
      | none => simp [State.outcome, hstatus]
      | some _ => simp [State.outcome, hstatus]

/-- What ends a call is not the end of the HTTP/2 stream. -/
theorem ended_of_endsCall {filterStack : ReceiveFilter} {s s' : State} {a : Act}
    {status : StatusObject} (hs : s.Writable) (h : step filterStack s a = some s')
    (hends : status ∈ endsCall filterStack s a) : s'.ended = s.ended := by
  have ha : a ≠ .onEnd := by
    rintro rfl
    exact absurd hends nofun
  exact (next_of_step hs h).ended ha

/-! ### `OK` after the messages -/

/-- A status `OK` has been emitted only if all messages of the received bytes and the
`null` at their end have been pushed. -/
def StatusAfterData (s : State) : Prop :=
  ∀ status ∈ s.statuses, status.code = .ok →
    s.ended = true ∧ s.pushed = (decode s.received).map some ++ [none]

/-- The actions that end a call with `OK`: trailers that the filters make into a status
`OK`, and a `cancelWithStatus` that passes it. -/
def EndsWithOk (filterStack : ReceiveFilter) (s : State) : Act → Prop
  | .settle i => ∃ status finalStatus, s.jobs[i]? = some (.receiveTrailers status) ∧
      filterStack.receiveTrailers status = .ok finalStatus ∧ finalStatus.code = .ok
  | .cancelWithStatus status _ => status = .ok
  | _ => False

theorem streamClosedStatus_ne_ok (errorCode : Nat) : (streamClosedStatus errorCode).code ≠ .ok := by
  unfold streamClosedStatus
  split <;> decide

theorem endsWithOk_iff {filterStack : ReceiveFilter} {s : State} {a : Act} :
    EndsWithOk filterStack s a ↔ ∃ status ∈ endsCall filterStack s a, status.code = .ok := by
  cases a with
  | onResponse headers =>
      simp only [EndsWithOk, endsCall]
      split <;> simp
  | onStreamClosed errorCode => simp [EndsWithOk, endsCall, streamClosedStatus_ne_ok]
  | settle i =>
      simp only [EndsWithOk, endsCall]
      cases hjob : s.jobs[i]? with
      | none => simp
      | some job =>
          cases job with
          | receiveMetadata metadata =>
              dsimp only
              split <;> simp
          | receiveTrailers status =>
              dsimp only
              split <;> simp_all
  | _ => simp [EndsWithOk, endsCall]

/-- After the end of the stream all messages and the `null` are pushed, so only the end
itself matters. -/
theorem State.Good.statusAfterData {s : State} (hs : s.Good) :
    StatusAfterData s ↔ ((∃ status ∈ s.statuses, status.code = .ok) → s.ended = true) := by
  constructor
  · rintro h ⟨status, hmem, hok⟩
    exact (h status hmem hok).1
  · intro h status hmem hok
    have hended := h ⟨status, hmem, hok⟩
    obtain ⟨toCome, hgood⟩ := hs
    have hpushed : s.pushed = expected s.received s.ended := hgood.pushed_of_ended hended
    refine ⟨hended, ?_⟩
    rw [hpushed, expected, hended, if_pos rfl]

/-- One step: the status stays in time exactly if `'end'` comes before an `OK`. -/
theorem statusAfterData_step {filterStack : ReceiveFilter} {s s' : State} {a : Act}
    (hgood : s.Good) (hwrite : s.Writable) (hs : StatusAfterData s) (h : step filterStack s a = some s') :
    StatusAfterData s' ↔
      (s.call.finalStatus = none → EndsWithOk filterStack s a → s.ended = true) := by
  have hdelivery := step_delivery h
  have hstatuses := step_statuses hwrite h
  rw [hgood.statusAfterData] at hs
  rw [(hgood.step h).statusAfterData, hstatuses, endsWithOk_iff]
  unfold State.statusEvents
  cases hfinal : s.call.finalStatus with
  | some _ =>
      refine iff_of_true ?_ nofun
      rw [List.append_nil]
      exact fun hok => hdelivery.ended_mono (hs hok)
  | none =>
      constructor
      · rintro hended' - ⟨status, hends, hok⟩
        have hended : s'.ended = true :=
          hended' ⟨status, List.mem_append_right _ (by simpa using hends), hok⟩
        exact (ended_of_endsCall hwrite h hends).symm.trans hended
      · rintro hcond ⟨status, hmem, hok⟩
        rcases List.mem_append.mp hmem with hold | hnew
        · exact hdelivery.ended_mono (hs ⟨status, hold, hok⟩)
        · exact hdelivery.ended_mono (hcond rfl ⟨status, by simpa using hnew, hok⟩)

/-- **`OK` comes after the messages exactly when `'end'` comes before `OK`.** In every run,
a status `OK` is emitted only after all messages and the `null`, if and only if, whenever
a call without a status is ended with `OK`, the HTTP/2 stream has already ended. -/
theorem statusAfterData_iff (filterStack : ReceiveFilter) (acts : List Act) :
    Runs.Always (step filterStack) StatusAfterData State.initial acts ↔
      Runs.Guarded (step filterStack)
        (fun s a => s.call.finalStatus = none → EndsWithOk filterStack s a → s.ended = true)
        State.initial acts :=
  Runs.always_iff_guarded (J := fun s => s.Good ∧ s.Writable)
    (fun _ _ _ hJ hs h => statusAfterData_step hJ.1 hJ.2 hs h)
    (fun _ _ _ hJ _ _ h => ⟨hJ.1.step h, hJ.2.step h⟩) ⟨⟨[], Delivery.initial_good⟩, rfl⟩ nofun

/-- Two messages come in one chunk. The consumer takes the first and is not ready for the
second, which waits in the queue while the HTTP/2 stream is paused; the trailers are not
held back, and the call ends with `OK`. -/
def slowReader : List Act :=
  [.attachHttp2Stream, .read, .advance, .onData [0, 0, 0, 0, 1, 7, 0, 0, 0, 0, 1, 8],
    .advance, .advance, .advance, .pushReturns false, .advance, .advance, .advance, .advance,
    .onTrailers { own := OrderedMap.empty.put "grpc-status" (.one "0") }, .settle 0]

theorem statusAfterData_slowReader :
    ¬ Runs.Always (step .base) StatusAfterData State.initial slowReader := by
  intro h
  have hrun : (Runs.exec (step .base) State.initial slowReader).map
      (fun s => (s.statuses.map StatusObject.code, s.ended)) = some ([.ok], false) := by
    decide +kernel
  obtain ⟨s, hs, hobs⟩ := Option.map_eq_some_iff.mp hrun
  obtain ⟨hcodes, hended⟩ := Prod.mk.inj hobs
  have hok : Status.ok ∈ s.statuses.map StatusObject.code := by rw [hcodes]; exact List.mem_cons_self
  obtain ⟨status, hmem, hcode⟩ := List.mem_map.mp hok
  exact absurd (hended.symm.trans (h.last hs status hmem hcode).1) nofun

end GrpcNode.JsCore.CallStream
