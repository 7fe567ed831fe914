import GrpcNode.JsCore.Client

/-!
# GrpcNode.JsCore.ClientCalls

What a failing serializer leaves behind.

`Sync` says that the channel and the streams agree about which calls have ended, so a call that
has ended makes no more requests. `Good` adds what is known of the calls for which a serializer
has failed: they have been cancelled. `tryWrite` sees to that; the request functions that
serialize their argument themselves do not (`noOpenCall_iff`).
-/

namespace GrpcNode.JsCore

open GrpcNode.Js

/-! ### The channel -/

namespace Channel

variable {γ : Type} {config : Config γ} {s s' : State γ}

/-- The statuses of the calls, as the channel sees them. -/
def State.statuses (s : State γ) : List (Option StatusObject) := s.calls.map Call.status

theorem State.requestsOf_congr (h : s'.requests = s.requests) (call : Nat) :
    s'.requestsOf call = s.requestsOf call := by
  rw [requestsOf, h, requestsOf]

/-- Where nothing is seen, nothing changes. -/
theorem State.statuses_unseen (s : State γ) (i : Nat) :
    s.statuses = s.statuses.modify i (·.or none) := by
  simp only [Option.or_none]
  exact (List.modify_id i _).symm

theorem State.statuses_endCall (s : State γ) (i : Nat) (status : StatusObject) :
    (s.endCall i status).statuses = s.statuses.modify i (·.or (some status)) := by
  unfold statuses endCall
  apply List.ext_getElem?
  intro j
  simp only [List.getElem?_map, List.getElem?_modify]
  by_cases h : i = j <;> simp [h, Function.comp_def]

/-- A step that neither creates nor ends a call, nor settles its metadata. -/
theorem statuses_step {a : Act γ} (h : step config s a = some s') (hsettle : ∀ i, a ≠ .settle i)
    (hends : ∀ call status, a ≠ .callEnds call status)
    (hcreate : ∀ metadata methodName options, a ≠ .createStream metadata methodName options) :
    s'.statuses = s.statuses ∧ s'.requests = s.requests := by
  have hwork := step_work h
  rw [show s'.statuses = s'.work.calls.map Call.status from rfl,
    show s'.requests = s'.work.requests from rfl]
  generalize s'.work = w at hwork ⊢
  cases hwork with
  | create metadata methodName options => exact absurd rfl (hcreate metadata methodName options)
  | request _ _ _ _ _ _ => exact absurd rfl (hsettle _)
  | cancelled _ _ => exact absurd rfl (hsettle _)
  | ended call status => exact absurd rfl (hends call status)
  | _ => exact ⟨rfl, rfl⟩

/-- The metadata of an attempt settles: the call is cancelled, or it makes a request if it has
not ended, or nothing happens. -/
inductive Settles (s s' : State γ) (attempt : Attempt) : Prop
  | rejected (e : JsError) : attempt.stage = .rejected e →
      s'.statuses = s.statuses.modify attempt.call
        (·.or (some ⟨.unknown, "Failed to generate metadata", Metadata.new⟩)) →
      s'.requests = s.requests → Settles s s' attempt
  | request (request : Request) : attempt.stage = .resolved → request.call = attempt.call →
      s.statuses[attempt.call]? = some none → s'.statuses = s.statuses →
      s'.requests = s.requests ++ [request] → Settles s s' attempt
  | nothing : attempt.stage = .resolved → s'.statuses = s.statuses →
      s'.requests = s.requests → Settles s s' attempt

theorem State.settles {i : Nat} {attempt : Attempt} {call : Call γ}
    (hcall : s.calls[attempt.call]? = some call)
    (h : s.settle? config i attempt call = some s') : Settles s s' attempt := by
  unfold State.settle? at h
  dsimp only at h
  split at h
  · rename_i hstage
    split at h
    · obtain rfl := Option.some.inj h
      exact .nothing hstage rfl rfl
    · rename_i headers hheaders
      split at h
      · obtain rfl := Option.some.inj h
        exact .nothing hstage rfl rfl
      · rename_i hstatus
        have hlive : s.statuses[attempt.call]? = some none := by
          simp [statuses, hcall, not_not.mp hstatus]
        split at h
        · obtain rfl := Option.some.inj h
          have hwork := State.work_request (s.setAttempt i fun a => { a with stage := .handled })
            i attempt.call headers
          exact .request _ hstage rfl hlive (congrArg (List.map Call.status ∘ Work.calls) hwork)
            (congrArg Work.requests hwork)
        · obtain rfl := Option.some.inj h
          exact .nothing hstage rfl rfl
  · rename_i e hstage
    obtain rfl := Option.some.inj h
    exact .rejected e hstage (State.statuses_endCall _ _ _) rfl
  all_goals simp at h

/-- **What settling the metadata of an attempt does to the calls.** -/
theorem settles_step {i : Nat} (h : step config s (.settle i) = some s') :
    ∃ attempt, s.attempts[i]? = some attempt ∧ Settles s s' attempt := by
  cases step_effect h with
  | settle _ hattempt hcall _ hsettle => exact ⟨_, hattempt, State.settles hcall hsettle⟩

theorem createStream_calls {metadata : Nat} {methodName : String} {options : CallOptions γ}
    (h : s.createStream metadata methodName options = .ok s') :
    s.connectivityState ≠ .shutdown ∧ s'.statuses = s.statuses ++ [none] ∧
      s'.requests = s.requests := by
  unfold State.createStream at h
  split at h
  · simp at h
  · rename_i hopen
    obtain rfl := Except.ok.inj h
    refine ⟨hopen, ?_, ?_⟩
    · refine (congrArg (List.map Call.status ∘ Work.calls)
        (State.work_startHttp2Stream _ _ _)).trans ?_
      simp [State.statuses, State.work, State.newCall]
    · exact congrArg Work.requests (State.work_startHttp2Stream _ _ _)

end Channel

/-! ### The streams -/

namespace CallStream

theorem Streams.Step.cancelled {v v' : Streams} (h : v.Step v') (hv : v.cancelled = true) :
    v'.cancelled = true := by
  cases h with
  | cancel => rfl
  | reset _ => rfl
  | _ => exact hv

/-- A stream goes on to `stream'`; if that ends the call, then with `status`. -/
structure Continues (stream stream' : State) (status : Option StatusObject) : Prop where
  ending : stream'.Ending
  cancelled : stream.cancelled = true → stream'.cancelled = true
  status : stream'.getStatus = stream.getStatus.or status

variable {stream stream' : State}

theorem continues_step {filterStack : ReceiveFilter} {a : Act} (hs : stream.Ending)
    (h : step filterStack stream a = some stream') :
    Continues stream stream' (endsCall filterStack stream a) where
  ending := hs.step h
  cancelled := (step_streams h).cancelled
  status := finalStatus_step hs.writable h

theorem continues_cancel (hs : stream.Ending) (hrun : stream.canRead = true) (status : Status)
    (details : String) :
    Continues stream (stream.cancelWithStatus status details)
      (some ⟨status, details, Metadata.new⟩) := by
  have hstep : step .base stream (.cancelWithStatus status details) =
      some (stream.cancelWithStatus status details) := Runs.when_eq_some.mpr ⟨hrun, rfl⟩
  exact continues_step hs hstep

theorem continues_write (hs : stream.Ending) (hwriting : stream.writing = none)
    (hfinished : stream.finished = false) (chunk : WriteObject) (cb : Callback) :
    Continues stream (stream.write chunk cb) none := by
  have hstep : step .base stream (.write chunk cb) = some (stream.write chunk cb) :=
    Runs.when_eq_some.mpr ⟨⟨hwriting, by simpa using hfinished⟩, rfl⟩
  exact continues_step hs hstep

theorem continues_attach (hs : stream.Ending) : Continues stream stream.attachHttp2Stream none where
  ending := by
    have houtcome := stream.outcome_attachHttp2Stream hs.writable
    exact ⟨(congrArg Outcome.writable houtcome).trans hs.writable, houtcome ▸ hs.once,
      hs.streams.step stream.step_attachHttp2Stream_streams⟩
  cancelled := stream.step_attachHttp2Stream_streams.cancelled
  status := by
    rw [Option.or_none]
    exact congrArg Outcome.finalStatus (stream.outcome_attachHttp2Stream hs.writable)

theorem Continues.refl (hs : stream.Ending) : Continues stream stream none :=
  ⟨hs, id, Option.or_none.symm⟩

theorem State.cancelled_cancelWithStatus (s : State) (status : Status) (details : String) :
    (s.cancelWithStatus status details).cancelled = true := by
  unfold cancelWithStatus
  split <;> rfl

/-- What has been cancelled has ended. -/
theorem State.Ending.ended (hs : stream.Ending) (h : stream.cancelled = true) :
    stream.getStatus ≠ none :=
  Option.isSome_iff_ne_none.mp (hs.streams.ended h)

end CallStream

/-! ### Calls and channel -/

namespace Client

/-- The status of a call, as its stream has it. -/
def Call.status {ρ ε : Type} (call : Call ρ ε) : Option StatusObject := call.stream.getStatus

/-- The outcome of the serialization that a request function does itself. -/
def Act.argument {γ ρ ε : Type} : Act γ ρ ε → Option (Except ε Buffer)
  | .makeUnaryRequest serialize argument _ => some (serialize argument)
  | .makeServerStreamRequest serialize argument _ => some (serialize argument)
  | _ => none

variable {γ ρ ε : Type}

/-- A request function that serializes its argument, and gets as far as that, does not throw
there. -/
def ArgumentSerializes (s : State γ ρ ε) (a : Act γ ρ ε) : Prop :=
  s.channel.connectivityState ≠ .shutdown → ∀ e, a.argument ≠ some (.error e)

/-- The call of a failed serialization is over: it has a final status, it has made no request
since, and the stream that it had before is reset, at the latest when no `cancelWithStatus` is
under way. -/
structure Closed (s : State γ ρ ε) (failure : Failure) (call : Call ρ ε) : Prop where
  isCall : s.calls[failure.call]? = some call
  ended : call.status ≠ none
  requests : s.channel.requestsOf failure.call = failure.requests
  reset : .cancel ∉ call.stream.stack → ∀ stream ∈ call.stream.call.http2Stream, stream.rst = true

/-- No serializer that has failed has left an open call. -/
def NoOpenCall (s : State γ ρ ε) : Prop := ∀ failure ∈ s.failures, ∃ call, Closed s failure call

namespace State

variable (s : State γ ρ ε)

/-- The channel sees the statuses that the streams have. -/
def Sync : Prop := s.channel.statuses = s.calls.map Call.status

/-- The call of a failed serialization has been cancelled, and has made no request since. -/
def Cancelled (failure : Failure) : Prop :=
  ∃ call, s.calls[failure.call]? = some call ∧ call.stream.cancelled = true ∧
    s.channel.requestsOf failure.call = failure.requests

structure Good : Prop where
  sync : s.Sync
  streams : ∀ call ∈ s.calls, call.stream.Ending
  failures : ∀ failure ∈ s.failures, s.Cancelled failure

variable {s}

theorem Good.noOpenCall (hs : s.Good) : NoOpenCall s := by
  intro failure hmem
  obtain ⟨call, hcall, hcancelled, hrequests⟩ := hs.failures failure hmem
  have hending := hs.streams call (List.mem_of_getElem? hcall)
  exact ⟨call, hcall, hending.ended hcancelled, hrequests, (hending.endedOnce .base).reset hcancelled⟩

/-! ### What the functions do -/

theorem statuses_setCall (i : Nat) (call : Call ρ ε) :
    (s.setCall i call).channel.statuses = s.channel.statuses.modify i (·.or call.status) := by
  unfold setCall Call.status
  cases call.stream.getStatus with
  | some status => exact s.channel.statuses_endCall i status
  | none => exact s.channel.statuses_unseen i

theorem requestsOf_setCall (i : Nat) (call : Call ρ ε) (j : Nat) :
    (s.setCall i call).channel.requestsOf j = s.channel.requestsOf j := by
  unfold setCall
  cases call.stream.getStatus <;> rfl

/-- The stream of a call has come to a status, and the channel has seen nothing of that (`seen` is
`none`), or all of it. -/
theorem Sync.setCall (hs : s.Sync) {channel : Channel.State γ} {i : Nat} {call call' : Call ρ ε}
    {status seen : Option StatusObject} (hcall : s.calls[i]? = some call)
    (hstatus : call'.status = call.status.or status) (hseen : seen.or status = status)
    (hstatuses : channel.statuses = s.channel.statuses.modify i (·.or seen)) :
    ({ s with channel }.setCall i call').Sync := by
  have hsync : s.channel.statuses = s.calls.map Call.status := hs
  unfold Sync
  rw [statuses_setCall, hstatuses, hsync]
  apply List.ext_getElem?
  intro j
  simp only [State.setCall, List.getElem?_modify, List.getElem?_map, List.getElem?_set]
  by_cases hj : i = j
  · subst hj
    have hlength := (List.getElem?_eq_some_iff.mp hcall).1
    simp only [hcall, hstatus, hlength, if_true, Option.map_some]
    cases call.status with
    | some _ => rfl
    | none => simpa using hseen
  · simp [hj]

/-- The stream of a call goes on. -/
theorem Good.setCall (hs : s.Good) {channel : Channel.State γ} {i : Nat} {call call' : Call ρ ε}
    {status : Option StatusObject} (hcall : s.calls[i]? = some call)
    (hcontinues : CallStream.Continues call.stream call'.stream status)
    (seen : Option StatusObject) (hseen : seen.or status = status)
    (hstatuses : channel.statuses = s.channel.statuses.modify i (·.or seen))
    (hrequests : ∀ failure ∈ s.failures,
      channel.requestsOf failure.call = s.channel.requestsOf failure.call) :
    ({ s with channel }.setCall i call').Good where
  sync := hs.sync.setCall hcall hcontinues.status hseen hstatuses
  streams := by
    intro c hc
    rcases List.mem_or_eq_of_mem_set hc with hold | rfl
    · exact hs.streams c hold
    · exact hcontinues.ending
  failures := by
    intro failure hmem
    obtain ⟨c, hc, hcancelled, hcount⟩ := hs.failures failure hmem
    have hsame := requestsOf_setCall (s := { s with channel }) i call' failure.call
    have hcount' := (hsame.trans (hrequests failure hmem)).trans hcount
    by_cases hi : i = failure.call
    · subst hi
      obtain rfl : call = c := Option.some.inj (hcall.symm.trans hc)
      have hlength := (List.getElem?_eq_some_iff.mp hcall).1
      exact ⟨call', by simp [State.setCall, hlength], hcontinues.cancelled hcancelled, hcount'⟩
    · exact ⟨c, by simp [State.setCall, hi, hc], hcancelled, hcount'⟩

/-- The channel goes on without the calls. -/
theorem Good.setChannel (hs : s.Good) {channel : Channel.State γ}
    (hstatuses : channel.statuses = s.channel.statuses)
    (hrequests : channel.requests = s.channel.requests) : { s with channel }.Good where
  sync := hstatuses.trans hs.sync
  streams := hs.streams
  failures := by
    intro failure hmem
    obtain ⟨call, hcall, hcancelled, hcount⟩ := hs.failures failure hmem
    exact ⟨call, hcall, hcancelled, (Channel.State.requestsOf_congr hrequests _).trans hcount⟩

/-- A new call, with a stream that has not ended. -/
theorem Good.append (hs : s.Good) {channel : Channel.State γ} {call : Call ρ ε}
    (hstatuses : channel.statuses = s.channel.statuses ++ [none])
    (hrequests : channel.requests = s.channel.requests) (hending : call.stream.Ending)
    (hlive : call.status = none) : { s with channel, calls := s.calls ++ [call] }.Good where
  sync := by
    have hsync : s.channel.statuses = s.calls.map Call.status := hs.sync
    simp [Sync, hstatuses, hsync, hlive]
  streams := List.forall_mem_append.mpr ⟨hs.streams, List.forall_mem_singleton.mpr hending⟩
  failures := by
    intro failure hmem
    obtain ⟨c, hc, hcancelled, hcount⟩ := hs.failures failure hmem
    have hc' : (s.calls ++ [call])[failure.call]? = some c := by
      rw [List.getElem?_append_left (List.getElem?_eq_some_iff.mp hc).1, hc]
    exact ⟨c, hc', hcancelled, (Channel.State.requestsOf_congr hrequests _).trans hcount⟩

theorem Good.refuse (hs : s.Good) (e : JsError) : (s.refuse e).Good := hs.setChannel rfl rfl

theorem Good.openStream (hs : s.Good) (kind : RequestKind) (serialize : ρ → Except ε Buffer)
    (arguments : Arguments γ) : (s.openStream kind serialize arguments).Good := by
  unfold State.openStream
  split
  · exact hs.refuse _
  · rename_i channel hchannel
    obtain ⟨-, hstatuses, hrequests⟩ := Channel.createStream_calls hchannel
    exact hs.append hstatuses hrequests CallStream.initial_ending rfl

theorem Good.sendArgument (hs : s.Good) (kind : RequestKind) {serialize : ρ → Except ε Buffer}
    {argument : ρ} (arguments : Arguments γ)
    (hserializes : s.channel.connectivityState ≠ .shutdown → ∀ e, serialize argument ≠ .error e) :
    (s.sendArgument kind serialize argument arguments).Good := by
  unfold State.sendArgument
  split
  · exact hs.refuse _
  · rename_i channel hchannel
    obtain ⟨hopen, hstatuses, hrequests⟩ := Channel.createStream_calls hchannel
    split
    · rename_i message hmessage
      have hcontinues := CallStream.continues_write CallStream.initial_ending rfl rfl
        { message, flags := arguments.flags } 0
      exact hs.append hstatuses hrequests hcontinues.ending hcontinues.status
    · rename_i e he
      exact absurd he (hserializes hopen e)

/-- What `tryWrite` does about a serializer that throws. -/
theorem Good.tryWrite (hs : s.Good) {i : Nat} {call : Call ρ ε} (hcall : s.calls[i]? = some call)
    (hrun : call.stream.canRead = true) (hwriting : call.stream.writing = none)
    (hfinished : call.stream.finished = false) (chunk : ρ) (flags : Option Nat) (cb : Callback) :
    (s.tryWrite i call chunk flags cb).Good := by
  have hending := hs.streams call (List.mem_of_getElem? hcall)
  have hunseen := s.channel.statuses_unseen i
  unfold State.tryWrite
  split
  · rename_i e _
    have hcancel := CallStream.continues_cancel hending hrun .internal "Serialization failure"
    let failed : Call ρ ε := { call with
      stream := call.stream.cancelWithStatus .internal "Serialization failure"
      errors := call.errors ++ [e] }
    have hgood : (s.setCall i failed).Good :=
      hs.setCall hcall hcancel none rfl hunseen fun _ _ => rfl
    have hlength := (List.getElem?_eq_some_iff.mp hcall).1
    refine ⟨hgood.sync, hgood.streams, List.forall_mem_append.mpr ⟨hgood.failures, ?_⟩⟩
    exact List.forall_mem_singleton.mpr ⟨_, List.getElem?_set_self hlength,
      call.stream.cancelled_cancelWithStatus _ _, requestsOf_setCall i _ i⟩
  · rename_i message _
    have hwrite := CallStream.continues_write hending hwriting hfinished { message, flags } cb
    exact hs.setCall hcall hwrite none rfl hunseen fun _ _ => rfl

/-- A request is made for a call that has not ended, so for none that a serializer has failed
for. -/
theorem Good.call_ne (hs : s.Good) {i : Nat} (hlive : s.channel.statuses[i]? = some none) :
    ∀ failure ∈ s.failures, failure.call ≠ i := by
  intro failure hmem heq
  obtain ⟨call, hcall, hcancelled, -⟩ := hs.failures failure hmem
  have hended := (hs.streams call (List.mem_of_getElem? hcall)).ended hcancelled
  have hsync : s.channel.statuses = s.calls.map Call.status := hs.sync
  rw [hsync, List.getElem?_map, ← heq, hcall, Option.map_some, Option.some.injEq] at hlive
  exact hended hlive

/-- Metadata that has been generated ends no call. -/
theorem continues_reactions {stream : CallStream.State} (hs : stream.Ending)
    {before after : Channel.State γ} :
    CallStream.Continues stream (reactions .resolved before after stream) none := by
  unfold reactions
  dsimp only
  split
  · exact CallStream.continues_attach hs
  · exact .refl hs

theorem Good.settled (hs : s.Good) {config : Channel.Config γ} {channel : Channel.State γ} {i : Nat}
    (hquiet : s.quiet = true) (h : Channel.step config s.channel (.settle i) = some channel) :
    (s.settled channel i).Good := by
  obtain ⟨attempt, hattempt, hsettles⟩ := Channel.settles_step h
  have hsync : s.channel.statuses = s.calls.map Call.status := hs.sync
  have hunseen := s.channel.statuses_unseen attempt.call
  unfold State.settled
  rw [hattempt]
  dsimp only
  cases hcall : s.calls[attempt.call]? with
  | none =>
      -- The channel has no such call either.
      have hnone : s.channel.statuses[attempt.call]? = none := by simp [hsync, hcall]
      cases hsettles with
      | rejected e _ hstatuses hrequests =>
          refine hs.setChannel (hstatuses.trans ?_) hrequests
          exact List.modify_eq_self (List.getElem?_eq_none_iff.mp hnone)
      | request _ _ _ hlive _ _ => exact absurd (hnone.symm.trans hlive) (by simp)
      | nothing _ hstatuses hrequests => exact hs.setChannel hstatuses hrequests
  | some call =>
      have hending := hs.streams call (List.mem_of_getElem? hcall)
      have hrun := CallStream.State.canRead_of_idle (s.stack_of_quiet hquiet hcall)
      dsimp only
      cases hsettles with
      | rejected e hstage hstatuses hrequests =>
          have hcancel := CallStream.continues_cancel hending hrun .unknown
            "Failed to generate metadata"
          rw [hstage]
          exact hs.setCall hcall hcancel _ rfl hstatuses
            fun _ _ => Channel.State.requestsOf_congr hrequests _
      | request request hstage hrequest hlive hstatuses hrequests =>
          rw [hstage]
          refine hs.setCall hcall (continues_reactions hending) none rfl (hstatuses.trans hunseen)
            fun failure hmem => ?_
          have hne := hs.call_ne hlive failure hmem
          simp [Channel.State.requestsOf, hrequests, hrequest, Ne.symm hne]
      | nothing hstage hstatuses hrequests =>
          rw [hstage]
          exact hs.setCall hcall (continues_reactions hending) none rfl (hstatuses.trans hunseen)
            fun _ _ => Channel.State.requestsOf_congr hrequests _

end State

/-! ### Runs -/

section Steps

variable {config : Channel.Config γ} {filterStack : Nat → ReceiveFilter} {s s' : State γ ρ ε}
  {a : Act γ ρ ε}

theorem State.Good.step (hs : s.Good) (hserializes : ArgumentSerializes s a)
    (h : step config filterStack s a = some s') : s'.Good := by
  cases step_effect h with
  | makeUnaryRequest serialize argument arguments =>
      exact hs.sendArgument .unary arguments fun hopen e he => hserializes hopen e (congrArg some he)
  | makeClientStreamRequest serialize arguments => exact hs.openStream .clientStream serialize arguments
  | makeServerStreamRequest serialize argument arguments =>
      exact hs.sendArgument .serverStream arguments
        fun hopen e he => hserializes hopen e (congrArg some he)
  | makeBidiStreamRequest serialize arguments => exact hs.openStream .bidiStream serialize arguments
  | write chunk flags cb hcall hrun hwriting hfinished =>
      exact hs.tryWrite hcall hrun hwriting hfinished chunk flags cb
  | channel hchannel hsettle hends hcreate =>
      obtain ⟨hstatuses, hrequests⟩ := Channel.statuses_step hchannel hsettle hends hcreate
      exact hs.setChannel hstatuses hrequests
  | settle hquiet hchannel => exact hs.settled hquiet hchannel
  | @stream i call a stream hcall hstream =>
      have hcontinues := CallStream.continues_step (hs.streams call (List.mem_of_getElem? hcall)) hstream
      exact hs.setCall hcall hcontinues none rfl (s.channel.statuses_unseen i) fun _ _ => rfl

/-- A serializer that throws in a request function leaves a call that has not ended. -/
theorem State.open_of_throws (kind : RequestKind) {serialize : ρ → Except ε Buffer} {argument : ρ}
    {e : ε} (arguments : Arguments γ) (hopen : s.channel.connectivityState ≠ .shutdown)
    (hthrows : serialize argument = .error e) :
    ¬ NoOpenCall (s.sendArgument kind serialize argument arguments) := by
  unfold State.sendArgument Channel.State.createStream
  rw [if_neg hopen, hthrows]
  intro hclosed
  obtain ⟨call, hcall⟩ := hclosed _ (List.mem_append_right _ List.mem_cons_self)
  have hnew := hcall.isCall
  rw [List.getElem?_concat_length] at hnew
  obtain rfl := Option.some.inj hnew
  exact hcall.ended rfl

theorem argumentSerializes_of_noOpenCall (h : step config filterStack s a = some s')
    (hclosed : NoOpenCall s') : ArgumentSerializes s a := by
  intro hopen e he
  cases step_effect h with
  | makeUnaryRequest serialize argument arguments =>
      exact State.open_of_throws .unary arguments hopen (Option.some.inj he) hclosed
  | makeServerStreamRequest serialize argument arguments =>
      exact State.open_of_throws .serverStream arguments hopen (Option.some.inj he) hclosed
  | _ => simp [Act.argument] at he

end Steps

/-- A message of a bidi call cannot be serialized, and its stream is reset. -/
example : (Runs.exec (step ⟨"localhost", .empty⟩ fun _ => .base)
    (State.initial fun _ => Metadata.new : State Unit Unit Unit)
    [.makeBidiStreamRequest (fun _ => .error ()) ⟨"/m", 0, {}, none⟩, .channel (.sessionConnect 0),
      .channel (.emitNext 0), .channel (.emitNext 0), .channel (.filter 0), .channel (.filter 0),
      .channel (.filter 0), .channel (.settle 0), .write 0 () none 0,
      .stream 0 .cancelReturns]).map
    (fun s => (s.failures, s.channel.requestsOf 0, s.calls.map fun call =>
      (call.status.isSome, call.stream.call.http2Stream.map Http2Stream.rst))) =
    some ([⟨0, 1⟩], 1, [(true, some true)]) := by
  decide +kernel

/-- The serializer of a unary request throws, and the channel connects. -/
def throwingArgument : List (Act Unit Unit Unit) :=
  [.makeUnaryRequest (fun _ => .error ()) () ⟨"/m", 0, {}, none⟩, .channel (.sessionConnect 0),
    .channel (.emitNext 0), .channel (.emitNext 0), .channel (.filter 0), .channel (.filter 0),
    .channel (.filter 0), .channel (.settle 0)]

/-- The caller has got the exception, and the request is opened later: the call has no status, and
its stream is not reset. -/
theorem exec_throwingArgument :
    (Runs.exec (step ⟨"localhost", .empty⟩ fun _ => .base) (State.initial fun _ => Metadata.new)
        throwingArgument).map
      (fun s => (s.failures, s.channel.requestsOf 0, s.calls.map fun call =>
        (call.status.isSome, call.stream.call.http2Stream.map Http2Stream.rst))) =
      some ([⟨0, 0⟩], 1, [(false, some false)]) := by
  decide +kernel

end Client

end GrpcNode.JsCore
