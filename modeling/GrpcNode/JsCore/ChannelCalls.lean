import GrpcNode.JsCore.Channel

/-!
# GrpcNode.JsCore.ChannelCalls

The calls of a channel and the objects of its user.

`Work` is this part of the state, and `Work.Step` says once what a step can do to it. The
functions that manage the connection do nothing to it, except for starting an attempt.
-/

namespace GrpcNode.JsCore.Channel

open GrpcNode.Js

variable {γ : Type}

/-- The calls and the objects. -/
structure Work (γ : Type) where
  heap : Nat → Metadata
  calls : List (Call γ)
  attempts : List Attempt
  requests : List Request

def State.work (s : State γ) : Work γ where
  heap := s.heap
  calls := s.calls
  attempts := s.attempts
  requests := s.requests

/-- What a filter makes of the object `m` that it holds, and what comes next. -/
inductive Filtered (config : Config γ) (attempt : Attempt) (call : Call γ) (m : Metadata) :
    Metadata → Stage → Prop
  | compression {m' : Metadata} : attempt.stage = .compression →
      CompressionFilter.sendMetadata m = .ok m' →
      Filtered config attempt call m m' .credentials
  | credentials {m' : Metadata} : attempt.stage = .credentials →
      CallCredentialsFilter.sendMetadata (config.callCredentials.compose call.credentials) m =
        (m', none) →
      Filtered config attempt call m m' .deadline
  | noDeadline : attempt.stage = .deadline → call.deadline = noDeadline →
      Filtered config attempt call m m .resolved
  | deadline {m' : Metadata} {timeout : String} : attempt.stage = .deadline →
      call.deadline ≠ noDeadline → attempt.timeout = some timeout →
      DeadlineFilter.setTimeout m timeout = .ok m' →
      Filtered config attempt call m m' .resolved
  /-- It has thrown; `CallCredentialsFilter` can have changed the object before. -/
  | threw {m' : Metadata} (e : JsError) :
      m' = m ∨ m' = (CallCredentialsFilter.sendMetadata
        (config.callCredentials.compose call.credentials) m).1 →
      Filtered config attempt call m m' (.rejected e)

namespace Work

def deadlineOf (w : Work γ) (call : Nat) : JsNumber :=
  match w.calls[call]? with
  | some c => c.deadline
  | none => noDeadline

def setAttempt (w : Work γ) (i : Nat) (f : Attempt → Attempt) : Work γ :=
  { w with attempts := w.attempts.modify i f }

def setObject (w : Work γ) (address : Nat) (m : Metadata) : Work γ :=
  { w with heap := fun a => if a = address then m else w.heap a }

def endCall (w : Work γ) (call : Nat) (status : StatusObject) : Work γ :=
  { w with calls := w.calls.modify call fun c => { c with status := c.status.or (some status) } }

/-- What a step can do to the calls, in a channel that has the given connectivity state and
subchannel. -/
inductive Step (config : Config γ) (connectivityState : ConnectivityState)
    (subChannel : SubChannel) (w : Work γ) : Act γ → Work γ → Prop
  | same (a : Act γ) : Step config connectivityState subChannel w a w
  | create (metadata : Nat) (methodName : String) (options : CallOptions γ) :
      Step config connectivityState subChannel w (.createStream metadata methodName options)
        { w with
          calls := w.calls ++ [State.newCall metadata methodName options]
          attempts := w.attempts ++ [({ call := w.calls.length } : Attempt)] }
  | restart (now : Int) (call : Nat) :
      Step config connectivityState subChannel w (.runImmediate now)
        { w with attempts := w.attempts ++ [({ call } : Attempt)] }
  | timeout (a : Act γ) (now : Int) {i : Nat} {attempt : Attempt} :
      w.attempts[i]? = some attempt →
      Step config connectivityState subChannel w a (w.setAttempt i fun a =>
        { a with timeout := a.timeout.or (timeoutString (w.deadlineOf attempt.call) now) })
  | connected (a : Act γ) (i : Nat) :
      Step config connectivityState subChannel w a
        (w.setAttempt i fun a => { a with connected := true })
  | filtered {i : Nat} {attempt : Attempt} {call : Call γ} {m : Metadata} {next : Stage} :
      w.attempts[i]? = some attempt → w.calls[attempt.call]? = some call →
      Filtered config attempt call (w.heap call.metadata) m next →
      Step config connectivityState subChannel w (.filter i)
        ((w.setObject call.metadata m).setAttempt i fun a => { a with stage := next })
  | handled (i : Nat) :
      Step config connectivityState subChannel w (.settle i)
        (w.setAttempt i fun a => { a with stage := .handled })
  | request {i : Nat} {attempt : Attempt} {call : Call γ} {headers : Headers} :
      w.attempts[i]? = some attempt → w.calls[attempt.call]? = some call →
      attempt.stage = .resolved → call.status = none → connectivityState = .ready →
      State.requestHeaders config call (w.heap call.metadata) = .ok headers →
      Step config connectivityState subChannel w (.settle i)
        { w.setAttempt i (fun a => { a with stage := .handled }) with
          requests := w.requests ++ [⟨attempt.call, i, subChannel, headers⟩] }
  | cancelled {i : Nat} {attempt : Attempt} {e : JsError} :
      w.attempts[i]? = some attempt → attempt.stage = .rejected e →
      Step config connectivityState subChannel w (.settle i)
        ((w.setAttempt i fun a => { a with stage := .handled }).endCall attempt.call
          ⟨.unknown, "Failed to generate metadata", Metadata.new⟩)
  | ended (call : Nat) (status : StatusObject) :
      Step config connectivityState subChannel w (.callEnds call status) (w.endCall call status)

end Work

namespace State

variable (s : State γ)

/-! ### Managing the connection -/

@[simp] theorem work_emit (newState : ConnectivityState) : (s.emit newState).work = s.work := by
  unfold emit
  split <;> rfl

@[simp] theorem work_transitionToState (newState : ConnectivityState) :
    (s.transitionToState newState).work = s.work := by
  unfold transitionToState
  split
  · rfl
  · rw [work_emit]
    rfl

@[simp] theorem work_kickConnectivityState : s.kickConnectivityState.work = s.work := by
  unfold kickConnectivityState
  split
  · exact s.work_transitionToState .connecting
  · rfl

@[simp] theorem work_connect (callback : Callback) : (s.connect callback).work = s.work := by
  have hkick : s.pass.kickConnectivityState.work = s.work := work_kickConnectivityState _
  unfold connect waitReady
  split <;> exact hkick

@[simp] theorem work_goIdle : s.goIdle.work = s.work := by
  unfold goIdle
  split
  · exact work_transitionToState _ .idle
  · exact work_transitionToState _ .idle
  · rfl

@[simp] theorem work_onSessionConnect (i : Nat) : (s.onSessionConnect i).work = s.work :=
  work_transitionToState _ .ready

@[simp] theorem work_shutdownSubChannel : s.shutdownSubChannel.work = s.work := by
  unfold shutdownSubChannel
  split <;> rfl

@[simp] theorem work_close : s.close.work = s.work := by
  unfold close
  split
  · rfl
  · rw [work_shutdownSubChannel, work_transitionToState]
    rfl

/-! ### Calls -/

theorem work_startHttp2Stream (call : Nat) (deadline : JsNumber) :
    (s.startHttp2Stream call deadline).work =
      { s.work with attempts := s.attempts ++ [({ call } : Attempt)] } := by
  unfold startHttp2Stream
  dsimp only
  split
  · rw [work_connect]
    rfl
  · rw [work_connect, work_connect]
    rfl

theorem setObject_self (w : Work γ) (address : Nat) :
    w.setObject address (w.heap address) = w := by
  unfold Work.setObject
  congr 1
  funext a
  split
  · rename_i h
    rw [h]
  · rfl

/-- A callback of `connect` makes an attempt go on, if it belongs to one. -/
theorem work_invoke (config : Config γ) (state : ConnectivityState) (sub : SubChannel)
    (a : Act γ) (now : Int) (listener : Listener) :
    s.work.Step config state sub a (s.invoke now listener).work := by
  rcases listener with ⟨id, callback⟩
  cases callback with
  | user => exact .same a
  | start i => exact .connected a i
  | deadline i =>
      simp only [invoke, runCallback]
      cases hattempt : s.attempts[i]? with
      | none => exact .same a
      | some attempt => exact .timeout a now hattempt

theorem work_emitNext (config : Config γ) (state : ConnectivityState) (sub : SubChannel)
    (a : Act γ) (now : Int) (listener : Listener) (rest : List Listener) :
    s.work.Step config state sub a (s.emitNext now listener rest).work := by
  unfold emitNext
  dsimp only
  split
  · exact work_invoke { s with emitting := some rest, listeners := s.listeners.erase listener }
      config state sub a now listener
  · exact .same a

theorem work_filter {config : Config γ} {state : ConnectivityState} {sub : SubChannel} {i : Nat}
    {attempt : Attempt} {call : Call γ} {s' : State γ} (hattempt : s.attempts[i]? = some attempt)
    (hcall : s.calls[attempt.call]? = some call)
    (h : s.filter? config i attempt call = some s') :
    s.work.Step config state sub (.filter i) s'.work := by
  -- The filter leaves `m` behind and the attempt at `next`.
  have filtered : ∀ {m : Metadata} {next : Stage},
      Filtered config attempt call (s.heap call.metadata) m next →
      s'.work = (s.work.setObject call.metadata m).setAttempt i (fun a => { a with stage := next }) →
      s.work.Step config state sub (.filter i) s'.work := by
    intro m next hfiltered heq
    rw [heq]
    exact .filtered hattempt hcall hfiltered
  have unchanged : ∀ (next : Stage), s.work.setAttempt i (fun a => { a with stage := next }) =
      (s.work.setObject call.metadata (s.heap call.metadata)).setAttempt i
        (fun a => { a with stage := next }) :=
    fun next => by rw [show s.heap call.metadata = s.work.heap call.metadata from rfl, setObject_self]
  unfold filter? at h
  dsimp only at h
  split at h
  · rename_i hstage
    cases hset : CompressionFilter.sendMetadata (s.heap call.metadata) with
    | ok m =>
        refine filtered (.compression hstage hset) ?_
        rw [← Option.some.inj h, hset]
        rfl
    | error e =>
        refine filtered (.threw e (.inl rfl)) ?_
        rw [← Option.some.inj h, hset, ← unchanged]
        rfl
  · rename_i hstage
    -- `merge` changes the object even where it throws.
    split at h
    · rename_i m hmerge
      refine filtered (.credentials hstage hmerge) ?_
      rw [← Option.some.inj h]
      rfl
    · rename_i m e hmerge
      refine filtered (.threw e (.inr (by rw [hmerge]))) ?_
      rw [← Option.some.inj h]
      rfl
  · rename_i hstage
    split at h
    · rename_i hdeadline
      refine filtered (.noDeadline hstage hdeadline) ?_
      rw [← Option.some.inj h, ← unchanged]
      rfl
    · rename_i hdeadline
      split at h
      · rename_i timeout htimeout
        cases hset : DeadlineFilter.setTimeout (s.heap call.metadata) timeout with
        | ok m =>
            refine filtered (.deadline hstage hdeadline htimeout hset) ?_
            rw [← Option.some.inj h, hset]
            rfl
        | error e =>
            refine filtered (.threw e (.inl rfl)) ?_
            rw [← Option.some.inj h, hset, ← unchanged]
            rfl
      · exact absurd h nofun
  all_goals exact absurd h nofun

theorem work_request (i call : Nat) (headers : Headers) :
    (s.request i call headers).work =
      { s.work with requests := s.requests ++ [⟨call, i, s.subChannel, headers⟩] } := by
  unfold request
  dsimp only
  split <;> rfl

theorem work_settle {config : Config γ} {i : Nat} {attempt : Attempt} {call : Call γ}
    {s' : State γ} (hattempt : s.attempts[i]? = some attempt)
    (hcall : s.calls[attempt.call]? = some call)
    (h : s.settle? config i attempt call = some s') :
    s.work.Step config s.connectivityState s.subChannel (.settle i) s'.work := by
  unfold settle? at h
  dsimp only at h
  split at h
  · rename_i hstage
    split at h
    · rw [← Option.some.inj h]
      exact .handled i
    · rename_i headers hheaders
      split at h
      · rw [← Option.some.inj h]
        exact .handled i
      · rename_i hstatus
        split at h
        · rename_i hready
          rw [← Option.some.inj h, work_request]
          exact .request hattempt hcall hstage (not_not.mp hstatus) hready hheaders
        · rw [← Option.some.inj h]
          exact .handled i
  · rename_i e hstage
    rw [← Option.some.inj h]
    exact .cancelled hattempt hstage
  all_goals exact absurd h nofun

end State

/-- **What a step does to the calls.** -/
theorem step_work {config : Config γ} {s s' : State γ} {a : Act γ}
    (h : step config s a = some s') :
    s.work.Step config s.connectivityState s.subChannel a s'.work := by
  -- Managing the connection leaves the calls alone.
  have same : ∀ {w : Work γ}, w = s.work →
      s.work.Step config s.connectivityState s.subChannel a w := by
    rintro w rfl
    exact .same a
  cases step_effect h with
  | connect => exact same (s.work_connect .user)
  | create metadata methodName options _ =>
      rw [State.work_startHttp2Stream]
      exact .create metadata methodName options
  | refuse _ _ _ _ => exact same rfl
  | close => exact same s.work_close
  | @sessionConnect i _ _ _ _ => exact same (s.work_onSessionConnect i)
  | sessionTimeout _ _ => exact same s.work_goIdle
  | emitted now _ => exact same rfl
  | emitNext now _ => exact s.work_emitNext config _ _ _ now _ _
  | @invoke now listener rest _ _ =>
      exact State.work_invoke { s with immediates := rest } config _ _ _ now listener
  | @restart now call rest _ _ =>
      rw [State.work_startHttp2Stream]
      exact .restart now call
  | filter _ hattempt hcall hfilter => exact s.work_filter hattempt hcall hfilter
  | settle _ hattempt hcall _ hsettle => exact s.work_settle hattempt hcall hsettle
  | callEnds call status => exact .ended call status

/-! ### What stays -/

/-- The arguments of a call stay. -/
theorem Work.Step.call_kept {config : Config γ} {state : ConnectivityState} {sub : SubChannel}
    {w w' : Work γ} {a : Act γ} (h : w.Step config state sub a w') {i : Nat} {call : Call γ}
    (hcall : w.calls[i]? = some call) :
    ∃ status, w'.calls[i]? = some { call with status := status } := by
  have ended : ∀ (j : Nat) (f : StatusObject),
      ∃ status, (w.calls.modify j fun c => { c with status := c.status.or (some f) })[i]? =
        some { call with status := status } := by
    intro j f
    rw [List.getElem?_modify, hcall]
    by_cases hj : j = i
    · exact ⟨call.status.or (some f), by simp [hj]⟩
    · exact ⟨call.status, by simp [hj]⟩
  cases h with
  | create metadata methodName options =>
      refine ⟨call.status, ?_⟩
      rw [List.getElem?_append_left (List.getElem?_eq_some_iff.mp hcall).1, hcall]
  | cancelled _ _ => exact ended _ _
  | ended j status => exact ended j status
  | _ => exact ⟨call.status, hcall⟩

/-- A filter writes under its own keys only. -/
theorem Filtered.lookup_of_ne {config : Config γ} {attempt : Attempt} {call : Call γ}
    {m m' : Metadata} {next : Stage} (h : Filtered config attempt call m m' next) {key : String}
    (hkey : key ∉ ["grpc-encoding", "grpc-accept-encoding", "grpc-timeout"]) :
    m'.internalRepr.own.lookup key = m.internalRepr.own.lookup key := by
  simp only [List.mem_cons, not_or] at hkey
  obtain ⟨hencoding, haccept, htimeout, -⟩ := hkey
  cases h with
  | compression _ hset => exact CompressionFilter.lookup_of_ne hset hencoding haccept
  | credentials _ hmerge =>
      obtain rfl := congrArg Prod.fst hmerge
      rfl
  | noDeadline _ _ => rfl
  | deadline _ _ _ hset => exact DeadlineFilter.lookup_of_ne hset htimeout
  | threw e hm =>
      rcases hm with rfl | rfl
      · rfl
      · rfl

end GrpcNode.JsCore.Channel
