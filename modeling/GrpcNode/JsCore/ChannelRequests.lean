import GrpcNode.JsCore.ChannelCalls
import GrpcNode.JsCore.ChannelConnect
import GrpcNode.Lib.Once

/-!
# GrpcNode.JsCore.ChannelRequests

A call makes one HTTP/2 request.

`startHttp2Stream` starts itself anew through `setImmediate` when the connection has been
lost, so a call has a chain of attempts. What keeps it from making two requests is that
there is one link of the chain at any time: an attempt whose metadata is not settled, a
restart that is scheduled, or the request. `State.once` reads the channel as an
`Once.State`, in which a call waits in the first two and is called with the third.
-/

namespace GrpcNode.JsCore.Channel

open GrpcNode.Js

variable {γ : Type}

/-! ### The links of a call -/

/-- The call that an attempt may still make a request for. -/
def Attempt.live? (attempt : Attempt) : Option Nat :=
  if attempt.stage = .handled then none else some attempt.call

/-- The call that a function given to `setImmediate` starts anew. -/
def Immediate.restart? : Immediate → Option Nat
  | .callback _ => none
  | .restart call => some call

namespace State

variable (s : State γ)

def live : List Nat := s.attempts.filterMap Attempt.live?

def restarts : List Nat := s.immediates.filterMap Immediate.restart?

def requested : List Nat := s.requests.map Request.call

/-- The calls of a channel, each of which makes a request at most. -/
def once : Once.State where
  next := s.calls.length
  waiting := s.live ++ s.restarts
  called := s.requested
  due := s.requested

theorem once_of_eq {s s' : State γ} (hwork : s'.work = s.work)
    (himmediates : s'.restarts = s.restarts) : s'.once = s.once := by
  have hcalls : s'.calls = s.calls := congrArg Work.calls hwork
  have hattempts : s'.attempts = s.attempts := congrArg Work.attempts hwork
  have hrequests : s'.requests = s.requests := congrArg Work.requests hwork
  simp only [once, live, requested, hcalls, hattempts, hrequests, himmediates]

/-! ### Managing the connection restarts nothing -/

@[simp] theorem immediates_transitionToState (newState : ConnectivityState) :
    (s.transitionToState newState).immediates = s.immediates := by
  unfold transitionToState emit
  split
  · rfl
  · split <;> rfl

theorem immediates_kickConnectivityState :
    s.kickConnectivityState.immediates = s.immediates := by
  unfold kickConnectivityState
  split
  · exact s.immediates_transitionToState .connecting
  · rfl

@[simp] theorem restarts_connect (callback : Callback) :
    (s.connect callback).restarts = s.restarts := by
  have hkick : s.pass.kickConnectivityState.immediates = s.immediates :=
    immediates_kickConnectivityState _
  unfold connect waitReady restarts
  split
  · show (s.pass.kickConnectivityState.immediates ++ _).filterMap _ = _
    rw [hkick, List.filterMap_append]
    exact List.append_nil _
  · show s.pass.kickConnectivityState.immediates.filterMap _ = _
    rw [hkick]

theorem restarts_startHttp2Stream (call : Nat) (deadline : JsNumber) :
    (s.startHttp2Stream call deadline).restarts = s.restarts := by
  unfold startHttp2Stream
  dsimp only
  split
  · rw [restarts_connect]
    rfl
  · rw [restarts_connect, restarts_connect]
    rfl

theorem immediates_goIdle : s.goIdle.immediates = s.immediates := by
  unfold goIdle
  split
  · exact immediates_transitionToState _ .idle
  · exact immediates_transitionToState _ .idle
  · rfl

theorem immediates_close : s.close.immediates = s.immediates := by
  unfold close shutdownSubChannel
  split
  · rfl
  · split
    · exact immediates_transitionToState _ .shutdown
    · exact immediates_transitionToState _ .shutdown
    · exact immediates_transitionToState _ .shutdown

/-! ### The life of an attempt -/

end State

theorem filterMap_cons_toList {α β : Type*} (g : α → Option β) (a : α) (l : List α) :
    (a :: l).filterMap g = (g a).toList ++ l.filterMap g := by
  cases h : g a with
  | none => exact List.filterMap_cons_none h
  | some b => exact List.filterMap_cons_some h

theorem filterMap_modify {α β : Type*} {g : α → Option β} {f : α → α} :
    ∀ {l : List α} {i : Nat}, (∀ a, l[i]? = some a → g (f a) = g a) →
      (l.modify i f).filterMap g = l.filterMap g := by
  intro l
  induction l with
  | nil => intro i _; rw [List.modify_nil]
  | cons a l ih =>
      intro i h
      cases i with
      | zero =>
          rw [List.modify_zero_cons, List.filterMap_cons, List.filterMap_cons, h a rfl]
      | succ i =>
          rw [List.modify_succ_cons, List.filterMap_cons, List.filterMap_cons,
            ih fun b hb => h b hb]

/-- An element that has an image, and has none any more. -/
theorem filterMap_modify_perm {α β : Type*} {g : α → Option β} {f : α → α} {a : α} {b : β}
    (ha : g a = some b) (hf : g (f a) = none) :
    ∀ {l : List α} {i : Nat}, l[i]? = some a →
      (l.filterMap g).Perm (b :: (l.modify i f).filterMap g) := by
  intro l
  induction l with
  | nil => intro i h; exact absurd h (by simp)
  | cons a' l ih =>
      intro i h
      cases i with
      | zero =>
          obtain rfl : a' = a := Option.some.inj h
          rw [List.modify_zero_cons, List.filterMap_cons_some ha, List.filterMap_cons_none hf]
      | succ i =>
          rw [List.modify_succ_cons, List.filterMap_cons, List.filterMap_cons]
          cases g a' with
          | none => exact ih h
          | some b' => exact ((ih h).cons b').trans (List.Perm.swap b b' _)

namespace State

variable (s : State γ)

/-- A change that leaves an attempt live, or handled, as it was. -/
theorem once_setAttempt {i : Nat} {f : Attempt → Attempt}
    (hf : ∀ attempt, s.attempts[i]? = some attempt → (f attempt).live? = attempt.live?) :
    (s.setAttempt i f).once = s.once := by
  have hlive : (s.setAttempt i f).live = s.live := filterMap_modify hf
  simp only [once, hlive]
  rfl

theorem once_invoke (now : Int) (listener : Listener) : (s.invoke now listener).once = s.once := by
  rcases listener with ⟨id, callback⟩
  cases callback with
  | user => rfl
  | start i => exact once_setAttempt { s with invoked := s.invoked ++ [id] } fun _ _ => rfl
  | deadline i =>
      simp only [invoke, runCallback]
      cases s.attempts[i]? with
      | none => rfl
      | some attempt => exact once_setAttempt { s with invoked := s.invoked ++ [id] } fun _ _ => rfl

theorem once_emitNext (now : Int) (listener : Listener) (rest : List Listener) :
    (s.emitNext now listener rest).once = s.once := by
  unfold emitNext
  dsimp only
  split
  · exact once_invoke { s with emitting := some rest, listeners := s.listeners.erase listener } now
      listener
  · rfl

/-- A filter can change the objects, and the stage of its attempt, which is not handled before
or after. -/
theorem filter_eq {config : Config γ} {i : Nat} {attempt : Attempt} {call : Call γ}
    {s' : State γ} (h : s.filter? config i attempt call = some s') :
    attempt.stage ≠ .handled ∧ ∃ heap next, next ≠ .handled ∧
      s' = { s with heap := heap }.setAttempt i fun a => { a with stage := next } := by
  have filtered : ∀ (t : State γ) (next : Stage) (r : Except JsError Metadata),
      (∃ heap, t = { s with heap := heap }) → next ≠ .handled →
      ∃ heap next', next' ≠ .handled ∧ t.filtered i call.metadata next r =
        { s with heap := heap }.setAttempt i fun a => { a with stage := next' } := by
    rintro t next r ⟨heap, rfl⟩ hnext
    cases r with
    | ok m => exact ⟨_, next, hnext, rfl⟩
    | error e => exact ⟨heap, .rejected e, nofun, rfl⟩
  unfold filter? at h
  dsimp only at h
  split at h
  · rename_i hstage
    rw [← Option.some.inj h, hstage]
    exact ⟨nofun, filtered s _ _ ⟨_, rfl⟩ nofun⟩
  · rename_i hstage
    rw [hstage]
    split at h
    · rw [← Option.some.inj h]
      exact ⟨nofun, filtered s _ _ ⟨_, rfl⟩ nofun⟩
    · rename_i m e _
      rw [← Option.some.inj h]
      exact ⟨nofun, filtered (s.setObject call.metadata m) _ _ ⟨_, rfl⟩ nofun⟩
  · rename_i hstage
    rw [hstage]
    split at h
    · rw [← Option.some.inj h]
      exact ⟨nofun, s.heap, .resolved, nofun, rfl⟩
    · split at h
      · rw [← Option.some.inj h]
        exact ⟨nofun, filtered s _ _ ⟨_, rfl⟩ nofun⟩
      · exact absurd h nofun
  all_goals exact absurd h nofun

/-- The filters of an attempt do not handle it. -/
theorem once_filter {config : Config γ} {i : Nat} {attempt : Attempt} {call : Call γ}
    {s' : State γ} (hattempt : s.attempts[i]? = some attempt)
    (h : s.filter? config i attempt call = some s') : s'.once = s.once := by
  obtain ⟨hstage, heap, next, hnext, rfl⟩ := s.filter_eq h
  refine once_setAttempt { s with heap := heap } fun attempt' hattempt' => ?_
  obtain rfl : attempt = attempt' := Option.some.inj (hattempt.symm.trans hattempt')
  simp [Attempt.live?, hstage, hnext]

theorem attempts_request (i call : Nat) (headers : Headers) :
    (s.request i call headers).attempts = s.attempts :=
  congrArg Work.attempts (s.work_request i call headers)

/-- The reactions to `finalMetadata` have run once they run. -/
theorem attempts_settle {config : Config γ} {i : Nat} {attempt : Attempt} {call : Call γ}
    {s' : State γ} (h : s.settle? config i attempt call = some s') :
    s'.attempts = s.attempts.modify i fun a => { a with stage := .handled } := by
  unfold settle? at h
  dsimp only at h
  split at h
  · split at h
    · rw [← Option.some.inj h]
      rfl
    · split at h
      · rw [← Option.some.inj h]
        rfl
      · split at h
        · rw [← Option.some.inj h, attempts_request]
          rfl
        · rw [← Option.some.inj h]
          rfl
  · rw [← Option.some.inj h]
    rfl
  all_goals exact absurd h nofun

/-- The reactions to `finalMetadata` take the live link of the call away. -/
theorem live_handled {i : Nat} {attempt : Attempt} (hattempt : s.attempts[i]? = some attempt)
    (hstage : attempt.stage ≠ .handled) :
    s.live.Perm (attempt.call :: (s.setAttempt i fun a => { a with stage := .handled }).live) :=
  filterMap_modify_perm (by simp [Attempt.live?, hstage]) (by simp [Attempt.live?]) hattempt

theorem once_request (i call : Nat) (headers : Headers) : (s.request i call headers).once =
    { s.once with called := s.requested ++ [call], due := s.requested ++ [call] } := by
  unfold request
  dsimp only
  split <;> simp [once, live, restarts, requested]

theorem once_retry (call : Nat) :
    { s with immediates := s.immediates ++ [Immediate.restart call] }.once =
      { s.once with waiting := s.live ++ (s.restarts ++ [call]) } := by
  simp [once, live, restarts, requested, Immediate.restart?]

/-- What comes in its place is nothing, a request, or a restart. -/
theorem once_settle {config : Config γ} {i : Nat} {attempt : Attempt} {call : Call γ}
    {s' : State γ} (hattempt : s.attempts[i]? = some attempt)
    (h : s.settle? config i attempt call = some s') : Once.Step s.once s'.once := by
  have hlink := fun hstage => (s.live_handled hattempt hstage).append_right s.restarts
  unfold settle? at h
  dsimp only at h
  -- The reactions end, and nothing is left to do.
  have ends : ∀ t : State γ, attempt.stage ≠ .handled →
      t.once = (s.setAttempt i fun a => { a with stage := .handled }).once →
      Once.Step s.once t.once := by
    intro t hstage ht
    rw [ht]
    exact .giveUp (List.Subperm.trans List.Subperm.cons_self (hlink hstage).symm.subperm)
  split at h
  · rename_i hstage
    have hlive : attempt.stage ≠ .handled := by rw [hstage]; exact nofun
    split at h
    · rw [← Option.some.inj h]
      exact ends _ hlive rfl
    · split at h
      · rw [← Option.some.inj h]
        exact ends _ hlive rfl
      · split at h
        · rw [← Option.some.inj h, once_request]
          exact .settle (hlink hlive)
        · rw [← Option.some.inj h]
          have hretry := once_retry (s.setAttempt i fun a => { a with stage := .handled }) attempt.call
          refine (congrArg (Once.Step s.once) hretry).mpr (.giveUp (List.Perm.subperm ?_))
          rw [← List.append_assoc]
          exact (List.perm_append_singleton _ _).trans (hlink hlive).symm
  · rename_i hstage
    rw [← Option.some.inj h]
    refine ends _ (by rw [hstage]; exact nofun) ?_
    simp only [endCall, once, List.length_modify]
    rfl
  all_goals exact absurd h nofun

theorem once_startHttp2Stream (call : Nat) (deadline : JsNumber) :
    (s.startHttp2Stream call deadline).once =
      { s.once with waiting := s.live ++ [call] ++ s.restarts } := by
  have hwork := s.work_startHttp2Stream call deadline
  have hrestarts := s.restarts_startHttp2Stream call deadline
  have hcalls : (s.startHttp2Stream call deadline).calls = s.calls := congrArg Work.calls hwork
  have hrequests : (s.startHttp2Stream call deadline).requests = s.requests :=
    congrArg Work.requests hwork
  have hattempts : (s.startHttp2Stream call deadline).attempts =
      s.attempts ++ [({ call } : Attempt)] := congrArg Work.attempts hwork
  simp [once, live, requested, hcalls, hrequests, hattempts, hrestarts, Attempt.live?]

end State

/-- **A call has one link at any time.** -/
theorem once_good_step {config : Config γ} {s s' : State γ} {a : Act γ} (hs : Once.Good s.once)
    (h : step config s a = some s') : Once.Good s'.once := by
  have same : ∀ {t : State γ}, t.once = s.once → Once.Good t.once := fun ht => ht ▸ hs
  have restarts : ∀ {t : State γ}, t.immediates = s.immediates → t.restarts = s.restarts :=
    fun ht => congrArg (List.filterMap Immediate.restart?) ht
  cases step_effect h with
  | connect => exact same (State.once_of_eq (s.work_connect .user) (s.restarts_connect .user))
  | create metadata methodName options _ =>
      -- The new call has the next number.
      rw [State.once_startHttp2Stream]
      show Once.Good ⟨(s.calls ++ [_]).length, s.live ++ [s.calls.length] ++ s.restarts,
        s.requested, s.requested⟩
      rw [List.length_append, List.length_singleton]
      refine (hs.step .wait).step (.giveUp (List.Perm.subperm ?_))
      show (s.live ++ [s.calls.length] ++ s.restarts).Perm (s.live ++ s.restarts ++ [s.calls.length])
      rw [List.append_assoc, List.append_assoc]
      exact List.perm_append_comm.append_left s.live
  | refuse _ _ _ _ => exact same rfl
  | close => exact same (State.once_of_eq s.work_close (restarts s.immediates_close))
  | @sessionConnect i _ _ _ _ =>
      exact same (State.once_of_eq (s.work_onSessionConnect i)
        (restarts (State.immediates_transitionToState _ .ready)))
  | sessionTimeout _ _ => exact same (State.once_of_eq s.work_goIdle (restarts s.immediates_goIdle))
  | emitted now _ => exact same rfl
  | emitNext now _ => exact same (s.once_emitNext now _ _)
  | @invoke now listener rest _ himmediates =>
      have hrest : { s with immediates := rest }.restarts = s.restarts := by
        simp only [State.restarts, himmediates, List.filterMap_cons, Immediate.restart?]
      exact same ((State.once_invoke { s with immediates := rest } now listener).trans
        (State.once_of_eq rfl hrest))
  | @restart now call rest _ himmediates =>
      have hrest : s.restarts = call :: { s with immediates := rest }.restarts := by
        simp only [State.restarts, himmediates, List.filterMap_cons, Immediate.restart?]
      rw [State.once_startHttp2Stream]
      refine hs.step (.giveUp (List.Perm.subperm ?_))
      show (s.live ++ [call] ++ { s with immediates := rest }.restarts).Perm (s.live ++ s.restarts)
      rw [hrest, List.append_assoc]
      exact .refl _
  | filter _ hattempt _ hfilter => exact same (s.once_filter hattempt hfilter)
  | settle _ hattempt _ _ hsettle => exact hs.step (s.once_settle hattempt hsettle)
  | callEnds call status =>
      refine same ?_
      simp only [State.once, State.endCall, List.length_modify]
      rfl

/-! ### The callback of an attempt runs once -/

/-- The attempt whose callback this is. -/
def Callback.start? : Callback → Option Nat
  | .start i => some i
  | .user | .deadline _ => none

def Listener.start? (listener : Listener) : Option Nat := listener.callback.start?

def Immediate.start? : Immediate → Option Nat
  | .callback listener => listener.start?
  | .restart _ => none

/-- The attempts whose callbacks wait. -/
def State.starts (s : State γ) : List Nat :=
  s.listeners.filterMap Listener.start? ++ s.immediates.filterMap Immediate.start?

/-- The callback of an attempt that waits is alone, and has not run. -/
structure StartsOnce (s : State γ) : Prop where
  nodup : s.starts.Nodup
  waits : ∀ i ∈ s.starts, ∃ attempt, s.attempts[i]? = some attempt ∧ attempt.connected = false

/-- No callback of an attempt runs. -/
def Untouched (s s' : State γ) : Prop :=
  ∀ (i : Nat) (attempt : Attempt), s.attempts[i]? = some attempt →
    ∃ attempt' : Attempt, s'.attempts[i]? = some attempt' ∧ attempt'.connected = attempt.connected

theorem untouched_of_eq {s s' : State γ} (h : s'.attempts = s.attempts) : Untouched s s' :=
  fun _ attempt hattempt => ⟨attempt, h ▸ hattempt, rfl⟩

theorem untouched_setAttempt (s : State γ) (i : Nat) {f : Attempt → Attempt}
    (hf : ∀ attempt, (f attempt).connected = attempt.connected) :
    Untouched s (s.setAttempt i f) := by
  intro j attempt hattempt
  simp only [State.setAttempt, List.getElem?_modify, hattempt]
  by_cases h : i = j
  · exact ⟨f attempt, by simp [h], hf attempt⟩
  · exact ⟨attempt, by simp [h], rfl⟩

theorem StartsOnce.shrink {s s' : State γ} (hs : StartsOnce s)
    (hstarts : s'.starts.Subperm s.starts) (hattempts : Untouched s s') : StartsOnce s' where
  nodup := by
    obtain ⟨starts, hperm, hsublist⟩ := hstarts
    exact hperm.nodup_iff.mp (hsublist.nodup hs.nodup)
  waits i hi := by
    obtain ⟨attempt, hattempt, hconnected⟩ := hs.waits i (hstarts.subset hi)
    obtain ⟨attempt', hattempt', hsame⟩ := hattempts i attempt hattempt
    exact ⟨attempt', hattempt', hsame.trans hconnected⟩

namespace State

variable (s : State γ)

/-- The calls have no part in it. -/
theorem starts_of_bare {s s' : State γ} (h : s'.bare = s.bare) : s'.starts = s.starts := by
  show s'.bare.starts = s.bare.starts
  rw [h]

theorem starts_transitionToState (newState : ConnectivityState) :
    (s.transitionToState newState).starts.Subperm s.starts := by
  unfold transitionToState emit
  split
  · exact .refl _
  · split
    · exact .refl _
    · exact (List.sublist_append_right _ _).subperm

theorem starts_kickConnectivityState : s.kickConnectivityState.starts.Subperm s.starts := by
  unfold kickConnectivityState
  split
  · exact s.starts_transitionToState .connecting
  · exact .refl _

theorem starts_connect (callback : Callback) :
    (s.connect callback).starts.Subperm (s.starts ++ callback.start?.toList) := by
  have hkick : s.pass.kickConnectivityState.starts.Subperm s.starts :=
    starts_kickConnectivityState s.pass
  have hwait : ∀ t : State γ, (t.waitReady ⟨s.nextId, callback⟩).starts.Perm
      (t.starts ++ callback.start?.toList) := by
    intro t
    unfold waitReady
    split
    · simp only [starts, List.filterMap_append, List.append_assoc, filterMap_cons_toList,
        List.filterMap_nil, List.append_nil]
      exact .refl _
    · simp only [starts, List.filterMap_append, List.append_assoc, filterMap_cons_toList,
        List.filterMap_nil, List.append_nil]
      exact List.perm_append_comm.append_left _
  exact (hwait _).subperm.trans (hkick.append (.refl _))

theorem starts_goIdle : s.goIdle.starts.Subperm s.starts := by
  unfold goIdle
  split
  · exact starts_transitionToState _ .idle
  · exact starts_transitionToState _ .idle
  · exact .refl _

theorem starts_close : s.close.starts.Subperm s.starts := by
  unfold close shutdownSubChannel
  split
  · exact .refl _
  · split
    · exact starts_transitionToState _ .shutdown
    · exact starts_transitionToState _ .shutdown
    · exact starts_transitionToState _ .shutdown

theorem attempts_startHttp2Stream (call : Nat) (deadline : JsNumber) :
    (s.startHttp2Stream call deadline).attempts = s.attempts ++ [({ call } : Attempt)] :=
  congrArg Work.attempts (s.work_startHttp2Stream call deadline)

theorem starts_startHttp2Stream (call : Nat) (deadline : JsNumber) :
    (s.startHttp2Stream call deadline).starts.Subperm (s.starts ++ [s.attempts.length]) := by
  unfold startHttp2Stream
  dsimp only
  split
  · exact starts_connect { s with attempts := s.attempts ++ [({ call } : Attempt)] } _
  · have hfirst := starts_connect { s with attempts := s.attempts ++ [({ call } : Attempt)] }
      (.deadline s.attempts.length)
    rw [show (Callback.deadline s.attempts.length).start?.toList = [] from rfl,
      List.append_nil] at hfirst
    exact (starts_connect _ _).trans (hfirst.append (.refl _))

end State

/-- An attempt is given a callback of its own. -/
theorem StartsOnce.startHttp2Stream {s : State γ} (hs : StartsOnce s) (call : Nat)
    (deadline : JsNumber) : StartsOnce (s.startHttp2Stream call deadline) := by
  have hnew : ∀ i ∈ s.starts, i < s.attempts.length := by
    intro i hi
    obtain ⟨attempt, hattempt, -⟩ := hs.waits i hi
    exact (List.getElem?_eq_some_iff.mp hattempt).1
  have hsub := s.starts_startHttp2Stream call deadline
  refine ⟨?_, fun i hi => ?_⟩
  · obtain ⟨starts, hperm, hsublist⟩ := hsub
    refine hperm.nodup_iff.mp (hsublist.nodup ?_)
    rw [List.nodup_append]
    refine ⟨hs.nodup, List.nodup_singleton _, fun i hi j hj => ?_⟩
    rw [List.mem_singleton.mp hj]
    exact Nat.ne_of_lt (hnew i hi)
  · rw [State.attempts_startHttp2Stream]
    rcases List.mem_append.mp (hsub.subset hi) with hold | hself
    · obtain ⟨attempt, hattempt, hconnected⟩ := hs.waits i hold
      exact ⟨attempt, by rw [List.getElem?_append_left (hnew i hold), hattempt], hconnected⟩
    · rw [List.mem_singleton.mp hself]
      exact ⟨_, List.getElem?_concat_length, rfl⟩

/-- The callback that runs was the only one of its attempt. -/
theorem StartsOnce.invoke {s t : State γ} (hs : StartsOnce s) (now : Int) {listener : Listener}
    (hattempts : t.attempts = s.attempts)
    (hstarts : s.starts.Perm (listener.start?.toList ++ t.starts)) :
    StartsOnce (t.invoke now listener) := by
  have ht : StartsOnce t :=
    hs.shrink ((List.sublist_append_right _ _).subperm.trans hstarts.symm.subperm)
      (untouched_of_eq hattempts)
  rcases listener with ⟨id, callback⟩
  cases callback with
  | user => exact ⟨ht.nodup, ht.waits⟩
  | deadline i =>
      simp only [State.invoke, State.runCallback]
      cases t.attempts[i]? with
      | none => exact ⟨ht.nodup, ht.waits⟩
      | some attempt =>
          exact ht.shrink (.refl _) (untouched_setAttempt { t with invoked := t.invoked ++ [id] } i
            fun _ => rfl)
  | start i =>
      have hnodup : (i :: t.starts).Nodup := hstarts.nodup_iff.mp hs.nodup
      refine ⟨ht.nodup, fun j hj => ?_⟩
      obtain ⟨attempt, hattempt, hconnected⟩ := ht.waits j hj
      have hne : i ≠ j := fun heq => (List.nodup_cons.mp hnodup).1 (heq ▸ hj)
      refine ⟨attempt, ?_, hconnected⟩
      show (t.attempts.modify i _)[j]? = some attempt
      rw [List.getElem?_modify, hattempt]
      simp [hne]

theorem startsOnce_step {config : Config γ} {s s' : State γ} {a : Act γ} (hs : StartsOnce s)
    (h : step config s a = some s') : StartsOnce s' := by
  have shrinks : ∀ {t : State γ}, t.starts.Subperm s.starts → t.work = s.work → StartsOnce t :=
    fun hstarts hwork => hs.shrink hstarts (untouched_of_eq (congrArg Work.attempts hwork))
  cases step_effect h with
  | connect =>
      have hstarts := s.starts_connect .user
      rw [show Callback.user.start?.toList = [] from rfl, List.append_nil] at hstarts
      exact shrinks hstarts (s.work_connect .user)
  | create metadata methodName options _ =>
      exact StartsOnce.startHttp2Stream
        (s := { s with calls := s.calls ++ [State.newCall metadata methodName options] })
        ⟨hs.nodup, hs.waits⟩ _ _
  | refuse _ _ _ _ => exact ⟨hs.nodup, hs.waits⟩
  | close => exact shrinks s.starts_close s.work_close
  | @sessionConnect i _ _ _ _ =>
      exact shrinks (State.starts_transitionToState _ .ready) (s.work_onSessionConnect i)
  | sessionTimeout _ _ => exact shrinks s.starts_goIdle s.work_goIdle
  | emitted now _ => exact ⟨hs.nodup, hs.waits⟩
  | @emitNext now listener rest _ =>
      unfold State.emitNext
      dsimp only
      split
      · rename_i hmem
        refine hs.invoke now rfl ?_
        have hperm := (List.perm_cons_erase hmem).filterMap Listener.start?
        rw [filterMap_cons_toList] at hperm
        refine (hperm.append_right _).trans (.of_eq ?_)
        exact List.append_assoc _ _ _
      · exact ⟨hs.nodup, hs.waits⟩
  | @invoke now listener rest _ himmediates =>
      refine hs.invoke now rfl ?_
      show (_ ++ s.immediates.filterMap Immediate.start?).Perm _
      rw [himmediates, filterMap_cons_toList]
      exact List.perm_append_comm_assoc _ _ _
  | @restart now call rest _ himmediates =>
      have hrest : StartsOnce { s with immediates := rest } := by
        refine hs.shrink ?_ (untouched_of_eq rfl)
        simp only [State.starts, himmediates, List.filterMap_cons, Immediate.start?]
        exact .refl _
      exact hrest.startHttp2Stream call _
  | filter _ hattempt hcall hfilter =>
      obtain ⟨-, heap, next, -, rfl⟩ := s.filter_eq hfilter
      exact hs.shrink (.refl _) (untouched_setAttempt { s with heap := heap } _ fun _ => rfl)
  | @settle i _ _ _ _ _ _ _ hsettle =>
      refine hs.shrink ?_ ?_
      · rcases s.bare_settle hsettle with hbare | hbare
        · rw [State.starts_of_bare hbare]
        · -- A restart is no callback.
          rw [State.starts_of_bare hbare]
          simp only [State.starts, List.filterMap_append, filterMap_cons_toList,
            Immediate.start?, Option.toList_none, List.filterMap_nil, List.append_nil]
          exact .refl _
      · have hattempts := s.attempts_settle hsettle
        intro j attempt hattempt
        obtain ⟨attempt', hattempt', hsame⟩ := untouched_setAttempt s i
          (f := fun a => { a with stage := .handled }) (fun _ => rfl) j attempt hattempt
        exact ⟨attempt', hattempts ▸ hattempt', hsame⟩
  | callEnds call status => exact ⟨hs.nodup, hs.waits⟩

/-! ### Runs -/

/-- The requests that a stream was attached for: `session.request` throws where there is no
session. -/
def Request.attaches (request : Request) : Bool :=
  match request.session with
  | .session _ => true
  | .null | .undefined => false

/-- A call makes one request at most, and is attached to one stream at most; the callback of
each attempt runs once. -/
structure RequestedOnce (s : State γ) : Prop where
  requested (call : Nat) : (s.requests.map Request.call).count call ≤ 1
  attached (call : Nat) : ((s.requests.filter Request.attaches).map Request.call).count call ≤ 1
  starts : StartsOnce s

theorem requestedOnce_of_once {s : State γ} (h : Once.Good s.once) (hstarts : StartsOnce s) :
    RequestedOnce s where
  requested := h.count_called
  attached call :=
    (List.Sublist.count_le call (List.filter_sublist.map Request.call)).trans (h.count_called call)
  starts := hstarts

/-- No request is made, or one, in a channel that is ready and for a call that has not ended. -/
def Requests (s s' : State γ) : Prop :=
  s'.requests = s.requests ∨
    ∃ request call, s'.requests = s.requests ++ [request] ∧ s.connectivityState = .ready ∧
      s.calls[request.call]? = some call ∧ call.status = none

theorem step_requests {config : Config γ} {s s' : State γ} {a : Act γ}
    (h : step config s a = some s') : Requests s s' := by
  have hwork := step_work h
  unfold Requests
  rw [show s'.requests = s'.work.requests from rfl]
  generalize s'.work = w at hwork ⊢
  cases hwork with
  | request hattempt hcall _ hstatus hready _ => exact .inr ⟨_, _, rfl, hready, hcall, hstatus⟩
  | _ => exact .inl rfl

/-- **One request for each call**, in every run of the channel; and each request is made while
the channel is ready, for a call that has no final status. -/
theorem requestedOnce_always (config : Config γ) (objects : Nat → Metadata)
    (acts : List (Act γ)) :
    Runs.Always (step config) RequestedOnce (State.initial objects) acts ∧
      ∀ s a s', Runs.exec (step config) (State.initial objects) acts = some s →
        step config s a = some s' → Requests s s' := by
  refine ⟨?_, fun _ _ _ _ h => step_requests h⟩
  have hinvariant : Runs.Always (step config) (fun s => Once.Good s.once ∧ StartsOnce s)
      (State.initial objects) acts :=
    Runs.always_of_invariant (fun _ _ _ hs h => ⟨once_good_step hs.1 h, startsOnce_step hs.2 h⟩)
      ⟨Once.Good.initial, List.nodup_nil, nofun⟩ acts
  exact hinvariant.mono fun _ hs => requestedOnce_of_once hs.1 hs.2

end GrpcNode.JsCore.Channel
