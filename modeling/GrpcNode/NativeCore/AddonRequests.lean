import GrpcNode.NativeCore.AddonTags

/-!
# GrpcNode.NativeCore.AddonRequests

The requests for new calls that `start` of `server.js` makes: the first one itself, and the next one
each time in `handleNewCall`.

`State.requestLoop` is what the addon knows of the requests of one server, and `RequestLoop.Step` is
all that can happen to them. `always_requests` says that the server always waits for exactly one
call, until a request fails.
-/

namespace GrpcNode.NativeCore.Addon

/-- The requests of `handleNewCall` of a server -/
structure RequestLoop where
  /-- `this.started` -/
  started : Bool := false
  /-- The requests that the core has accepted and not returned. -/
  requests : Nat := 0
  /-- `handleNewCall` has been called with an error. -/
  failed : Bool := false

/-- What can happen to the requests, where the core accepts the next one or does not. -/
inductive RequestLoop.Step (accepted : Bool) (l : RequestLoop) : RequestLoop → Prop
  | idle : Step accepted l l
  | start (h : l.started = false) :
      Step accepted l { l with started := true, requests := l.requests + accepted.toNat }
  | next {n : Nat} (h : l.requests = n + 1) :
      Step accepted l { l with requests := n + accepted.toNat }
  | fail {n : Nat} (h : l.requests = n + 1) : Step accepted l { l with requests := n, failed := true }

/-- There is no request before the start, and one at most afterwards. -/
structure RequestLoop.Single (l : RequestLoop) : Prop where
  atMostOne : l.requests ≤ 1
  unstarted : l.started = false → l.requests = 0 ∧ l.failed = false

/-- There is a request, unless one has failed. -/
def RequestLoop.Waiting (l : RequestLoop) : Prop :=
  l.started = true → (l.requests = 1 ↔ l.failed = false)

/-- A step of the loop keeps it to one request, and none before the start. -/
theorem RequestLoop.Single.step {l l' : RequestLoop} {accepted : Bool} (h : l.Single)
    (hstep : Step accepted l l') : l'.Single := by
  have hone := h.atMostOne
  have haccepted : accepted.toNat ≤ 1 := accepted.toNat_le
  have hstarted : ∀ {n : Nat}, l.requests = n + 1 → l.started = true := by
    intro n hn
    by_contra hunstarted
    have hzero := (h.unstarted (eq_false_of_ne_true hunstarted)).1
    omega
  cases hstep with
  | idle => exact h
  | start hunstarted =>
      have hzero := (h.unstarted hunstarted).1
      exact ⟨by simp only; omega, nofun⟩
  | next hn =>
      refine ⟨by simp only; omega, fun hunstarted => ?_⟩
      exact absurd ((hstarted hn).symm.trans hunstarted) nofun
  | fail hn =>
      refine ⟨by simp only; omega, fun hunstarted => ?_⟩
      exact absurd ((hstarted hn).symm.trans hunstarted) nofun

/-- If the core accepts all requests, the loop goes on. -/
theorem RequestLoop.Waiting.step {l l' : RequestLoop} (hsingle : l.Single) (h : l.Waiting)
    (hstep : Step true l l') : l'.Waiting := by
  have hone := hsingle.atMostOne
  cases hstep with
  | idle => exact h
  | start hunstarted =>
      obtain ⟨hzero, hfailed⟩ := hsingle.unstarted hunstarted
      exact fun _ => iff_of_true (by simp only [hzero]; rfl) hfailed
  | @next n hn =>
      obtain rfl : n = 0 := by omega
      exact fun hstarted => iff_of_true rfl ((h hstarted).mp hn)
  | @fail n hn =>
      obtain rfl : n = 0 := by omega
      exact fun _ => iff_of_false nofun nofun

/-! ### The addon -/

/-- A request of `handleNewCall` of a server -/
def Tag.requests (server : Nat) (tag : Tag) : Bool := tag.callback = .handleNewCall server

/-- `handleNewCall` of a server gets an error. -/
def Event.requestFails (server : Nat) : Event → Bool
  | .callback function (some _) => function = .handleNewCall server
  | _ => false

/-- Whether the core accepts the request that `handleNewCall` or `start` makes. -/
def Act.accepted : Act → Bool
  | .start _ accepted | .complete _ _ accepted => accepted
  | _ => true

namespace State

variable (s : State) (i : Nat)

/-- What the addon knows of the requests of a server. -/
def requestLoop : RequestLoop where
  started := (s.server i).started
  requests := s.tags.countP (Tag.requests i)
  failed := s.trace.any (Event.requestFails i)

variable {s i}

/-- What is recorded does not concern the loop, unless a request has failed. -/
theorem requestLoop_record {e : Event} (h : e.requestFails i = false) :
    (s.record e).requestLoop i = s.requestLoop i := by
  have htrace : (s.trace ++ [e]).any (Event.requestFails i) = s.trace.any (Event.requestFails i) := by
    rw [List.any_append, List.any_cons, h, List.any_nil, Bool.or_false, Bool.or_false]
  exact congrArg (RequestLoop.mk _ _) htrace

/-- What is asked of the core does not concern the loop, before it is accepted. -/
@[simp] theorem requestLoop_record_core (call : CoreCall) :
    (s.record (.core call)).requestLoop i = s.requestLoop i := requestLoop_record rfl

/-- A function of JavaScript code is not the one of the loop. -/
@[simp] theorem requestLoop_passCallback : s.passCallback.requestLoop i = s.requestLoop i := rfl

/-- A call is not the server. -/
@[simp] theorem requestLoop_modifyCall (j : Nat) (f : CallObject → CallObject) :
    (s.modifyCall j f).requestLoop i = s.requestLoop i := rfl

/-- A channel is not the server. -/
@[simp] theorem requestLoop_modifyChannel (j : Nat) (f : ChannelObject → ChannelObject) :
    (s.modifyChannel j f).requestLoop i = s.requestLoop i := rfl

/-- A new call is not the server. -/
@[simp] theorem requestLoop_newCallObject : s.newCallObject.requestLoop i = s.requestLoop i := rfl

/-- The loop depends on whether the server is started, and on nothing else of its wrapper. -/
theorem requestLoop_modifyServer {j : Nat} {f : ServerObject → ServerObject}
    (hf : ∀ server, (f server).started = server.started) :
    (s.modifyServer j f).requestLoop i = s.requestLoop i := by
  have hstarted : ((s.modifyServer j f).server i).started = (s.server i).started := by
    rw [server, server, List.getD_eq_getElem?_getD, List.getD_eq_getElem?_getD, modifyServer,
      List.getElem?_modify]
    split
    · cases s.servers[i]? with
      | none => rfl
      | some server => exact hf server
    · cases s.servers[i]? <;> rfl
  exact congrArg (fun started => RequestLoop.mk started _ _) hstarted

/-- `wrapped_server = NULL` -/
@[simp] theorem requestLoop_unwrap (j : Nat) :
    (s.modifyServer j fun server => { server with wrapped := false }).requestLoop i =
      s.requestLoop i :=
  requestLoop_modifyServer fun _ => rfl

/-- A tag counts if it is a request of the loop. -/
theorem requestLoop_addTag (tag : Tag) : (s.addTag tag).requestLoop i =
    { s.requestLoop i with requests := (s.requestLoop i).requests + (tag.requests i).toNat } := by
  have hcount : (s.tags ++ [tag]).countP (Tag.requests i) =
      s.tags.countP (Tag.requests i) + (tag.requests i).toNat := by
    rw [List.countP_append, List.countP_singleton]
    cases tag.requests i <;> rfl
  exact congrArg (fun requests => RequestLoop.mk _ requests _) hcount

/-- A tag with another callback -/
theorem requestLoop_addTag_other {tag : Tag} (h : tag.requests i = false) :
    (s.addTag tag).requestLoop i = s.requestLoop i := by
  rw [requestLoop_addTag, h]
  rfl

/-- The counter of the queue does not concern the loop. -/
@[simp] theorem requestLoop_completionQueueNext :
    s.completionQueueNext.requestLoop i = s.requestLoop i :=
  completionQueueNext_frame (requestLoop · i) (fun _ => requestLoop_record rfl)
    (fun _ _ _ => rfl) s

/-- The value of an operation does not concern the loop. -/
theorem requestLoop_getNodeValue (op : Op) : (s.getNodeValue op).requestLoop i = s.requestLoop i := by
  cases op <;> rfl

/-- What an operation does when it completes does not concern the loop. -/
theorem requestLoop_onComplete (success : Bool) (op : Op) :
    (s.onComplete success op).requestLoop i = s.requestLoop i := by
  cases op with
  | batch op => rfl
  | newCall => rfl
  | serverShutdown handle => exact requestLoop_record_core _
  | tryShutdown j =>
      simp only [onComplete]
      split
      · unfold destroyWrappedServer
        split
        · rw [requestLoop_unwrap, requestLoop_record_core]
        · rfl
      · rfl

/-- A batch of a call does not concern the loop. -/
theorem requestLoop_completeBatch (j : Nat) (isFinalOp : Bool) :
    (s.completeBatch j isFinalOp).requestLoop i = s.requestLoop i := by
  unfold completeBatch destroyCall
  dsimp only
  split
  · split
    · rw [requestLoop_modifyCall, requestLoop_record_core, requestLoop_modifyCall]
    · rfl
  · rfl

/-- The second half of an iteration comes after the next request. -/
theorem requestLoop_completeTag (tag : Tag) (success : Bool) :
    (s.completeTag tag success).requestLoop i = s.requestLoop i := by
  have hops := foldl_frame (requestLoop · i)
    (fun s op => requestLoop_onComplete (s := s) success op) tag.ops s
  unfold completeTag
  dsimp only
  rw [requestLoop_record rfl, ← hops]
  split
  · exact requestLoop_completeBatch _ _
  · rfl

/-- A tag that is finished does not concern the loop. -/
theorem requestLoop_finishTag : s.finishTag.requestLoop i = s.requestLoop i := by
  rw [finishTag_eq]
  rfl

end State

variable {s : State} {i : Nat}

/-! ### The steps -/

/-- A request, for `handleNewCall` or for another function -/
theorem requestLoop_requestCall (j : Nat) (callback : Callback) (accepted : Bool) :
    (s.requestCall j callback accepted).requestLoop i = { s.requestLoop i with
      requests := (s.requestLoop i).requests +
        (if callback = .handleNewCall i then accepted.toNat else 0) } := by
  unfold State.requestCall
  cases accepted with
  | true =>
      simp only [if_true, State.requestLoop_completionQueueNext, State.requestLoop_addTag,
        State.requestLoop_record_core, Tag.requests]
      congr 2
      split <;> simp_all
  | false => simp

/-- A request of somebody else is not one of the loop. -/
theorem requestLoop_requestCall_other {callback : Callback} (h : callback ≠ .handleNewCall i)
    (j : Nat) (accepted : Bool) :
    (s.requestCall j callback accepted).requestLoop i = s.requestLoop i := by
  rw [requestLoop_requestCall, if_neg h]
  rfl

/-- The tag of a shutdown is not a request. -/
theorem requestLoop_shutdownServer (j : Nat) :
    (s.shutdownServer j).requestLoop i = s.requestLoop i := by
  unfold State.shutdownServer
  split
  · dsimp only
    rw [State.requestLoop_unwrap, State.requestLoop_completionQueueNext,
      State.requestLoop_record_core, State.requestLoop_addTag_other rfl,
      State.requestLoop_record_core]
  · rfl

/-- The tag of a shutdown is not a request. -/
theorem requestLoop_tryShutdown (j : Nat) : (s.tryShutdown j).requestLoop i = s.requestLoop i := by
  unfold State.tryShutdown
  split
  · dsimp only
    rw [State.requestLoop_completionQueueNext, State.requestLoop_addTag_other rfl,
      State.requestLoop_record_core, State.requestLoop_passCallback]
  · exact State.requestLoop_record rfl

/-- The tag of a batch is not a request. -/
theorem requestLoop_startBatch (core : Core) (j : Nat) (batch : Batch) (accepted : Bool) :
    (s.startBatch core j batch accepted).requestLoop i = s.requestLoop i := by
  unfold State.startBatch
  split
  · split
    · unfold State.startOps
      dsimp only
      split
      · rw [State.requestLoop_completionQueueNext, State.requestLoop_modifyCall,
          State.requestLoop_addTag_other rfl, State.requestLoop_record_core,
          State.requestLoop_passCallback]
      · rw [State.requestLoop_record_core, State.requestLoop_passCallback]
    · rfl
  · exact State.requestLoop_record rfl

/-- `start` makes the first request. -/
theorem requestLoop_start {j : Nat} (hj : j < s.servers.length) (accepted : Bool) :
    (s.requestLoop i).Step accepted ((s.start j accepted).requestLoop i) := by
  unfold State.start
  split
  · exact .idle
  · rename_i hunstarted
    dsimp only
    rw [requestLoop_requestCall, State.requestLoop_record_core]
    by_cases hij : j = i
    · subst hij
      rw [if_pos rfl]
      have hloop : (s.modifyServer j fun server => { server with started := true }).requestLoop j =
          { s.requestLoop j with started := true } := by
        have hserver := State.server_modifyServer (fun server => { server with started := true }) hj j
        rw [if_pos rfl] at hserver
        exact congrArg (fun server => RequestLoop.mk server.started _ _) hserver
      rw [hloop]
      exact .start (eq_false_of_ne_true hunstarted)
    · have hne : Callback.handleNewCall j ≠ .handleNewCall i := fun h =>
        hij (Callback.handleNewCall.inj h)
      have hloop : (s.modifyServer j fun server => { server with started := true }).requestLoop i =
          s.requestLoop i := by
        have hserver := State.server_modifyServer (fun server => { server with started := true }) hj i
        rw [if_neg hij] at hserver
        exact congrArg (fun server => RequestLoop.mk server.started _ _) hserver
      rw [if_neg hne, hloop]
      exact .idle

/-- A callback of somebody else requests no call for the loop. -/
theorem requestLoop_runCallback_other {callback : Callback} (h : callback ≠ .handleNewCall i)
    (success accepted : Bool) :
    (s.runCallback callback success accepted).requestLoop i = s.requestLoop i := by
  have hrecord : ∀ err, (s.record (.callback callback err)).requestLoop i = s.requestLoop i := by
    intro err
    refine State.requestLoop_record ?_
    cases err with
    | none => rfl
    | some err => exact decide_eq_false h
  unfold State.runCallback
  dsimp only
  split
  · rename_i j _
    rw [requestLoop_requestCall_other h, hrecord]
  · exact hrecord _

/-- `handleNewCall` requests the next call, unless there is an error. -/
theorem requestLoop_runCallback (success accepted : Bool) :
    (s.runCallback (.handleNewCall i) success accepted).requestLoop i =
      if success then { s.requestLoop i with
        requests := (s.requestLoop i).requests + accepted.toNat }
      else { s.requestLoop i with failed := true } := by
  unfold State.runCallback
  dsimp only
  cases success with
  | true =>
      rw [if_pos rfl, if_pos rfl, requestLoop_requestCall, if_pos rfl, State.requestLoop_record rfl]
  | false =>
      have hfails : Event.requestFails i (.callback (.handleNewCall i) (some (.error batchError))) =
          true := decide_eq_true rfl
      have htrace : (s.trace ++ [Event.callback (.handleNewCall i) (some (.error batchError))]).any
          (Event.requestFails i) = true := by
        rw [List.any_append, List.any_cons, hfails, Bool.true_or, Bool.or_true]
      exact congrArg (RequestLoop.mk _ _) htrace

/-- A request completes, and `handleNewCall` makes the next one, or it fails; or another tag
completes. -/
theorem requestLoop_deliver {j : Nat} {tag : Tag} (htag : s.tags[j]? = some tag)
    (success accepted : Bool) :
    (s.requestLoop i).Step accepted ((s.deliver j tag success accepted).requestLoop i) := by
  obtain ⟨hj, rfl⟩ := List.getElem?_eq_some_iff.mp htag
  have hcount : s.tags.countP (Tag.requests i) =
      (s.tags.eraseIdx j).countP (Tag.requests i) + (s.tags[j].requests i).toNat := by
    rw [← (List.getElem_cons_eraseIdx_perm hj).countP_eq, List.countP_cons]
    cases s.tags[j].requests i <;> rfl
  -- What `runCallback` starts from.
  obtain ⟨t, hdeliver, hloop⟩ : ∃ t : State,
      s.deliver j s.tags[j] success accepted = t.runCallback s.tags[j].callback success accepted ∧
      t.requestLoop i = { s.requestLoop i with
        requests := (s.tags.eraseIdx j).countP (Tag.requests i) } := by
    refine ⟨_, rfl, ?_⟩
    split
    · rw [State.foldl_frame (State.requestLoop · i) fun s op => State.requestLoop_getNodeValue op]
      exact State.requestLoop_record rfl
    · exact State.requestLoop_record rfl
  rw [hdeliver]
  by_cases hcallback : s.tags[j].callback = .handleNewCall i
  · have hone : s.tags[j].requests i = true := decide_eq_true hcallback
    rw [hone] at hcount
    rw [hcallback, requestLoop_runCallback, hloop]
    cases success with
    | true => exact .next hcount
    | false => exact .fail hcount
  · have hzero : s.tags[j].requests i = false := decide_eq_false hcallback
    rw [hzero] at hcount
    rw [requestLoop_runCallback_other hcallback, hloop, ← Nat.add_zero (List.countP ..)]
    have hsame : { s.requestLoop i with
        requests := (s.tags.eraseIdx j).countP (Tag.requests i) + 0 } = s.requestLoop i :=
      congrArg (fun requests => RequestLoop.mk _ requests _) hcount.symm
    rw [hsame]
    exact .idle

/-- Each step of the addon is one of the loop, or none. -/
theorem requestLoop_step {core : Core} {s' : State} {a : Act} (hs : step core s a = some s') :
    (s.requestLoop i).Step a.accepted (s'.requestLoop i) := by
  have idle : s'.requestLoop i = s.requestLoop i →
      (s.requestLoop i).Step a.accepted (s'.requestLoop i) := fun h => by
    rw [h]
    exact .idle
  cases a with
  | newChannel | drain | drainEnds =>
      obtain ⟨-, rfl⟩ := Runs.when_eq_some.mp hs
      exact idle rfl
  | close j =>
      obtain ⟨-, rfl⟩ := Runs.when_eq_some.mp hs
      refine idle ?_
      unfold State.close
      split
      · rw [State.requestLoop_modifyChannel, State.requestLoop_record_core]
      · rfl
  | getTarget j | getConnectivityState j =>
      obtain ⟨-, rfl⟩ := Runs.when_eq_some.mp hs
      exact idle (State.requestLoop_record_core _)
  | watchConnectivityState j =>
      obtain ⟨-, rfl⟩ := Runs.when_eq_some.mp hs
      refine idle ?_
      rw [State.watchConnectivityState, State.requestLoop_completionQueueNext,
        State.requestLoop_addTag_other rfl, State.requestLoop_record_core,
        State.requestLoop_passCallback]
  | newCall j =>
      obtain ⟨-, rfl⟩ := Runs.when_eq_some.mp hs
      refine idle ?_
      unfold State.newCall
      split
      · rw [State.requestLoop_newCallObject, State.requestLoop_record_core]
      · rfl
  | startBatch j batch accepted =>
      obtain ⟨-, rfl⟩ := Runs.when_eq_some.mp hs
      exact idle (requestLoop_startBatch core j batch accepted)
  | cancel j | cancelWithStatus j =>
      obtain ⟨-, rfl⟩ := Runs.when_eq_some.mp hs
      refine idle ?_
      unfold State.cancelWith
      split
      · exact State.requestLoop_record_core _
      · rfl
  | newServer =>
      obtain ⟨-, rfl⟩ := Runs.when_eq_some.mp hs
      have hserver : (s.servers ++ [({} : ServerObject)]).getD i {} = s.server i :=
        getD_append_default _ _ _
      exact idle (congrArg (fun server => RequestLoop.mk server.started _ _) hserver)
  | bind j =>
      obtain ⟨-, rfl⟩ := Runs.when_eq_some.mp hs
      refine idle ?_
      unfold State.bind
      split
      · rfl
      · exact State.requestLoop_record_core _
  | start j accepted =>
      obtain ⟨⟨-, hj, -⟩, rfl⟩ := Runs.when_eq_some.mp hs
      exact requestLoop_start hj accepted
  | requestCall j accepted =>
      obtain ⟨-, rfl⟩ := Runs.when_eq_some.mp hs
      have hother : Callback.user s.callbacks ≠ .handleNewCall i := nofun
      exact idle (requestLoop_requestCall_other (s := s.passCallback) hother j accepted)
  | tryShutdown j =>
      obtain ⟨-, rfl⟩ := Runs.when_eq_some.mp hs
      exact idle (requestLoop_tryShutdown j)
  | forceShutdown j =>
      obtain ⟨-, rfl⟩ := Runs.when_eq_some.mp hs
      exact idle (requestLoop_shutdownServer j)
  | collect j =>
      obtain ⟨-, rfl⟩ := Runs.when_eq_some.mp hs
      refine idle ?_
      rw [State.collect, requestLoop_shutdownServer]
      exact State.requestLoop_modifyServer fun _ => rfl
  | complete j success accepted =>
      obtain ⟨tag, htag, -, rfl⟩ := complete_of_step hs
      exact requestLoop_deliver htag success accepted
  | callbackReturns =>
      obtain ⟨tag, success, -, rfl⟩ := callbackReturns_of_step hs
      refine idle ?_
      rw [State.requestLoop_finishTag, State.requestLoop_completeTag]

/-- **A server waits for one call at a time.** In every run at most one request of `handleNewCall`
of a server is with the core, and none before the server is started. If the core accepts all
requests, then a server that is started always has one, until one of them fails: whatever is
called, and however many calls have been handled. -/
theorem always_requested (core : Core) (i : Nat) (acts : List Act) :
    Runs.Always (step core) (fun s => (s.requestLoop i).Single) {} acts ∧
      ((∀ a ∈ acts, a.accepted = true) →
        Runs.Always (step core) (fun s => (s.requestLoop i).Waiting) {} acts) := by
  have hinitial : (State.requestLoop {} i).Single := ⟨Nat.zero_le 1, fun _ => ⟨rfl, rfl⟩⟩
  have hstep : ∀ (s : State) (a : Act) (s' : State), (s.requestLoop i).Single →
      step core s a = some s' → (s'.requestLoop i).Single :=
    fun _ _ _ h hs => h.step (requestLoop_step hs)
  refine ⟨Runs.always_of_invariant hstep hinitial acts, fun haccepted => ?_⟩
  have hboth : Runs.Always (step core)
      (fun s => (s.requestLoop i).Single ∧ (s.requestLoop i).Waiting) {} acts := by
    refine Runs.always_of_guarded (C := fun _ a => a.accepted = true) (fun s a s' h ha hs => ?_)
      ⟨hinitial, nofun⟩ (Runs.guarded_of_forall haccepted _)
    have hstep := requestLoop_step (i := i) hs
    rw [ha] at hstep
    exact ⟨h.1.step hstep, h.2.step h.1 hstep⟩
  exact hboth.mono fun _ h => h.2

/-- Two servers, of which one is started, handles a call, and is shut down. -/
example : (Runs.exec (step Core.ascii) {} [.newServer, .newServer, .start 1 true, .drain,
      .complete 0 true true, .callbackReturns, .drainEnds, .tryShutdown 1]).map
      (fun s => ((s.requestLoop 0).requests, (s.requestLoop 1).requests)) = some (0, 1) := by decide

end GrpcNode.NativeCore.Addon
