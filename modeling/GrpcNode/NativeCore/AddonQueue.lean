import GrpcNode.Lib.Pending
import GrpcNode.NativeCore.AddonTags

/-!
# GrpcNode.NativeCore.AddonQueue

The accounts of `completion_queue.cc`: `always_accounted` says that `pending_batches` is the number
of tags that have not been completed, and that the prepare handle is active while there are some.

`State.watch` is the addon as a `Pending.Watch`: every tag that the core accepts comes with one
`CompletionQueueNext`.
-/

namespace GrpcNode.NativeCore.Addon

open Pending (Watch)

namespace State

/-- The addon as a handle that watches. -/
def watch (s : State) : Watch where
  pending := s.pendingBatches
  active := s.prepare
  outstanding := s.outstanding.length
  startedTwice := s.trace.any (· = .assertFails)

/-- What `pending_batches` and the prepare handle should be. -/
structure Accounted (s : State) : Prop where
  pendingBatches : s.pendingBatches = s.outstanding.length
  prepare : s.prepare = true ↔ 0 < s.outstanding.length
  asserted : .assertFails ∉ s.trace

variable {s : State}

/-- What holds of the handle is what is wanted of the queue. -/
theorem accounted_of_good (h : s.watch.Good) : s.Accounted where
  pendingBatches := h.pending
  prepare := h.active
  asserted hmem := by
    have honce : s.trace.any (· = .assertFails) = false := h.once
    exact absurd (decide_eq_true rfl) (List.any_eq_false.mp honce _ hmem)

/-! ### The parts of a step -/

/-- Only a failed assertion concerns the handle. -/
theorem watch_record {e : Event} (he : e ≠ .assertFails) : (s.record e).watch = s.watch := by
  have hany : (s.trace ++ [e]).any (· = .assertFails) = s.trace.any (· = .assertFails) := by
    rw [List.any_append, List.any_cons, decide_eq_false he, List.any_nil, Bool.or_false,
      Bool.or_false]
  simp only [watch, record, outstanding, hany]

/-- What is asked of the core is only recorded. -/
@[simp] theorem watch_record_core (call : CoreCall) : (s.record (.core call)).watch = s.watch :=
  watch_record nofun

/-- That a function is called does not concern the handle. -/
@[simp] theorem watch_record_callback (callback : Callback) (err : Option Js.JsError) :
    (s.record (.callback callback err)).watch = s.watch :=
  watch_record nofun

/-- That an event is taken from the queue does not concern the handle, until it has been dealt
with. -/
@[simp] theorem watch_record_delivered (tag : Tag) (success : Bool) :
    (s.record (.delivered tag success)).watch = s.watch :=
  watch_record nofun

/-- That a function is passed does not concern the handle. -/
@[simp] theorem watch_passCallback : s.passCallback.watch = s.watch := rfl

/-- A call is not the handle. -/
@[simp] theorem watch_modifyCall (i : Nat) (f : CallObject → CallObject) :
    (s.modifyCall i f).watch = s.watch := rfl

/-- A channel is not the handle. -/
@[simp] theorem watch_modifyChannel (i : Nat) (f : ChannelObject → ChannelObject) :
    (s.modifyChannel i f).watch = s.watch := rfl

/-- A server is not the handle. -/
@[simp] theorem watch_modifyServer (i : Nat) (f : ServerObject → ServerObject) :
    (s.modifyServer i f).watch = s.watch := rfl

/-- A new call is not the handle. -/
@[simp] theorem watch_newCallObject : s.newCallObject.watch = s.watch := rfl

/-- A tag that the core has accepted is outstanding. -/
@[simp] theorem watch_addTag (tag : Tag) : (s.addTag tag).watch = s.watch.accept := by
  simp only [watch, addTag, outstanding, Watch.accept, List.length_append, List.length_singleton]
  congr 1
  omega

/-- `CompletionQueueNext` counts one, and starts the handle if it is the first. -/
@[simp] theorem watch_completionQueueNext : s.completionQueueNext.watch = s.watch.next := by
  unfold completionQueueNext startPrepare
  by_cases hzero : s.pendingBatches = 0
  · cases hprepare : s.prepare with
    | true => simp [watch, outstanding, record, Watch.next, hzero, hprepare]
    | false => simp [watch, outstanding, Watch.next, hzero, hprepare]
  · simp [watch, outstanding, Watch.next, hzero]

/-- The value of an operation does not concern the handle. -/
theorem watch_getNodeValue (op : Op) : (s.getNodeValue op).watch = s.watch := by
  cases op <;> rfl

/-- No tag comes or goes while calls and servers are released. -/
theorem watch_settles {s' : State} (h : Settles s s') : s'.watch = s.watch := by
  obtain ⟨more, hmore, hsettles⟩ := h.trace
  have hnone : more.any (· = .assertFails) = false := by
    rw [List.any_eq_false]
    intro e hmem he
    obtain rfl := of_decide_eq_true he
    exact hsettles _ hmem
  rw [watch, watch, h.pendingBatches, h.prepare, outstanding, h.tags, h.running, hmore,
    List.any_append, hnone, Bool.or_false]
  rfl

end State

variable {s : State}

/-! ### The steps -/

/-- `Server::RequestCall`: a tag with its `CompletionQueueNext`, or neither -/
theorem watch_requestCall (i : Nat) (callback : Callback) (accepted : Bool) :
    s.watch.Step (s.requestCall i callback accepted).watch := by
  unfold State.requestCall
  cases accepted with
  | true =>
      simp only [if_true, State.watch_completionQueueNext, State.watch_addTag, State.watch_record_core]
      exact .accept
  | false =>
      simp only [Bool.false_eq_true, if_false, State.watch_record_core]
      exact .idle

/-- `Server::ShutdownServer`: a tag with its `CompletionQueueNext` -/
theorem watch_shutdownServer (i : Nat) : s.watch.Step (s.shutdownServer i).watch := by
  unfold State.shutdownServer
  split
  · simp only [State.watch_modifyServer, State.watch_completionQueueNext, State.watch_record_core,
      State.watch_addTag]
    exact .accept
  · exact .idle

/-- `Call::StartBatch`: a tag with its `CompletionQueueNext`, or neither -/
theorem watch_startOps (i : Nat) (ops : List CoreOp) (accepted : Bool) :
    s.watch.Step (s.startOps i ops accepted).watch := by
  unfold State.startOps
  dsimp only
  split
  · simp only [State.watch_completionQueueNext, State.watch_modifyCall, State.watch_addTag,
      State.watch_record_core, State.watch_passCallback]
    exact .accept
  · rw [State.watch_record_core, State.watch_passCallback]
    exact .idle

/-- To cancel a call adds no tag. -/
theorem watch_cancelWith (function : CallFunction) (i : Nat) :
    s.watch.Step (s.cancelWith function i).watch := by
  unfold State.cancelWith
  split
  · rw [State.watch_record_core]
    exact .idle
  · exact .idle

/-- The tag stays outstanding while its callback is running. -/
theorem watch_delivered {i : Nat} {tag : Tag} (hidle : s.running = none)
    (htag : s.tags[i]? = some tag) (success : Bool) :
    ({ s with tags := s.tags.eraseIdx i, running := some (tag, success) } : State).watch =
      s.watch := by
  have hlength := (State.outstanding_delivered hidle htag success).length_eq
  simp only [State.watch, hlength]

/-- When a tag is finished, one is subtracted, and the handle stops after the last. -/
theorem watch_finishTag {tag : Tag} {success : Bool} (h : s.running = some (tag, success)) :
    s.finishTag.watch = s.watch.complete := by
  have hlength : s.finishTag.outstanding.length = s.outstanding.length - 1 := by
    rw [State.outstanding_finishTag, State.outstanding_of_running h, List.length_append]
    rfl
  rw [State.watch, hlength, State.finishTag_eq]
  rfl

/-- The callback may add a tag, with its `CompletionQueueNext`. -/
theorem watch_runCallback (callback : Callback) (success accepted : Bool) :
    s.watch.Step (s.runCallback callback success accepted).watch := by
  unfold State.runCallback
  dsimp only
  split
  · rw [← State.watch_record_callback (s := s)]
    exact watch_requestCall _ _ accepted
  · rw [State.watch_record_callback]
    exact .idle

/-- The tag of an event that is delivered is still outstanding. -/
theorem watch_deliver {i : Nat} {tag : Tag} (hidle : s.running = none)
    (htag : s.tags[i]? = some tag) (success accepted : Bool) :
    s.watch.Step (s.deliver i tag success accepted).watch := by
  rw [← watch_delivered hidle htag success,
    ← State.watch_record_delivered (s := { s with tags := _, running := _ }) tag success]
  unfold State.deliver
  dsimp only
  split
  · have hops := State.foldl_frame State.watch (fun s op => State.watch_getNodeValue (s := s) op) tag.ops
    rw [← hops]
    exact watch_runCallback _ _ _
  · exact watch_runCallback _ _ _

/-- Each step of the addon is one of the handle, or none. -/
theorem watch_step {core : Core} {s' : State} {a : Act} (hs : step core s a = some s') :
    s.watch.Step s'.watch := by
  cases a with
  | newChannel =>
      obtain ⟨-, rfl⟩ := Runs.when_eq_some.mp hs
      exact .idle
  | close i =>
      obtain ⟨-, rfl⟩ := Runs.when_eq_some.mp hs
      unfold State.close
      split
      · rw [State.watch_modifyChannel, State.watch_record_core]
        exact .idle
      · exact .idle
  | getTarget i =>
      obtain ⟨-, rfl⟩ := Runs.when_eq_some.mp hs
      rw [State.getTarget, State.watch_record_core]
      exact .idle
  | getConnectivityState i =>
      obtain ⟨-, rfl⟩ := Runs.when_eq_some.mp hs
      rw [State.getConnectivityState, State.watch_record_core]
      exact .idle
  | watchConnectivityState i =>
      obtain ⟨-, rfl⟩ := Runs.when_eq_some.mp hs
      simp only [State.watchConnectivityState, State.watch_completionQueueNext, State.watch_addTag,
        State.watch_record_core, State.watch_passCallback]
      exact .accept
  | newCall i =>
      obtain ⟨-, rfl⟩ := Runs.when_eq_some.mp hs
      unfold State.newCall
      split
      · rw [State.watch_newCallObject, State.watch_record_core]
        exact .idle
      · exact .idle
  | startBatch i batch accepted =>
      obtain ⟨-, rfl⟩ := Runs.when_eq_some.mp hs
      unfold State.startBatch
      split
      · split
        · exact watch_startOps i _ accepted
        · exact .idle
      · rw [State.watch_record_callback, State.watch_passCallback]
        exact .idle
  | cancel i =>
      obtain ⟨-, rfl⟩ := Runs.when_eq_some.mp hs
      exact watch_cancelWith .cancel i
  | cancelWithStatus i =>
      obtain ⟨-, rfl⟩ := Runs.when_eq_some.mp hs
      exact watch_cancelWith .cancelWithStatus i
  | newServer =>
      obtain ⟨-, rfl⟩ := Runs.when_eq_some.mp hs
      exact .idle
  | bind i =>
      obtain ⟨-, rfl⟩ := Runs.when_eq_some.mp hs
      unfold State.bind
      split
      · exact .idle
      · rw [State.watch_record_core]
        exact .idle
  | start i accepted =>
      obtain ⟨-, rfl⟩ := Runs.when_eq_some.mp hs
      unfold State.start
      split
      · exact .idle
      · have hstep := watch_requestCall (s := (s.modifyServer i fun server =>
          { server with started := true }).record (.core (.server .start (s.wrappedServer i)))) i
          (.handleNewCall i) accepted
        rwa [State.watch_record_core, State.watch_modifyServer] at hstep
  | requestCall i accepted =>
      obtain ⟨-, rfl⟩ := Runs.when_eq_some.mp hs
      exact watch_requestCall (s := s.passCallback) i _ accepted
  | tryShutdown i =>
      obtain ⟨-, rfl⟩ := Runs.when_eq_some.mp hs
      unfold State.tryShutdown
      split
      · simp only [State.watch_completionQueueNext, State.watch_addTag, State.watch_record_core,
          State.watch_passCallback]
        exact .accept
      · rw [State.watch_record_callback, State.watch_passCallback]
        exact .idle
  | forceShutdown i =>
      obtain ⟨-, rfl⟩ := Runs.when_eq_some.mp hs
      exact watch_shutdownServer i
  | collect i =>
      obtain ⟨-, rfl⟩ := Runs.when_eq_some.mp hs
      exact watch_shutdownServer (s := s.modifyServer i _) i
  | drain =>
      obtain ⟨-, rfl⟩ := Runs.when_eq_some.mp hs
      exact .idle
  | complete i success accepted =>
      obtain ⟨tag, htag, hidle, rfl⟩ := complete_of_step hs
      exact watch_deliver hidle htag success accepted
  | callbackReturns =>
      obtain ⟨tag, success, hrunning, rfl⟩ := callbackReturns_of_step hs
      have hsettles := Settles.completeTag s tag success
      rw [watch_finishTag (hsettles.running.trans hrunning), State.watch_settles hsettles]
      refine .complete ?_
      show 0 < s.outstanding.length
      rw [State.outstanding_of_running hrunning, List.length_append]
      exact Nat.succ_pos _
  | drainEnds =>
      obtain ⟨-, rfl⟩ := Runs.when_eq_some.mp hs
      exact .idle

/-- **The accounts of the completion queue.** In every state of every run `pending_batches` is the
number of tags that the core has accepted and the drain loop has not completed, the prepare handle
is active exactly if there are some, and the assertion has not failed. -/
theorem always_accounted (core : Core) (acts : List Act) :
    Runs.Always (step core) State.Accounted {} acts := by
  have hinitial : ({} : State).watch.Good := Watch.Good.initial
  have hstep : ∀ s a s', s.watch.Good → step core s a = some s' → s'.watch.Good :=
    fun _ _ _ h hs => h.step (watch_step hs)
  exact (Runs.always_of_invariant hstep hinitial acts).mono fun _ h => State.accounted_of_good h

end GrpcNode.NativeCore.Addon
