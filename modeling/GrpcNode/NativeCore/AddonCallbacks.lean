import GrpcNode.Lib.Once
import GrpcNode.NativeCore.AddonTags

/-!
# GrpcNode.NativeCore.AddonCallbacks

The functions that JavaScript code passes to the addon: each is called once at most, and once if
its tag is delivered (`once_step`).

`State.once` is the addon as an `Once.State`. A function waits in a tag, or is called at once if
there is nothing to wait for.
-/

namespace GrpcNode.NativeCore.Addon

/-- The number of a function of JavaScript code -/
def Callback.user? : Callback → Option Nat
  | user n => some n
  | handleNewCall _ | serverShutdown => none

/-- The number of the function that waits in a tag -/
def Tag.user? (tag : Tag) : Option Nat := tag.callback.user?

/-- The function that is called, by its number -/
def Event.called? : Event → Option Nat
  | callback function _ => function.user?
  | core _ | delivered _ _ | completed _ | assertFails => none

/-- The function that is to be called, by its number -/
def Event.due? : Event → Option Nat
  | delivered tag _ => tag.user?
  | core _ | callback _ _ | completed _ | assertFails => none

namespace State

/-- The functions that have been called, by their numbers -/
def called (s : State) : List Nat := s.trace.filterMap Event.called?

/-- The addon as callbacks that are called once. -/
def once (s : State) : Once.State where
  next := s.callbacks
  waiting := s.tags.filterMap Tag.user?
  called := s.called
  due := s.trace.filterMap Event.due?

variable {s : State}

/-! ### The parts of a step -/

/-- What is recorded does not concern the functions, if none is called or due. -/
theorem once_record {e : Event} (hcalled : e.called? = none) (hdue : e.due? = none) :
    (s.record e).once = s.once := by
  have hcalls : (s.record e).called = s.called := by
    rw [called, record, List.filterMap_append, List.filterMap_cons_none hcalled,
      List.filterMap_nil, List.append_nil]
    rfl
  have hdues : (s.record e).trace.filterMap Event.due? = s.trace.filterMap Event.due? := by
    rw [record, List.filterMap_append, List.filterMap_cons_none hdue, List.filterMap_nil,
      List.append_nil]
  rw [once, hcalls, hdues]
  rfl

/-- What is asked of the core does not concern the functions. -/
theorem once_record_core (call : CoreCall) : (s.record (.core call)).once = s.once :=
  once_record rfl rfl

/-- A function has been called. -/
theorem once_record_called (n : Nat) (err : Option Js.JsError) :
    (s.record (.callback (.user n) err)).once =
      { s.once with called := s.once.called ++ [n] } := by
  have hcalls : (s.record (.callback (.user n) err)).called = s.called ++ [n] := by
    rw [called, record, List.filterMap_append]
    rfl
  have hdues : (s.record (.callback (.user n) err)).trace.filterMap Event.due? =
      s.trace.filterMap Event.due? := by
    rw [record, List.filterMap_append]
    exact List.append_nil _
  rw [once, hcalls, hdues]
  rfl

/-- A function is due: the event of its tag has been taken from the queue. -/
theorem once_record_due {tag : Tag} {n : Nat} (h : tag.user? = some n) (success : Bool) :
    (s.record (.delivered tag success)).once = { s.once with due := s.once.due ++ [n] } := by
  have hcalls : (s.record (.delivered tag success)).called = s.called := by
    rw [called, record, List.filterMap_append]
    exact List.append_nil _
  have hdue : Event.due? (.delivered tag success) = some n := h
  have hdues : (s.record (.delivered tag success)).trace.filterMap Event.due? =
      s.trace.filterMap Event.due? ++ [n] := by
    rw [record, List.filterMap_append, List.filterMap_cons_some hdue]
    rfl
  rw [once, hcalls, hdues]
  rfl

/-- A call holds no function. -/
theorem once_modifyCall (i : Nat) (f : CallObject → CallObject) :
    (s.modifyCall i f).once = s.once := rfl

/-- A channel holds no function. -/
theorem once_modifyChannel (i : Nat) (f : ChannelObject → ChannelObject) :
    (s.modifyChannel i f).once = s.once := rfl

/-- A server holds no function. -/
theorem once_modifyServer (i : Nat) (f : ServerObject → ServerObject) :
    (s.modifyServer i f).once = s.once := rfl

/-- A new call holds no function. -/
theorem once_newCallObject : s.newCallObject.once = s.once := rfl

/-- The counter of the queue does not concern the functions. -/
theorem once_completionQueueNext : s.completionQueueNext.once = s.once :=
  completionQueueNext_frame once (fun _ => once_record rfl rfl) (fun _ _ _ => rfl) s

/-- A function that is passed gets the next number. -/
theorem once_passCallback : s.passCallback.once = { s.once with next := s.once.next + 1 } := rfl

/-- A function that is in a tag waits. -/
theorem once_addTag_user (n : Nat) (ops : List Op) (call : Option Nat) :
    (s.addTag { callback := .user n, ops, call }).once =
      { s.once with waiting := s.once.waiting ++ [n] } := by
  rw [once, addTag, List.filterMap_append]
  rfl

/-- Nobody waits in a tag of the addon itself. -/
theorem once_addTag_of_none {tag : Tag} (h : tag.user? = none) :
    (s.addTag tag).once = s.once := by
  rw [once, addTag, List.filterMap_append, List.filterMap_cons_none h, List.filterMap_nil,
    List.append_nil]
  rfl

/-- When a tag is finished, its function has been called. -/
theorem once_finishTag : s.finishTag.once = s.once := by
  rw [finishTag_eq]
  rfl

/-- No function is called when something is released. -/
theorem once_settles {s' : State} (h : Settles s s') : s'.once = s.once := by
  obtain ⟨more, hmore, hsettles⟩ := h.trace
  have hnone : ∀ e ∈ more, e.called? = none ∧ e.due? = none := by
    intro e hmem
    obtain ⟨i, rfl⟩ | ⟨i, rfl⟩ | ⟨tag, rfl⟩ := (hsettles e hmem).eq
    all_goals exact ⟨rfl, rfl⟩
  have hcalled : more.filterMap Event.called? = [] :=
    List.filterMap_eq_nil_iff.mpr fun e hmem => (hnone e hmem).1
  have hdue : more.filterMap Event.due? = [] :=
    List.filterMap_eq_nil_iff.mpr fun e hmem => (hnone e hmem).2
  rw [once, h.callbacks, h.tags, called, hmore, List.filterMap_append, List.filterMap_append,
    hcalled, hdue, List.append_nil, List.append_nil]
  rfl

/-- The shutdown that the addon starts on its own calls nobody. -/
theorem once_shutdownServer (i : Nat) : (s.shutdownServer i).once = s.once := by
  unfold shutdownServer
  split
  · rw [once_modifyServer, once_completionQueueNext, once_record_core, once_addTag_of_none rfl,
      once_record_core]
  · rfl

/-- To cancel a call passes no function. -/
theorem once_cancelWith (function : CallFunction) (i : Nat) :
    (s.cancelWith function i).once = s.once := by
  unfold cancelWith
  split
  · exact once_record_core _
  · rfl

/-- The request of `handleNewCall` -/
theorem once_requestCall {callback : Callback} (h : callback.user? = none) (i : Nat)
    (accepted : Bool) : (s.requestCall i callback accepted).once = s.once := by
  unfold requestCall
  dsimp only
  split
  · rw [once_completionQueueNext, once_addTag_of_none (show Tag.user? { callback, ops := [.newCall] } = none from h),
      once_record_core]
  · rw [once_record_core]

/-- A function that is passed to `RequestCall` waits, or is dropped with an exception. -/
theorem once_requestCall_user (i : Nat) (accepted : Bool) :
    Once.Step s.once (s.passCallback.requestCall i (.user s.callbacks) accepted).once := by
  unfold requestCall
  dsimp only
  split
  · rw [once_completionQueueNext, once_addTag_user, once_record_core, once_passCallback]
    exact .wait
  · rw [once_record_core, once_passCallback]
    exact .skip

/-- A function that is passed to `startBatch` waits, is called at once if the call has been
released, or is dropped with an exception. -/
theorem once_startBatch (core : Core) (i : Nat) (batch : Batch) (accepted : Bool) :
    Once.Step s.once (s.startBatch core i batch accepted).once := by
  unfold startBatch startOps
  dsimp only
  split
  · split
    · split
      · rw [once_completionQueueNext, once_modifyCall, once_addTag_user, once_record_core,
          once_passCallback]
        exact .wait
      · rw [once_record_core, once_passCallback]
        exact .skip
    · exact .idle
  · rw [once_record_called, once_passCallback]
    exact .call

/-- A function that is passed to `tryShutdown` waits, or is called at once if the server has been
destroyed. -/
theorem once_tryShutdown (i : Nat) : Once.Step s.once (s.tryShutdown i).once := by
  unfold tryShutdown
  split
  · rw [once_completionQueueNext, once_addTag_user, once_record_core, once_passCallback]
    exact .wait
  · rw [once_record_called, once_passCallback]
    exact .call

/-- Nothing is lost with an element that is left out anyway. -/
theorem filterMap_eraseIdx {α β : Type*} {f : α → Option β} {l : List α} {i : Nat} {a : α}
    (h : l[i]? = some a) (ha : f a = none) : (l.eraseIdx i).filterMap f = l.filterMap f := by
  obtain ⟨hi, rfl⟩ := List.getElem?_eq_some_iff.mp h
  calc (l.eraseIdx i).filterMap f
      = (l.take i).filterMap f ++ (l.drop (i + 1)).filterMap f := by
        rw [List.eraseIdx_eq_take_drop_succ, List.filterMap_append]
    _ = (l.take i ++ l[i] :: l.drop (i + 1)).filterMap f := by
        rw [List.filterMap_append, List.filterMap_cons_none ha]
    _ = l.filterMap f := by rw [← List.drop_eq_getElem_cons hi, List.take_append_drop]

/-- The callbacks of the addon itself are not functions of JavaScript code. -/
theorem once_runCallback_of_none {callback : Callback} (h : callback.user? = none)
    (success accepted : Bool) : (s.runCallback callback success accepted).once = s.once := by
  unfold runCallback
  dsimp only
  split
  · rw [once_requestCall rfl, once_record rfl rfl]
  · exact once_record h rfl

/-- The function is called. -/
theorem once_runCallback_user (n : Nat) (success accepted : Bool) :
    (s.runCallback (.user n) success accepted).once =
      { s.once with called := s.once.called ++ [n] } := by
  unfold runCallback
  dsimp only
  exact once_record_called n _

/-- The function of a tag is called when the tag is delivered. -/
theorem once_deliver {i : Nat} {tag : Tag} (htag : s.tags[i]? = some tag)
    (success accepted : Bool) : Once.Step s.once (s.deliver i tag success accepted).once := by
  have hvalues : ∀ s : State,
      (if success then tag.ops.foldl getNodeValue s else s).once = s.once := by
    intro s
    split
    · exact foldl_frame once (fun _ op => by cases op <;> rfl) tag.ops s
    · rfl
  unfold deliver
  dsimp only
  obtain ⟨callback, ops, call⟩ := tag
  cases callback with
  | user n =>
      have hperm : s.once.waiting.Perm (n :: (s.tags.eraseIdx i).filterMap Tag.user?) := by
        obtain ⟨hi, htag⟩ := List.getElem?_eq_some_iff.mp htag
        have htags := (List.getElem_cons_eraseIdx_perm hi).symm.filterMap Tag.user?
        rw [htag] at htags
        exact htags
      rw [once_runCallback_user, hvalues, once_record_due rfl]
      exact .settle hperm
  | _ =>
      have hwaiting : (s.tags.eraseIdx i).filterMap Tag.user? = s.tags.filterMap Tag.user? :=
        filterMap_eraseIdx htag rfl
      have htaken : ∀ running,
          ({ s with tags := s.tags.eraseIdx i, running } : State).once = s.once := fun _ =>
        congrArg (fun waiting => { s.once with waiting }) hwaiting
      rw [once_runCallback_of_none rfl, hvalues, once_record rfl rfl, htaken]
      exact .idle

end State

variable {s : State}

/-! ### The steps -/

/-- Each step of the addon is one of the functions, or none. -/
theorem once_step {core : Core} {s' : State} {a : Act} (hs : step core s a = some s') :
    Once.Step s.once s'.once := by
  cases a with
  | newChannel =>
      obtain ⟨-, rfl⟩ := Runs.when_eq_some.mp hs
      exact .idle
  | close i =>
      obtain ⟨-, rfl⟩ := Runs.when_eq_some.mp hs
      unfold State.close
      split
      · rw [State.once_modifyChannel, State.once_record_core]
        exact .idle
      · exact .idle
  | getTarget i =>
      obtain ⟨-, rfl⟩ := Runs.when_eq_some.mp hs
      rw [State.getTarget, State.once_record_core]
      exact .idle
  | getConnectivityState i =>
      obtain ⟨-, rfl⟩ := Runs.when_eq_some.mp hs
      rw [State.getConnectivityState, State.once_record_core]
      exact .idle
  | watchConnectivityState i =>
      obtain ⟨-, rfl⟩ := Runs.when_eq_some.mp hs
      rw [State.watchConnectivityState, State.once_completionQueueNext, State.once_addTag_user,
        State.once_record_core, State.once_passCallback]
      exact .wait
  | newCall i =>
      obtain ⟨-, rfl⟩ := Runs.when_eq_some.mp hs
      unfold State.newCall
      split
      · rw [State.once_newCallObject, State.once_record_core]
        exact .idle
      · exact .idle
  | startBatch i batch accepted =>
      obtain ⟨-, rfl⟩ := Runs.when_eq_some.mp hs
      exact State.once_startBatch core i batch accepted
  | cancel i =>
      obtain ⟨-, rfl⟩ := Runs.when_eq_some.mp hs
      rw [State.once_cancelWith]
      exact .idle
  | cancelWithStatus i =>
      obtain ⟨-, rfl⟩ := Runs.when_eq_some.mp hs
      rw [State.once_cancelWith]
      exact .idle
  | newServer =>
      obtain ⟨-, rfl⟩ := Runs.when_eq_some.mp hs
      exact .idle
  | bind i =>
      obtain ⟨-, rfl⟩ := Runs.when_eq_some.mp hs
      unfold State.bind
      split
      · exact .idle
      · rw [State.once_record_core]
        exact .idle
  | start i accepted =>
      obtain ⟨-, rfl⟩ := Runs.when_eq_some.mp hs
      unfold State.start
      split
      · exact .idle
      · rw [State.once_requestCall rfl, State.once_record_core, State.once_modifyServer]
        exact .idle
  | requestCall i accepted =>
      obtain ⟨-, rfl⟩ := Runs.when_eq_some.mp hs
      exact State.once_requestCall_user i accepted
  | tryShutdown i =>
      obtain ⟨-, rfl⟩ := Runs.when_eq_some.mp hs
      exact State.once_tryShutdown i
  | forceShutdown i =>
      obtain ⟨-, rfl⟩ := Runs.when_eq_some.mp hs
      rw [State.once_shutdownServer]
      exact .idle
  | collect i =>
      obtain ⟨-, rfl⟩ := Runs.when_eq_some.mp hs
      rw [State.collect, State.once_shutdownServer, State.once_modifyServer]
      exact .idle
  | drain =>
      obtain ⟨-, rfl⟩ := Runs.when_eq_some.mp hs
      exact .idle
  | complete i success accepted =>
      obtain ⟨tag, htag, -, rfl⟩ := complete_of_step hs
      exact State.once_deliver htag success accepted
  | callbackReturns =>
      obtain ⟨tag, success, hrunning, rfl⟩ := callbackReturns_of_step hs
      rw [State.once_finishTag, State.once_settles (.completeTag s tag success)]
      exact .idle
  | drainEnds =>
      obtain ⟨-, rfl⟩ := Runs.when_eq_some.mp hs
      exact .idle

end GrpcNode.NativeCore.Addon
