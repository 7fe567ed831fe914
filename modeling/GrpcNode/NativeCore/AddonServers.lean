import GrpcNode.Lib.Teardown
import GrpcNode.NativeCore.AddonCallbacks
import GrpcNode.NativeCore.AddonHandles

/-!
# GrpcNode.NativeCore.AddonServers

The end of a `grpc_server`: `always_tornDown` says that it is destroyed once at most, after it has
been shut down, and not used afterwards, and that the callbacks of `tryShutdown` are called once.

`State.teardown` is a server as a `Teardown.State`. The wrapper is the owner; `ForceShutdown` and
the destructor hand the server over to a `ServerShutdownOp`. The callback of a `TryShutdownOp` runs
before its `OnComplete`, so the wrapper may have nothing left to destroy then.
-/

namespace GrpcNode.NativeCore.Addon

/-- The tag tells that the server has been shut down. -/
def Tag.notifies (i : Nat) (tag : Tag) : Bool :=
  tag.ops.any fun op => op = .tryShutdown i || op = .serverShutdown i

/-- The operation of the tag has the pointer to the server. -/
def Tag.hands (i : Nat) (tag : Tag) : Bool := tag.ops.any (· = .serverShutdown i)

/-- What an event is for the server. -/
def Event.teardown (i : Nat) : Event → Option Teardown.Event
  | core (.server function (some j)) =>
      if j = i then if function = .destroy then some .destroyed else some .used else none
  | delivered tag _ => if tag.notifies i then some .announced else none
  | _ => none

namespace State

/-- The end of a server, as it should be. -/
structure TornDown (s : State) (i : Nat) : Prop where
  once : s.trace.count (.core (.server .destroy (some i))) ≤ 1
  notified : ∀ before after, s.trace = before ++ .core (.server .destroy (some i)) :: after →
    ∃ tag success, .delivered tag success ∈ before ∧ tag.notifies i = true
  unused : ∀ before after, s.trace = before ++ .core (.server .destroy (some i)) :: after →
    ∀ function, .core (.server function (some i)) ∉ after

/-- A function of JavaScript code is called once at most, and once if its tag has been delivered. -/
structure CalledOnce (s : State) (n : Nat) : Prop where
  atMost : s.called.count n ≤ 1
  delivered : ∀ tag success, .delivered tag success ∈ s.trace → tag.callback = .user n →
    s.called.count n = 1

/-- A server as a resource that is destroyed through one of two hands. -/
def teardown (s : State) (i : Nat) : Teardown.State where
  held := (s.server i).wrapped
  handed := s.outstanding.countP (Tag.hands i)
  history := s.trace.filterMap (Event.teardown i)

variable {s : State} {i : Nat}

/-- `grpc_server_destroy` of the server -/
theorem teardown_destroy : Event.teardown i (.core (.server .destroy (some i))) = some .destroyed := by
  rw [Event.teardown, if_pos rfl, if_pos rfl]

/-- Any other call of the core for the server -/
theorem teardown_used {function : ServerFunction} (h : function ≠ .destroy) :
    Event.teardown i (.core (.server function (some i))) = some .used := by
  rw [Event.teardown, if_pos rfl, if_neg h]

/-- A call of the core for another server -/
theorem teardown_server_of_ne (function : ServerFunction) {j : Nat} (h : j ≠ i) :
    Event.teardown i (.core (.server function (some j))) = none := by
  rw [Event.teardown, if_neg h]

/-- The event that announces the shutdown of the server -/
theorem teardown_announced {tag : Tag} (h : tag.notifies i = true) (success : Bool) :
    Event.teardown i (.delivered tag success) = some .announced := if_pos h

/-- Another event -/
theorem teardown_not_announced {tag : Tag} (h : ¬ tag.notifies i = true) (success : Bool) :
    Event.teardown i (.delivered tag success) = none := if_neg h

/-- A batch has no pointer to a server. -/
theorem hands_batch (callback : Callback) (ops : List CoreOp) (call : Option Nat) :
    Tag.hands i { callback, ops := ops.map .batch, call } = false := by
  simp [Tag.hands]

/-- The shutdown is announced by the event of a tag that says so. -/
theorem eq_of_teardown_announced {e : Event} (h : e.teardown i = some .announced) :
    ∃ tag success, e = .delivered tag success ∧ tag.notifies i = true := by
  unfold Event.teardown at h
  split at h
  · split at h
    · split at h <;> exact absurd h nofun
    · exact absurd h nofun
  · rename_i tag success
    split at h
    · rename_i hnotifies
      exact ⟨tag, success, rfl, hnotifies⟩
    · exact absurd h nofun
  · exact absurd h nofun

/-- What holds of the teardown is what is wanted of the server. -/
theorem tornDown_of_good (h : Teardown.Good (s.teardown i)) : s.TornDown i := by
  obtain ⟨-, honce, hannounced, hunused⟩ := h
  have hsplit : ∀ {before after}, s.trace = before ++ .core (.server .destroy (some i)) :: after →
      (s.teardown i).history = before.filterMap (Event.teardown i) ++
        .destroyed :: after.filterMap (Event.teardown i) := by
    intro before after htrace
    rw [teardown, htrace, List.filterMap_append, List.filterMap_cons_some teardown_destroy]
  refine ⟨?_, fun before after htrace => ?_, fun before after htrace function hmem => ?_⟩
  · refine Nat.le_trans ?_ honce
    rw [teardown, List.count_filterMap, List.count_eq_countP]
    refine List.countP_mono_left fun e _ he => ?_
    rw [eq_of_beq he, teardown_destroy]
    rfl
  · obtain ⟨e, hmem, he⟩ := List.mem_filterMap.mp (hannounced _ _ (hsplit htrace))
    obtain ⟨tag, success, rfl, hnotifies⟩ := eq_of_teardown_announced he
    exact ⟨tag, success, hmem, hnotifies⟩
  · by_cases hfunction : function = .destroy
    · -- It would have been destroyed twice.
      subst hfunction
      have hagain : .destroyed ∈ after.filterMap (Event.teardown i) :=
        List.mem_filterMap.mpr ⟨_, hmem, teardown_destroy⟩
      rw [hsplit htrace, List.count_append, List.count_cons_self] at honce
      have hpos := List.count_pos_iff.mpr hagain
      omega
    · exact hunused _ _ (hsplit htrace)
        (List.mem_filterMap.mpr ⟨_, hmem, teardown_used hfunction⟩)

/-! ### The parts of a step -/

/-- What is recorded of the server is an event of its teardown. -/
theorem teardown_record_of_some {e : Event} {e' : Teardown.Event} (h : e.teardown i = some e') :
    (s.record e).teardown i = (s.teardown i).record e' := by
  rw [teardown, record, List.filterMap_append, List.filterMap_cons_some h]
  rfl

/-- What is recorded of something else is none. -/
theorem teardown_record_of_none {e : Event} (h : e.teardown i = none) :
    (s.record e).teardown i = s.teardown i := by
  rw [teardown, record, List.filterMap_append, List.filterMap_cons_none h, List.filterMap_nil,
    List.append_nil]
  rfl

/-- What is asked of a call does not concern the server. -/
theorem teardown_record_call (function : CallFunction) (j : Nat) :
    (s.record (.core (.call function j))).teardown i = s.teardown i := teardown_record_of_none rfl

/-- What is asked of a channel does not concern the server. -/
theorem teardown_record_channel (function : ChannelFunction) (channel : Option Nat) :
    (s.record (.core (.channel function channel))).teardown i = s.teardown i :=
  teardown_record_of_none rfl

/-- That a function is called does not concern the server. -/
theorem teardown_record_callback (callback : Callback) (err : Option Js.JsError) :
    (s.record (.callback callback err)).teardown i = s.teardown i := teardown_record_of_none rfl

/-- That a tag has been dealt with does not concern the server. -/
theorem teardown_record_completed (tag : Tag) :
    (s.record (.completed tag)).teardown i = s.teardown i := teardown_record_of_none rfl

/-- That a function is passed does not concern the server. -/
theorem teardown_passCallback : s.passCallback.teardown i = s.teardown i := rfl

/-- A call is not the server. -/
theorem teardown_modifyCall (j : Nat) (f : CallObject → CallObject) :
    (s.modifyCall j f).teardown i = s.teardown i := rfl

/-- A channel is not the server. -/
theorem teardown_modifyChannel (j : Nat) (f : ChannelObject → ChannelObject) :
    (s.modifyChannel j f).teardown i = s.teardown i := rfl

/-- A new call is not the server. -/
theorem teardown_newCallObject : s.newCallObject.teardown i = s.teardown i := rfl

/-- The counter of the queue does not concern the server. -/
theorem teardown_completionQueueNext : s.completionQueueNext.teardown i = s.teardown i :=
  completionQueueNext_frame (·.teardown i) (fun _ => teardown_record_of_none rfl)
    (fun _ _ _ => rfl) s

/-- A tag that does not hand the server to the core -/
theorem teardown_addTag {tag : Tag} (h : tag.hands i = false) :
    (s.addTag tag).teardown i = s.teardown i := by
  have hcount : (s.addTag tag).outstanding.countP (Tag.hands i) =
      s.outstanding.countP (Tag.hands i) := by
    simp only [outstanding, addTag, List.countP_append, List.countP_singleton, h]
    rfl
  rw [teardown, hcount]
  rfl

/-- A wrapper is changed, and keeps its handle. -/
theorem teardown_modifyServer {j : Nat} (hj : j < s.servers.length)
    {f : ServerObject → ServerObject} (hf : ∀ server, (f server).wrapped = server.wrapped) :
    (s.modifyServer j f).teardown i = s.teardown i := by
  have hheld : ((s.modifyServer j f).server i).wrapped = (s.server i).wrapped := by
    rw [server_modifyServer f hj]
    split
    · exact hf _
    · rfl
  rw [teardown, hheld]
  rfl

/-- A function is called with the handle of a wrapper. -/
theorem teardown_use {function : ServerFunction} (h : function ≠ .destroy) (j : Nat) :
    Relation.ReflTransGen Teardown.Step (s.teardown i)
      ((s.record (.core (.server function (s.wrappedServer j)))).teardown i) := by
  unfold wrappedServer
  split
  · rename_i hwrapped
    by_cases hij : j = i
    · subst hij
      rw [teardown_record_of_some (teardown_used h)]
      exact .single (.use hwrapped)
    · rw [teardown_record_of_none (teardown_server_of_ne function hij)]
  · rw [teardown_record_of_none rfl]

/-- `Server::RequestCall` uses the server, if it is this one and it is there. -/
theorem teardown_requestCall (j : Nat) (callback : Callback) (accepted : Bool) :
    Relation.ReflTransGen Teardown.Step (s.teardown i)
      ((s.requestCall j callback accepted).teardown i) := by
  unfold requestCall
  dsimp only
  split
  · rw [teardown_completionQueueNext, teardown_addTag rfl]
    exact teardown_use (by decide) j
  · exact teardown_use (by decide) j

/-- `Server::TryShutdown` uses the server, and a tag will announce the shutdown. -/
theorem teardown_tryShutdown (j : Nat) :
    Relation.ReflTransGen Teardown.Step (s.teardown i) ((s.tryShutdown j).teardown i) := by
  unfold tryShutdown
  split
  · rename_i handle hhandle
    rw [teardown_completionQueueNext, teardown_addTag rfl, ← hhandle]
    exact teardown_use (s := s.passCallback) (by decide) j
  · rw [teardown_record_callback]
    exact .refl

/-- The wrapper has given its server away. -/
theorem teardown_modifyServer_self (hi : i < s.servers.length) {f : ServerObject → ServerObject}
    (hf : ∀ server, (f server).wrapped = false) :
    (s.modifyServer i f).teardown i = { s.teardown i with held := false } := by
  rw [teardown, server_modifyServer f hi, if_pos rfl, hf]
  rfl

/-- Another server is not this one. -/
theorem teardown_modifyServer_of_ne {j : Nat} (hj : j < s.servers.length) (h : j ≠ i)
    (f : ServerObject → ServerObject) : (s.modifyServer j f).teardown i = s.teardown i := by
  rw [teardown, server_modifyServer f hj, if_neg h]
  rfl

/-- A tag that hands the server to the core, with the operation that destroys it -/
theorem teardown_addTag_self {tag : Tag} (h : tag.hands i = true) :
    (s.addTag tag).teardown i = { s.teardown i with handed := (s.teardown i).handed + 1 } := by
  have hcount : (s.addTag tag).outstanding.countP (Tag.hands i) =
      s.outstanding.countP (Tag.hands i) + 1 := by
    simp only [outstanding, addTag, List.countP_append, List.countP_singleton, h, if_true]
    omega
  rw [teardown, hcount]
  rfl

/-- The server is used twice, and handed over. -/
theorem teardown_shutdownServer {j : Nat} (hj : j < s.servers.length) :
    Relation.ReflTransGen Teardown.Step (s.teardown i) ((s.shutdownServer j).teardown i) := by
  have hnext : ∀ s' : State, s'.completionQueueNext.servers = s'.servers := fun s' => by
    rw [completionQueueNext_eq]
  unfold shutdownServer
  split
  · rename_i handle hhandle
    obtain ⟨hwrapped, rfl⟩ := wrappedServer_eq_some_iff.mp hhandle
    by_cases hij : j = i
    · subst hij
      rw [teardown_modifyServer_self, teardown_completionQueueNext,
        teardown_record_of_some (teardown_used (by decide)), teardown_addTag_self,
        teardown_record_of_some (teardown_used (by decide))]
      · refine ((Relation.ReflTransGen.single (.use ?_)).tail (.use ?_)).tail (.handOver ?_)
        all_goals exact hwrapped
      · simp [Tag.hands]
      · rw [hnext]
        exact hj
      · exact fun _ => rfl
    · rw [teardown_modifyServer_of_ne _ hij, teardown_completionQueueNext,
        teardown_record_of_none (teardown_server_of_ne _ hij), teardown_addTag,
        teardown_record_of_none (teardown_server_of_ne _ hij)]
      · simpa [Tag.hands] using hij
      · rw [hnext]
        exact hj
  · exact .refl

/-- A call that is released is not the server. -/
theorem teardown_destroyCall (j : Nat) : (s.destroyCall j).teardown i = s.teardown i := by
  unfold destroyCall
  split
  · rw [teardown_modifyCall, teardown_record_call]
  · rfl

/-- A batch of a call does not concern the server. -/
theorem teardown_completeBatch (j : Nat) (isFinalOp : Bool) :
    (s.completeBatch j isFinalOp).teardown i = s.teardown i := by
  unfold completeBatch
  dsimp only
  split
  · rw [teardown_destroyCall, teardown_modifyCall]
  · rw [teardown_modifyCall]

/-- The wrapper destroys its server, if it has it still. -/
theorem teardown_destroyWrappedServer {j : Nat} (hj : j < s.servers.length)
    (hannounced : j = i → .announced ∈ (s.teardown i).history) :
    Relation.ReflTransGen Teardown.Step (s.teardown i) ((s.destroyWrappedServer j).teardown i) := by
  unfold destroyWrappedServer
  split
  · rename_i handle hhandle
    obtain ⟨hwrapped, rfl⟩ := wrappedServer_eq_some_iff.mp hhandle
    by_cases hij : j = i
    · subst hij
      rw [teardown_modifyServer_self, teardown_record_of_some teardown_destroy]
      · exact .single (.destroy hwrapped (hannounced rfl))
      · exact hj
      · exact fun _ => rfl
    · rw [teardown_modifyServer_of_ne _ hij, teardown_record_of_none (teardown_server_of_ne _ hij)]
      exact hj
  · exact .refl

/-- A tag is not outstanding anymore. -/
theorem teardown_finishTag {tag : Tag} {success : Bool} (hrunning : s.running = some (tag, success)) :
    s.finishTag.teardown i = { s.teardown i with
      handed := (s.teardown i).handed - if tag.hands i then 1 else 0 } := by
  have hcount : s.finishTag.outstanding.countP (Tag.hands i) =
      s.outstanding.countP (Tag.hands i) - if tag.hands i then 1 else 0 := by
    rw [outstanding_finishTag, outstanding_of_running hrunning, List.countP_append,
      List.countP_singleton]
    omega
  rw [teardown, hcount, finishTag_eq]
  rfl

/-- A notification has been announced before its callback runs. -/
theorem announced_of_running (h : s.Formed) {tag : Tag} {success : Bool}
    (hrunning : s.running = some (tag, success)) (hnotifies : tag.notifies i = true) :
    .announced ∈ (s.teardown i).history :=
  List.mem_filterMap.mpr ⟨_, h.running tag success hrunning, teardown_announced hnotifies success⟩

/-- The operations of a batch do nothing when they complete. -/
theorem onComplete_batch (success : Bool) (ops : List CoreOp) (s : State) :
    (ops.map .batch).foldl (fun s op => s.onComplete success op) s = s := by
  induction ops with
  | nil => rfl
  | cons op ops ih => exact ih

end State

variable {s : State} {i : Nat}

/-! ### The steps -/

/-- The second half of an iteration destroys the server, if the tag says so and it is still
there. -/
theorem teardown_callbackReturns (h : s.Formed) {tag : Tag} {success : Bool}
    (hrunning : s.running = some (tag, success)) :
    Relation.ReflTransGen Teardown.Step (s.teardown i)
      ((s.completeTag tag success).finishTag.teardown i) := by
  have hmem : tag ∈ s.outstanding := by
    rw [State.outstanding_of_running hrunning]
    exact List.mem_append_right _ (List.mem_singleton_self _)
  rw [State.teardown_finishTag ((Settles.completeTag s tag success).running.trans hrunning)]
  -- A tag without the pointer leaves what `CompleteTag` has left.
  have hkeeps : tag.hands i = false → ∀ t : Teardown.State,
      { t with handed := t.handed - if tag.hands i then 1 else 0 } = t := fun hnot t => by
    rw [hnot]
    rfl
  cases h.tags tag hmem with
  | watch n =>
      rw [hkeeps rfl, State.completeTag, State.teardown_record_completed]
      exact .refl
  | batch n ops hj =>
      rw [hkeeps (State.hands_batch _ _ _), State.completeTag, State.teardown_record_completed]
      dsimp only
      rw [State.teardown_completeBatch, State.onComplete_batch]
  | newCall callback =>
      rw [hkeeps rfl, State.completeTag, State.teardown_record_completed]
      exact .refl
  | @tryShutdown n j hj =>
      rw [hkeeps (by simp [Tag.hands]), State.completeTag, State.teardown_record_completed]
      cases success with
      | false => exact .refl
      | true =>
          refine State.teardown_destroyWrappedServer hj fun hij => ?_
          refine State.announced_of_running h hrunning ?_
          simp [Tag.notifies, hij]
  | serverShutdown j =>
      rw [State.completeTag, State.teardown_record_completed]
      by_cases hij : j = i
      · subst hij
        have hhands : Tag.hands j
            { callback := .serverShutdown, ops := [.serverShutdown j] } = true := by
          simp [Tag.hands]
        have hpos : 0 < (s.teardown j).handed := List.countP_pos_iff.mpr ⟨_, hmem, hhands⟩
        have hannounced := State.announced_of_running h hrunning (i := j) (by simp [Tag.notifies])
        rw [hhands]
        refine .single ?_
        show Teardown.Step _ { (s.record (.core (.server .destroy (some j)))).teardown j with
          handed := ((s.record (.core (.server .destroy (some j)))).teardown j).handed - 1 }
        rw [State.teardown_record_of_some State.teardown_destroy]
        exact .destroyHanded hpos hannounced
      · rw [hkeeps (by simpa [Tag.hands] using hij)]
        show Relation.ReflTransGen _ _
          ((s.record (.core (.server .destroy (some j)))).teardown i)
        rw [State.teardown_record_of_none (State.teardown_server_of_ne _ hij)]

/-- `handleNewCall` may use the server for the next request. -/
theorem teardown_runCallback (callback : Callback) (success accepted : Bool) :
    Relation.ReflTransGen Teardown.Step (s.teardown i)
      ((s.runCallback callback success accepted).teardown i) := by
  unfold State.runCallback
  dsimp only
  split
  · rw [← State.teardown_record_callback (s := s)]
    exact State.teardown_requestCall _ _ accepted
  · rw [State.teardown_record_callback]

/-- A notification is announced, and nothing else. -/
theorem teardown_deliver (hidle : s.running = none) {j : Nat} {tag : Tag}
    (htag : s.tags[j]? = some tag) (success accepted : Bool) :
    Relation.ReflTransGen Teardown.Step (s.teardown i)
      ((s.deliver j tag success accepted).teardown i) := by
  have htaken : ({ s with tags := s.tags.eraseIdx j, running := some (tag, success) } :
      State).teardown i = s.teardown i := by
    have hcount := (State.outstanding_delivered hidle htag success).countP_eq (Tag.hands i)
    rw [State.teardown, hcount]
    rfl
  have hrecord : Relation.ReflTransGen Teardown.Step (s.teardown i)
      ((State.record { s with tags := s.tags.eraseIdx j, running := some (tag, success) }
        (.delivered tag success)).teardown i) := by
    by_cases hnotifies : tag.notifies i = true
    · rw [State.teardown_record_of_some (State.teardown_announced hnotifies success), htaken]
      exact .single .announce
    · rw [State.teardown_record_of_none (State.teardown_not_announced hnotifies success), htaken]
  refine hrecord.trans ?_
  unfold State.deliver
  dsimp only
  split
  · have hvalues := State.foldl_frame (·.teardown i) (fun s op =>
      show (s.getNodeValue op).teardown i = s.teardown i by cases op <;> rfl) tag.ops
      (State.record { s with tags := s.tags.eraseIdx j, running := some (tag, success) }
        (.delivered tag success))
    rw [← show _ = _ from hvalues]
    exact teardown_runCallback _ _ _
  · exact teardown_runCallback _ _ _

/-- A batch of a call does not concern the server. -/
theorem teardown_startBatch (core : Core) (j : Nat) (batch : Batch) (accepted : Bool) :
    (s.startBatch core j batch accepted).teardown i = s.teardown i := by
  unfold State.startBatch State.startOps
  dsimp only
  split
  · split
    · split
      · rw [State.teardown_completionQueueNext, State.teardown_modifyCall,
          State.teardown_addTag (State.hands_batch _ _ _), State.teardown_record_call, State.teardown_passCallback]
      · rw [State.teardown_record_call, State.teardown_passCallback]
    · rfl
  · rw [State.teardown_record_callback, State.teardown_passCallback]

/-- To cancel a call does not concern the server. -/
theorem teardown_cancelWith (function : CallFunction) (j : Nat) :
    (s.cancelWith function j).teardown i = s.teardown i := by
  unfold State.cancelWith
  split
  · exact State.teardown_record_call function j
  · rfl

/-- Each step of the addon is a few steps of the teardown. -/
theorem teardown_step {core : Core} {s' : State} {a : Act} (h : s.Formed)
    (hs : step core s a = some s') :
    Relation.ReflTransGen Teardown.Step (s.teardown i) (s'.teardown i) := by
  -- Calls and channels do not concern a server.
  have hidle : s'.teardown i = s.teardown i →
      Relation.ReflTransGen Teardown.Step (s.teardown i) (s'.teardown i) := fun heq => heq ▸ .refl
  cases a with
  | newChannel =>
      obtain ⟨-, rfl⟩ := Runs.when_eq_some.mp hs
      exact .refl
  | close j =>
      obtain ⟨-, rfl⟩ := Runs.when_eq_some.mp hs
      refine hidle ?_
      unfold State.close
      split
      · rw [State.teardown_modifyChannel, State.teardown_record_channel]
      · rfl
  | getTarget j =>
      obtain ⟨-, rfl⟩ := Runs.when_eq_some.mp hs
      exact hidle (State.teardown_record_channel _ _)
  | getConnectivityState j =>
      obtain ⟨-, rfl⟩ := Runs.when_eq_some.mp hs
      exact hidle (State.teardown_record_channel _ _)
  | watchConnectivityState j =>
      obtain ⟨-, rfl⟩ := Runs.when_eq_some.mp hs
      refine hidle ?_
      rw [State.watchConnectivityState, State.teardown_completionQueueNext,
        State.teardown_addTag rfl, State.teardown_record_channel, State.teardown_passCallback]
  | newCall j =>
      obtain ⟨-, rfl⟩ := Runs.when_eq_some.mp hs
      refine hidle ?_
      unfold State.newCall
      split
      · rw [State.teardown_newCallObject, State.teardown_record_channel]
      · rfl
  | startBatch j batch accepted =>
      obtain ⟨-, rfl⟩ := Runs.when_eq_some.mp hs
      exact hidle (teardown_startBatch core j batch accepted)
  | cancel j =>
      obtain ⟨-, rfl⟩ := Runs.when_eq_some.mp hs
      exact hidle (teardown_cancelWith _ j)
  | cancelWithStatus j =>
      obtain ⟨-, rfl⟩ := Runs.when_eq_some.mp hs
      exact hidle (teardown_cancelWith _ j)
  | newServer =>
      obtain ⟨-, rfl⟩ := Runs.when_eq_some.mp hs
      refine hidle ?_
      have hserver : ({ s with servers := s.servers ++ [{}] } : State).server i = s.server i :=
        getD_append_default s.servers {} i
      rw [State.teardown, hserver]
      rfl
  | bind j =>
      obtain ⟨-, rfl⟩ := Runs.when_eq_some.mp hs
      unfold State.bind
      split
      · exact .refl
      · exact State.teardown_use (by decide) j
  | start j accepted =>
      obtain ⟨⟨-, hj, -⟩, rfl⟩ := Runs.when_eq_some.mp hs
      unfold State.start
      split
      · exact .refl
      · have hstarted := State.teardown_modifyServer (i := i) hj
          (f := fun server => { server with started := true }) fun _ => rfl
        rw [← hstarted, ← State.wrappedServer_started hj]
        exact (State.teardown_use (by decide) j).trans (State.teardown_requestCall j _ accepted)
  | requestCall j accepted =>
      obtain ⟨-, rfl⟩ := Runs.when_eq_some.mp hs
      exact State.teardown_requestCall (s := s.passCallback) j _ accepted
  | tryShutdown j =>
      obtain ⟨-, rfl⟩ := Runs.when_eq_some.mp hs
      exact State.teardown_tryShutdown j
  | forceShutdown j =>
      obtain ⟨⟨-, hj, -⟩, rfl⟩ := Runs.when_eq_some.mp hs
      exact State.teardown_shutdownServer hj
  | collect j =>
      obtain ⟨⟨-, hj, -⟩, rfl⟩ := Runs.when_eq_some.mp hs
      have hcollected := State.teardown_modifyServer (i := i) hj
        (f := fun server => { server with collected := true }) fun _ => rfl
      rw [← hcollected]
      refine State.teardown_shutdownServer ?_
      rw [State.modifyServer, List.length_modify]
      exact hj
  | drain =>
      obtain ⟨-, rfl⟩ := Runs.when_eq_some.mp hs
      exact .refl
  | complete j success accepted =>
      obtain ⟨tag, htag, hnone, rfl⟩ := complete_of_step hs
      exact teardown_deliver hnone htag success accepted
  | callbackReturns =>
      obtain ⟨tag, success, hrunning, rfl⟩ := callbackReturns_of_step hs
      exact teardown_callbackReturns h hrunning
  | drainEnds =>
      obtain ⟨-, rfl⟩ := Runs.when_eq_some.mp hs
      exact .refl

/-- What holds of the functions that are called once is what is wanted of each of them. -/
theorem State.calledOnce_of_good (h : Once.Good s.once) (n : Nat) : s.CalledOnce n where
  atMost := h.count_called n
  delivered tag success hmem htag := by
    refine h.count_due (List.mem_filterMap.mpr ⟨_, hmem, ?_⟩)
    show tag.callback.user? = some n
    rw [htag]
    rfl

/-- **The end of a server.** In every state of every run, each server has been destroyed once at
most, after a notification that it has been shut down, and is not used afterwards. Each function
that has been passed, to `tryShutdown` or elsewhere, has been called once at most, and once if its
tag has been delivered. -/
theorem always_tornDown (core : Core) (acts : List Act) :
    Runs.Always (step core) (fun s => (∀ i, s.TornDown i) ∧ ∀ n, s.CalledOnce n) {} acts := by
  have hinitial : ({} : State).Formed ∧ (∀ i, Teardown.Good (({} : State).teardown i)) ∧
      Once.Good ({} : State).once :=
    ⟨.initial, fun _ => Teardown.Good.initial, Once.Good.initial⟩
  have hstep : ∀ s a s',
      (s.Formed ∧ (∀ i, Teardown.Good (s.teardown i)) ∧ Once.Good s.once) →
      step core s a = some s' →
      s'.Formed ∧ (∀ i, Teardown.Good (s'.teardown i)) ∧ Once.Good s'.once := by
    intro s a s' ⟨hformed, hteardown, honce⟩ hs
    exact ⟨formed_step hformed hs, fun i => (hteardown i).steps (teardown_step hformed hs),
      honce.step (once_step hs)⟩
  exact (Runs.always_of_invariant hstep hinitial acts).mono fun _ h =>
    ⟨fun i => State.tornDown_of_good (h.2.1 i), State.calledOnce_of_good h.2.2⟩

/-- `forceShutdown` while `tryShutdown` waits: the wrapper has nothing left to destroy. -/
example : (Runs.exec (step Core.ascii) {} [.newServer, .tryShutdown 0, .forceShutdown 0, .drain,
      .complete 0 true true, .callbackReturns, .complete 0 true true, .callbackReturns]).map
      (fun s => s.trace.filter (· = .core (.server .destroy (some 0)))) =
    some [.core (.server .destroy (some 0))] := by decide

end GrpcNode.NativeCore.Addon
