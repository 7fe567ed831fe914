import GrpcNode.NativeCore.AddonTags

/-!
# GrpcNode.NativeCore.AddonHandles

Calls of the core with `NULL`. A channel that has been closed and a server that has been shut down
have none but `NULL` to give; `nullFree_iff` says which steps do not look, and that no others hand
it to the core. `register` and `addService` of a server are about its handlers only.
-/

namespace GrpcNode.NativeCore.Addon

/-- A function of the core is called with `NULL` for a server or a channel. -/
def Event.onNull : Event → Bool
  | core (.server _ none) | core (.channel _ none) => true
  | _ => false

/-- The step would call the core with a handle that is `NULL`. -/
def UsesNull (s : State) : Act → Prop
  | .getTarget i | .getConnectivityState i | .watchConnectivityState i => s.wrappedChannel i = none
  | .bind i | .start i _ => (s.server i).started = false ∧ s.wrappedServer i = none
  | .requestCall i _ => s.wrappedServer i = none
  | .complete i success _ =>
      success = true ∧ ∃ tag server, s.tags[i]? = some tag ∧
        tag.callback = .handleNewCall server ∧ s.wrappedServer server = none
  | _ => False

namespace State

/-- `NULL` has been handed to the core. -/
def nullUsed (s : State) : Bool := s.trace.any Event.onNull

variable {s : State}

/-- No handle has been null exactly if the trace has no such call. -/
theorem nullUsed_eq_false_iff : s.nullUsed = false ↔ ∀ e ∈ s.trace, e.onNull = false := by
  simp [nullUsed]

/-- A call for a server is made with its handle, or with null. -/
@[simp] theorem onNull_server (function : ServerFunction) (handle : Option Nat) :
    Event.onNull (.core (.server function handle)) = handle.isNone := by
  cases handle <;> rfl

/-- A call for a channel is made with its handle, or with null. -/
@[simp] theorem onNull_channel (function : ChannelFunction) (handle : Option Nat) :
    Event.onNull (.core (.channel function handle)) = handle.isNone := by
  cases handle <;> rfl

/-! ### The parts of a step -/

/-- What is recorded counts, if it is a call with a null handle. -/
theorem nullUsed_record (e : Event) : (s.record e).nullUsed = (s.nullUsed || e.onNull) := by
  simp only [nullUsed, record, List.any_append, List.any_cons, List.any_nil, Bool.or_false]

/-- What has a handle does not count. -/
theorem nullUsed_record_of_not {e : Event} (h : e.onNull = false) :
    (s.record e).nullUsed = s.nullUsed := by
  rw [nullUsed_record, h, Bool.or_false]

/-- A function that is passed is no call of the core. -/
@[simp] theorem nullUsed_passCallback : s.passCallback.nullUsed = s.nullUsed := rfl

/-- A change of a wrapper is no call of the core. -/
@[simp] theorem nullUsed_modifyCall (i : Nat) (f : CallObject → CallObject) :
    (s.modifyCall i f).nullUsed = s.nullUsed := rfl

/-- A change of a wrapper is no call of the core. -/
@[simp] theorem nullUsed_modifyChannel (i : Nat) (f : ChannelObject → ChannelObject) :
    (s.modifyChannel i f).nullUsed = s.nullUsed := rfl

/-- A change of a wrapper is no call of the core. -/
@[simp] theorem nullUsed_modifyServer (i : Nat) (f : ServerObject → ServerObject) :
    (s.modifyServer i f).nullUsed = s.nullUsed := rfl

/-- A new wrapper is no call of the core. -/
@[simp] theorem nullUsed_newCallObject : s.newCallObject.nullUsed = s.nullUsed := rfl

/-- A tag is recorded without a call of the core. -/
@[simp] theorem nullUsed_addTag (tag : Tag) : (s.addTag tag).nullUsed = s.nullUsed := rfl

/-- `CompletionQueueNext` looks at no handle. -/
@[simp] theorem nullUsed_completionQueueNext : s.completionQueueNext.nullUsed = s.nullUsed :=
  completionQueueNext_frame nullUsed (fun _ => nullUsed_record_of_not rfl) (fun _ _ _ => rfl) s

/-- A tag that is finished is recorded without a call of the core. -/
@[simp] theorem nullUsed_finishTag : s.finishTag.nullUsed = s.nullUsed := by
  rw [finishTag_eq]
  rfl

/-- What is released is not `NULL`. -/
theorem nullUsed_settles {s' : State} (h : Settles s s') : s'.nullUsed = s.nullUsed := by
  obtain ⟨more, hmore, hsettles⟩ := h.trace
  have hnone : more.any Event.onNull = false := by
    rw [List.any_eq_false]
    intro e hmem
    obtain ⟨i, rfl⟩ | ⟨i, rfl⟩ | ⟨tag, rfl⟩ := (hsettles e hmem).eq
    all_goals exact Bool.false_ne_true
  rw [nullUsed, hmore, List.any_append, hnone, Bool.or_false]
  rfl

/-- `Call::StartBatch` looks whether the call is there. -/
theorem nullUsed_startBatch (core : Core) (i : Nat) (batch : Batch) (accepted : Bool) :
    (s.startBatch core i batch accepted).nullUsed = s.nullUsed := by
  unfold startBatch startOps
  dsimp only
  split
  · split
    · split
      · rw [nullUsed_completionQueueNext, nullUsed_modifyCall, nullUsed_addTag,
          nullUsed_record_of_not rfl, nullUsed_passCallback]
      · rw [nullUsed_record_of_not rfl, nullUsed_passCallback]
    · rfl
  · rw [nullUsed_record_of_not rfl, nullUsed_passCallback]

/-- `Call::Cancel` and `Call::CancelWithStatus` look whether the call is there. -/
theorem nullUsed_cancelWith (function : CallFunction) (i : Nat) :
    (s.cancelWith function i).nullUsed = s.nullUsed := by
  unfold cancelWith
  split
  · exact nullUsed_record_of_not rfl
  · rfl

/-- `Server::RequestCall` does not look whether the server is there. -/
theorem nullUsed_requestCall (i : Nat) (callback : Callback) (accepted : Bool) :
    (s.requestCall i callback accepted).nullUsed = (s.nullUsed || (s.wrappedServer i).isNone) := by
  unfold requestCall
  dsimp only
  split
  · rw [nullUsed_completionQueueNext, nullUsed_addTag, nullUsed_record, onNull_server]
  · rw [nullUsed_record, onNull_server]

/-- `Server::TryShutdown` looks whether the server is there. -/
theorem nullUsed_tryShutdown (i : Nat) : (s.tryShutdown i).nullUsed = s.nullUsed := by
  unfold tryShutdown
  split
  · rw [nullUsed_completionQueueNext, nullUsed_addTag, nullUsed_record_of_not rfl,
      nullUsed_passCallback]
  · rw [nullUsed_record_of_not rfl, nullUsed_passCallback]

/-- `Server::ShutdownServer` looks whether the server is there. -/
theorem nullUsed_shutdownServer (i : Nat) : (s.shutdownServer i).nullUsed = s.nullUsed := by
  unfold shutdownServer
  split
  · rw [nullUsed_modifyServer, nullUsed_completionQueueNext, nullUsed_record_of_not rfl,
      nullUsed_addTag, nullUsed_record_of_not rfl]
  · rfl

/-- The handle is in the wrapper of the server, and nowhere else. -/
theorem wrappedServer_of_servers {s' : State} (h : s'.servers = s.servers) (i : Nat) :
    s'.wrappedServer i = s.wrappedServer i := by
  rw [wrappedServer, wrappedServer, server, server, h]

/-- What is recorded leaves the handles. -/
theorem wrappedServer_record (e : Event) (i : Nat) :
    (s.record e).wrappedServer i = s.wrappedServer i := rfl

/-- A server that is started is still wrapped as before. -/
theorem wrappedServer_started {i : Nat} (hi : i < s.servers.length) (j : Nat) :
    (s.modifyServer i fun server => { server with started := true }).wrappedServer j =
      s.wrappedServer j := by
  rw [wrappedServer, wrappedServer, server_modifyServer _ hi]
  split <;> rfl

/-- `handleNewCall` does not look whether the server has been shut down. -/
theorem nullUsed_runCallback (callback : Callback) (success accepted : Bool) :
    (s.runCallback callback success accepted).nullUsed = true ↔ s.nullUsed = true ∨
      success = true ∧ ∃ server, callback = .handleNewCall server ∧
        s.wrappedServer server = none := by
  unfold runCallback
  dsimp only
  split
  · rename_i server
    rw [nullUsed_requestCall, nullUsed_record_of_not rfl, Bool.or_eq_true, Option.isNone_iff_eq_none]
    refine or_congr_right ⟨fun hnone => ⟨rfl, server, rfl, hnone⟩, ?_⟩
    rintro ⟨-, server', heq, hnone⟩
    obtain rfl := Callback.handleNewCall.inj heq
    exact hnone
  · rename_i hother
    rw [nullUsed_record_of_not rfl]
    refine (or_iff_left ?_).symm
    rintro ⟨rfl, server, rfl, -⟩
    exact hother server rfl rfl

/-- An event leads to a null handle if `handleNewCall` requests the next call of a server that has
been destroyed. -/
theorem nullUsed_deliver (i : Nat) (tag : Tag) (success accepted : Bool) :
    (s.deliver i tag success accepted).nullUsed = true ↔ s.nullUsed = true ∨
      success = true ∧ ∃ server, tag.callback = .handleNewCall server ∧
        s.wrappedServer server = none := by
  have hkeeps : ∀ s : State, (if success then tag.ops.foldl getNodeValue s else s).nullUsed =
      s.nullUsed ∧ (if success then tag.ops.foldl getNodeValue s else s).servers = s.servers := by
    intro s
    split
    · exact ⟨foldl_frame nullUsed (fun _ op => by cases op <;> rfl) tag.ops s,
        foldl_frame servers (fun _ op => by cases op <;> rfl) tag.ops s⟩
    · exact ⟨rfl, rfl⟩
  unfold deliver
  dsimp only
  rw [nullUsed_runCallback, (hkeeps _).1, nullUsed_record_of_not rfl]
  simp only [wrappedServer_of_servers (hkeeps _).2]
  rfl

end State

variable {s : State}

/-! ### The steps -/

/-- A step hands `NULL` to the core exactly if it does not look. -/
theorem nullUsed_step {core : Core} {s' : State} {a : Act} (hs : step core s a = some s') :
    s'.nullUsed = true ↔ s.nullUsed = true ∨ UsesNull s a := by
  -- Most steps hand over nothing, or what they have looked at.
  have hnever : s'.nullUsed = s.nullUsed → ¬ UsesNull s a →
      (s'.nullUsed = true ↔ s.nullUsed = true ∨ UsesNull s a) := fun heq hnot => by
    rw [heq, or_iff_left hnot]
  cases a with
  | newChannel =>
      obtain ⟨-, rfl⟩ := Runs.when_eq_some.mp hs
      exact hnever rfl id
  | close i =>
      obtain ⟨-, rfl⟩ := Runs.when_eq_some.mp hs
      refine hnever ?_ id
      unfold State.close
      split
      · rw [State.nullUsed_modifyChannel, State.nullUsed_record_of_not rfl]
      · rfl
  | getTarget i =>
      obtain ⟨-, rfl⟩ := Runs.when_eq_some.mp hs
      rw [State.getTarget, State.nullUsed_record, State.onNull_channel, Bool.or_eq_true,
        Option.isNone_iff_eq_none]
      rfl
  | getConnectivityState i =>
      obtain ⟨-, rfl⟩ := Runs.when_eq_some.mp hs
      rw [State.getConnectivityState, State.nullUsed_record, State.onNull_channel, Bool.or_eq_true,
        Option.isNone_iff_eq_none]
      rfl
  | watchConnectivityState i =>
      obtain ⟨-, rfl⟩ := Runs.when_eq_some.mp hs
      rw [State.watchConnectivityState, State.nullUsed_completionQueueNext, State.nullUsed_addTag,
        State.nullUsed_record, State.onNull_channel, State.nullUsed_passCallback, Bool.or_eq_true,
        Option.isNone_iff_eq_none]
      rfl
  | newCall i =>
      obtain ⟨-, rfl⟩ := Runs.when_eq_some.mp hs
      refine hnever ?_ id
      unfold State.newCall
      split
      · rw [State.nullUsed_newCallObject, State.nullUsed_record_of_not rfl]
      · rfl
  | startBatch i batch accepted =>
      obtain ⟨-, rfl⟩ := Runs.when_eq_some.mp hs
      exact hnever (State.nullUsed_startBatch core i batch accepted) id
  | cancel i =>
      obtain ⟨-, rfl⟩ := Runs.when_eq_some.mp hs
      exact hnever (State.nullUsed_cancelWith _ i) id
  | cancelWithStatus i =>
      obtain ⟨-, rfl⟩ := Runs.when_eq_some.mp hs
      exact hnever (State.nullUsed_cancelWith _ i) id
  | newServer =>
      obtain ⟨-, rfl⟩ := Runs.when_eq_some.mp hs
      exact hnever rfl id
  | bind i =>
      obtain ⟨-, rfl⟩ := Runs.when_eq_some.mp hs
      unfold State.bind
      split
      · rename_i hstarted
        exact (or_iff_left fun h => Bool.false_ne_true (h.1.symm.trans hstarted)).symm
      · rename_i hstarted
        rw [State.nullUsed_record, State.onNull_server, Bool.or_eq_true, Option.isNone_iff_eq_none]
        exact or_congr_right ⟨fun hnone => ⟨eq_false_of_ne_true hstarted, hnone⟩, And.right⟩
  | start i accepted =>
      obtain ⟨⟨-, hi, -⟩, rfl⟩ := Runs.when_eq_some.mp hs
      unfold State.start
      split
      · rename_i hstarted
        exact (or_iff_left fun h => Bool.false_ne_true (h.1.symm.trans hstarted)).symm
      · rename_i hstarted
        have hwrapped := State.wrappedServer_started hi i
        rw [State.nullUsed_requestCall, State.nullUsed_record, State.onNull_server,
          State.nullUsed_modifyServer, State.wrappedServer_record, hwrapped, Bool.or_assoc,
          Bool.or_self, Bool.or_eq_true, Option.isNone_iff_eq_none]
        exact or_congr_right ⟨fun hnone => ⟨eq_false_of_ne_true hstarted, hnone⟩, And.right⟩
  | requestCall i accepted =>
      obtain ⟨-, rfl⟩ := Runs.when_eq_some.mp hs
      rw [State.nullUsed_requestCall, State.nullUsed_passCallback, Bool.or_eq_true,
        Option.isNone_iff_eq_none]
      rfl
  | tryShutdown i =>
      obtain ⟨-, rfl⟩ := Runs.when_eq_some.mp hs
      exact hnever (State.nullUsed_tryShutdown i) id
  | forceShutdown i =>
      obtain ⟨-, rfl⟩ := Runs.when_eq_some.mp hs
      exact hnever (State.nullUsed_shutdownServer i) id
  | collect i =>
      obtain ⟨-, rfl⟩ := Runs.when_eq_some.mp hs
      refine hnever ?_ id
      rw [State.collect, State.nullUsed_shutdownServer, State.nullUsed_modifyServer]
  | drain =>
      obtain ⟨-, rfl⟩ := Runs.when_eq_some.mp hs
      exact hnever rfl id
  | complete i success accepted =>
      obtain ⟨tag, htag, -, rfl⟩ := complete_of_step hs
      rw [State.nullUsed_deliver]
      refine or_congr_right (and_congr_right fun _ => ?_)
      constructor
      · rintro ⟨server, hcallback, hnone⟩
        exact ⟨tag, server, htag, hcallback, hnone⟩
      · rintro ⟨tag', server, htag', hcallback, hnone⟩
        obtain rfl := Option.some.inj (htag.symm.trans htag')
        exact ⟨server, hcallback, hnone⟩
  | callbackReturns =>
      obtain ⟨tag, success, hrunning, rfl⟩ := callbackReturns_of_step hs
      refine hnever ?_ id
      rw [State.nullUsed_finishTag, State.nullUsed_settles (.completeTag s tag success)]
  | drainEnds =>
      obtain ⟨-, rfl⟩ := Runs.when_eq_some.mp hs
      exact hnever rfl id

/-- **When `NULL` is handed to the core.** In a run of the addon no function of the core is called
with `NULL` for a server or a channel, if and only if no step is one that would not look at a
handle that is `NULL`. -/
theorem nullFree_iff (core : Core) (acts : List Act) :
    Runs.Always (step core) (fun s => ∀ e ∈ s.trace, e.onNull = false) {} acts ↔
      Runs.Guarded (step core) (fun s a => ¬ UsesNull s a) {} acts := by
  refine Runs.always_iff_guarded (J := fun _ => True) ?_ (fun _ _ _ _ _ _ _ => trivial) trivial
    fun _ h => absurd h List.not_mem_nil
  intro s a s' _ hfree hs
  rw [← State.nullUsed_eq_false_iff] at hfree ⊢
  rw [← Bool.not_eq_true, nullUsed_step hs, hfree]
  simp

/-- A channel that has been closed is asked for its target, and a server that has been shut down
gets a call that was on its way. -/
theorem null_handles :
    ¬ Runs.Always (step Core.ascii) (fun s => ∀ e ∈ s.trace, e.onNull = false) {}
      [.newChannel, .close 0, .getTarget 0] ∧
    ¬ Runs.Always (step Core.ascii) (fun s => ∀ e ∈ s.trace, e.onNull = false) {}
      [.newServer, .start 0 true, .forceShutdown 0, .drain, .complete 0 true true] := by
  constructor
  · intro h
    have hlast := h.last rfl
    exact absurd (hlast (.core (.channel .getTarget none)) (by decide)) nofun
  · intro h
    have hlast := h.last rfl
    exact absurd (hlast (.core (.server .requestCall none)) (by decide)) nofun

end GrpcNode.NativeCore.Addon
