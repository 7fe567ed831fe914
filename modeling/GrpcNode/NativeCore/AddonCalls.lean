import GrpcNode.Lib.Pending
import GrpcNode.NativeCore.AddonTags

/-!
# GrpcNode.NativeCore.AddonCalls

The life of a `grpc_call`: `always_callLifetime` says that a wrapped call is released once, when a
batch with its status has completed and no batch is outstanding.

`State.lease` is a call as a `Pending.Lease`. Its counter goes up when the core has accepted a
batch, and down after the callback, which may have started others. A wrapper is not collected while
it is looked at here: the tags of its batches keep it.
-/

namespace GrpcNode.NativeCore.Addon

open Pending (Lease)

/-- `RECV_STATUS_ON_CLIENT` or `SEND_STATUS_FROM_SERVER` is in the batch. -/
def Tag.HasStatus (tag : Tag) : Prop :=
  ∃ op, .batch op ∈ tag.ops ∧ (op = .recvStatusOnClient ∨ ∃ status, op = .sendStatusFromServer status)

/-- A batch on the call has completed, and it was final. -/
def Event.completesFinal (i : Nat) : Event → Bool
  | completed tag => tag.call = some i && tag.isFinal
  | _ => false

/-- `IsFinalOp` is true of the two operations with a status. -/
theorem Tag.isFinal_iff {tag : Tag} : tag.isFinal = true ↔ tag.HasStatus := by
  unfold Tag.isFinal Tag.HasStatus
  rw [List.any_eq_true]
  constructor
  · rintro ⟨op, hmem, hfinal⟩
    cases op with
    | batch op =>
        refine ⟨op, hmem, ?_⟩
        cases op with
        | sendStatusFromServer status => exact .inr ⟨status, rfl⟩
        | recvStatusOnClient => exact .inl rfl
        | _ => exact absurd hfinal nofun
    | _ => exact absurd hfinal nofun
  · rintro ⟨op, hmem, rfl | ⟨status, rfl⟩⟩
    · exact ⟨_, hmem, rfl⟩
    · exact ⟨_, hmem, rfl⟩

namespace State

/-- The number of batches that are outstanding on a call. -/
def outstandingOn (s : State) (i : Nat) : Nat := s.outstanding.countP (·.call = some i)

/-- A batch with the status of the call has completed. -/
def FinalCompleted (s : State) (i : Nat) : Prop :=
  ∃ tag, .completed tag ∈ s.trace ∧ tag.call = some i ∧ tag.HasStatus

/-- The call has been released. -/
def Released (s : State) (i : Nat) : Prop := .core (.call .unref i) ∈ s.trace

/-- The life of a call, as it should be. -/
structure CallLifetime (core : Core) (s : State) (i : Nat) : Prop where
  pendingBatches : (s.call i).pendingBatches = s.outstandingOn i
  releasedOnce : s.trace.count (.core (.call .unref i)) ≤ 1
  released : s.Released i ↔ s.FinalCompleted i ∧ s.outstandingOn i = 0
  startBatch : s.Released i → ∀ batch accepted s',
    step core s (.startBatch i batch accepted) = some s' →
      s' = s.passCallback.record (.callback (.user s.callbacks) (some callCompletedError))
  cancel : s.Released i → ∀ s', step core s (.cancel i) = some s' → s' = s
  cancelWithStatus : s.Released i → ∀ s', step core s (.cancelWithStatus i) = some s' → s' = s

/-- A call as a resource that is given back. -/
def lease (s : State) (i : Nat) : Lease where
  held := (s.call i).wrapped
  pending := (s.call i).pendingBatches
  finalDone := (s.call i).hasFinalOpCompleted
  outstanding := s.outstandingOn i
  final := s.trace.any (Event.completesFinal i)
  released := s.trace.count (.core (.call .unref i))

variable {s : State} {i : Nat}

/-- The final batch of a call has completed exactly if the trace says so. -/
theorem any_completesFinal_iff :
    s.trace.any (Event.completesFinal i) = true ↔ s.FinalCompleted i := by
  rw [List.any_eq_true]
  constructor
  · rintro ⟨e, hmem, he⟩
    cases e with
    | completed tag =>
        obtain ⟨hcall, hfinal⟩ := (Bool.and_eq_true _ _).mp he
        exact ⟨tag, hmem, of_decide_eq_true hcall, Tag.isFinal_iff.mp hfinal⟩
    | _ => exact absurd he nofun
  · rintro ⟨tag, hmem, hcall, hstatus⟩
    refine ⟨_, hmem, (Bool.and_eq_true _ _).mpr ⟨decide_eq_true hcall, Tag.isFinal_iff.mpr hstatus⟩⟩

/-- What holds of the lease is what is wanted of the call. -/
theorem callLifetime_of_good (core : Core) (h : (s.lease i).Good) : s.CallLifetime core i := by
  obtain ⟨hpending, -, hreleased, hheld⟩ := h
  have hcount : s.trace.count (.core (.call .unref i)) = if (s.call i).wrapped then 0 else 1 :=
    hreleased
  have hiff : s.Released i ↔ (s.call i).wrapped = false := by
    rw [Released, ← List.count_pos_iff, hcount]
    cases (s.call i).wrapped <;> simp
  refine ⟨hpending, ?_, hiff.trans (hheld.trans (and_congr_left' any_completesFinal_iff)), ?_, ?_, ?_⟩
  · rw [hcount]
    split <;> omega
  · intro hgone batch accepted s' hs
    obtain ⟨-, rfl⟩ := Runs.when_eq_some.mp hs
    rw [State.startBatch, hiff.mp hgone]
    rfl
  · intro hgone s' hs
    obtain ⟨-, rfl⟩ := Runs.when_eq_some.mp hs
    rw [State.cancelWith, hiff.mp hgone]
    rfl
  · intro hgone s' hs
    obtain ⟨-, rfl⟩ := Runs.when_eq_some.mp hs
    rw [State.cancelWith, hiff.mp hgone]
    rfl

/-! ### The parts of a step -/

/-- What is recorded does not concern the call, if it is neither its release nor a final batch. -/
theorem lease_record {e : Event} (hunref : e ≠ .core (.call .unref i))
    (hfinal : e.completesFinal i = false) : (s.record e).lease i = s.lease i := by
  have hcount : (s.trace ++ [e]).count (.core (.call .unref i)) =
      s.trace.count (.core (.call .unref i)) := by
    rw [List.count_append, List.count_singleton, if_neg (by simpa using hunref), Nat.add_zero]
  have hany : (s.trace ++ [e]).any (Event.completesFinal i) =
      s.trace.any (Event.completesFinal i) := by
    rw [List.any_append, List.any_cons, hfinal, List.any_nil, Bool.or_false, Bool.or_false]
  simp only [lease, record, call, outstandingOn, outstanding, hcount, hany]

/-- What the addon asks of a server does not concern the call. -/
@[simp] theorem lease_record_server (function : ServerFunction) (server : Option Nat) :
    (s.record (.core (.server function server))).lease i = s.lease i :=
  lease_record nofun rfl

/-- What the addon asks of a channel does not concern the call. -/
@[simp] theorem lease_record_channel (function : ChannelFunction) (channel : Option Nat) :
    (s.record (.core (.channel function channel))).lease i = s.lease i :=
  lease_record nofun rfl

/-- Only `grpc_call_unref` concerns the lease. -/
theorem lease_record_call {function : CallFunction} (h : function ≠ .unref) (j : Nat) :
    (s.record (.core (.call function j))).lease i = s.lease i :=
  lease_record (fun heq => h (by injection heq with heq; injection heq)) rfl

/-- That a function is called does not concern the call. -/
@[simp] theorem lease_record_callback (callback : Callback) (err : Option Js.JsError) :
    (s.record (.callback callback err)).lease i = s.lease i :=
  lease_record nofun rfl

/-- That an event is taken from the queue does not concern the call. -/
@[simp] theorem lease_record_delivered (tag : Tag) (success : Bool) :
    (s.record (.delivered tag success)).lease i = s.lease i :=
  lease_record nofun rfl

/-- That a function is passed does not concern the call. -/
@[simp] theorem lease_passCallback : s.passCallback.lease i = s.lease i := rfl

/-- A channel is not the call. -/
@[simp] theorem lease_modifyChannel (j : Nat) (f : ChannelObject → ChannelObject) :
    (s.modifyChannel j f).lease i = s.lease i := rfl

/-- A server is not the call. -/
@[simp] theorem lease_modifyServer (j : Nat) (f : ServerObject → ServerObject) :
    (s.modifyServer j f).lease i = s.lease i := rfl

/-- A call that is new is like one that is not there yet. -/
@[simp] theorem lease_newCallObject : s.newCallObject.lease i = s.lease i := by
  simp only [lease, call_newCallObject]
  rfl

/-- The counter of the queue is not the one of the call. -/
@[simp] theorem lease_completionQueueNext : s.completionQueueNext.lease i = s.lease i :=
  completionQueueNext_frame (·.lease i) (fun _ => lease_record nofun rfl)
    (fun _ _ _ => rfl) s

/-- A tag of something else. -/
theorem lease_addTag {tag : Tag} (h : tag.call ≠ some i) : (s.addTag tag).lease i = s.lease i := by
  have hcount : (s.addTag tag).outstandingOn i = s.outstandingOn i := by
    simp only [outstandingOn, outstanding, addTag, List.countP_append, List.countP_singleton,
      decide_eq_false h]
    rfl
  simp only [lease, hcount]
  rfl

/-- A tag without a call does not count for any. -/
theorem lease_addTag_none (callback : Callback) (ops : List Op) :
    (s.addTag { callback, ops }).lease i = s.lease i :=
  lease_addTag nofun

/-- A tag of the call counts. -/
theorem lease_addTag_self {tag : Tag} (h : tag.call = some i) :
    (s.addTag tag).lease i = { s.lease i with outstanding := (s.lease i).outstanding + 1 } := by
  have hcount : (s.addTag tag).outstandingOn i = s.outstandingOn i + 1 := by
    simp only [outstandingOn, outstanding, addTag, List.countP_append, List.countP_singleton,
      decide_eq_true h, if_true]
    omega
  simp only [lease, hcount]
  rfl

/-- Another wrapper is not that of the call. -/
theorem lease_modifyCall_of_ne {j : Nat} (f : CallObject → CallObject) (h : j ≠ i) :
    (s.modifyCall j f).lease i = s.lease i := by
  simp only [lease, call_modifyCall_of_ne f h]
  rfl

/-- The lease follows the pointer and the counter in the wrapper. -/
theorem lease_modifyCall_self (f : CallObject → CallObject) (hi : i < s.calls.length) :
    (s.modifyCall i f).lease i = { s.lease i with
      held := (f (s.call i)).wrapped
      pending := (f (s.call i)).pendingBatches
      finalDone := (f (s.call i)).hasFinalOpCompleted } := by
  have hcall : (s.modifyCall i f).call i = f (s.call i) := by rw [call_modifyCall f hi, if_pos rfl]
  simp only [lease, hcall]
  rfl

/-- A batch is accepted, or it is not. -/
theorem lease_startOps {j : Nat} (hj : j < s.calls.length) (hwrapped : (s.call j).wrapped = true)
    (ops : List CoreOp) (accepted : Bool) : (s.lease i).Step ((s.startOps j ops accepted).lease i) := by
  have hpassed : (s.passCallback.record (.core (.call .startBatch j))).lease i = s.lease i :=
    lease_record_call (by decide) j
  unfold startOps
  dsimp only
  split
  · rw [lease_completionQueueNext]
    by_cases hij : j = i
    · subst hij
      rw [lease_modifyCall_self, lease_addTag_self rfl, hpassed]
      · exact .accept hwrapped
      · exact hj
    · rw [lease_modifyCall_of_ne _ hij, lease_addTag (fun h => hij (Option.some.inj h)), hpassed]
      exact .idle
  · rw [hpassed]
    exact .idle

/-- `DestroyCall` of another call -/
theorem lease_destroyCall_of_ne {j : Nat} (h : j ≠ i) : (s.destroyCall j).lease i = s.lease i := by
  unfold destroyCall
  split
  · rw [lease_modifyCall_of_ne _ h]
    exact lease_record (fun heq => h (by injection heq with heq; injection heq)) rfl
  · rfl

/-- `DestroyCall` is a release. -/
theorem lease_destroyCall_self (hi : i < s.calls.length) :
    (s.destroyCall i).lease i = (s.lease i).release := by
  have hrecord : (s.record (.core (.call .unref i))).lease i =
      { s.lease i with released := (s.lease i).released + 1 } := by
    simp only [lease, record, List.count_append, List.count_singleton_self, List.any_append,
      List.any_cons, List.any_nil, Event.completesFinal, Bool.or_false]
    rfl
  unfold destroyCall
  by_cases hwrapped : (s.call i).wrapped = true
  · have hheld : (s.lease i).held = true := hwrapped
    rw [if_pos hwrapped, lease_modifyCall_self, hrecord, Lease.release, if_pos hheld]
    · rfl
    · exact hi
  · have hheld : ¬ (s.lease i).held = true := hwrapped
    rw [if_neg hwrapped, Lease.release, if_neg hheld]

/-- `CompleteBatch` of another call -/
theorem lease_completeBatch_of_ne {j : Nat} (h : j ≠ i) (isFinalOp : Bool) :
    (s.completeBatch j isFinalOp).lease i = s.lease i := by
  unfold completeBatch
  dsimp only
  split
  · rw [lease_destroyCall_of_ne h, lease_modifyCall_of_ne _ h]
  · rw [lease_modifyCall_of_ne _ h]

/-- `CompleteBatch` settles a batch: it releases the call after the last one, if there has been a
final one. -/
theorem lease_completeBatch_self (hi : i < s.calls.length) (isFinalOp : Bool) :
    (s.completeBatch i isFinalOp).lease i = (s.lease i).settle isFinalOp := by
  have hmodified := lease_modifyCall_self (fun call =>
    { call with
      hasFinalOpCompleted := isFinalOp || call.hasFinalOpCompleted
      pendingBatches := call.pendingBatches - 1 }) hi
  have hcall := call_modifyCall (fun call =>
    { call with
      hasFinalOpCompleted := isFinalOp || call.hasFinalOpCompleted
      pendingBatches := call.pendingBatches - 1 }) hi i
  rw [if_pos rfl] at hcall
  unfold completeBatch
  dsimp only
  simp only [hcall]
  by_cases hdone : (isFinalOp || (s.call i).hasFinalOpCompleted) = true ∧
    (s.call i).pendingBatches - 1 = 0
  · rw [if_pos hdone, lease_destroyCall_self, hmodified]
    · exact (if_pos hdone).symm
    · rw [modifyCall, List.length_modify]
      exact hi
  · rw [if_neg hdone, hmodified]
    exact (if_neg hdone).symm

/-- A server that is destroyed is not the call. -/
@[simp] theorem lease_destroyWrappedServer (j : Nat) :
    (s.destroyWrappedServer j).lease i = s.lease i := by
  unfold destroyWrappedServer
  split <;> simp

/-- What an operation does when it completes does not concern the call. -/
@[simp] theorem lease_onComplete (success : Bool) (op : Op) :
    (s.onComplete success op).lease i = s.lease i := by
  cases op with
  | tryShutdown j =>
      simp only [onComplete]
      split <;> simp
  | _ => simp [onComplete]

/-- The value of an operation does not concern a call that is there. -/
@[simp] theorem lease_getNodeValue (op : Op) : (s.getNodeValue op).lease i = s.lease i := by
  cases op with
  | newCall => exact lease_newCallObject
  | _ => rfl

/-- The tag of a batch has completed. -/
theorem lease_completed_self {tag : Tag} (h : tag.call = some i) :
    (s.record (.completed tag)).lease i =
      { s.lease i with final := tag.isFinal || (s.lease i).final } := by
  have hcompletes : Event.completesFinal i (.completed tag) = tag.isFinal := by
    rw [Event.completesFinal, decide_eq_true h, Bool.true_and]
  simp only [lease, record, List.count_append, List.any_append, List.any_cons, List.any_nil,
    hcompletes, Bool.or_comm tag.isFinal]
  rfl

/-- A tag of another call, or of none, has been completed. -/
theorem lease_completed_of_ne {tag : Tag} (h : tag.call ≠ some i) :
    (s.record (.completed tag)).lease i = s.lease i := by
  refine lease_record nofun ?_
  rw [Event.completesFinal, decide_eq_false h, Bool.false_and]

/-- A tag of the call does not count any more when it is finished. -/
theorem lease_finishTag {tag : Tag} {success : Bool} (hrunning : s.running = some (tag, success)) :
    s.finishTag.lease i = { s.lease i with
      outstanding := (s.lease i).outstanding - if tag.call = some i then 1 else 0 } := by
  have hcount : s.finishTag.outstandingOn i =
      s.outstandingOn i - if tag.call = some i then 1 else 0 := by
    simp only [outstandingOn, outstanding_finishTag, outstanding_of_running hrunning,
      List.countP_append, List.countP_singleton, decide_eq_true_eq]
    omega
  rw [lease, hcount, finishTag_eq]
  rfl

/-- A call is concerned by its own batches. -/
theorem lease_completeTag_of_ne {tag : Tag} (h : tag.call ≠ some i) (success : Bool) :
    (s.completeTag tag success).lease i = s.lease i := by
  have hops : (tag.ops.foldl (fun s op => s.onComplete success op) s).lease i = s.lease i :=
    foldl_frame (·.lease i) (fun s op => lease_onComplete (s := s) success op) tag.ops s
  unfold completeTag
  dsimp only
  split
  · rename_i j hj
    rw [lease_completed_of_ne h, lease_completeBatch_of_ne, hops]
    exact fun hij => h (hj.trans (congrArg some hij))
  · rw [lease_completed_of_ne h, hops]

/-- A tag of the call is completed: it is settled, and then the trace says so. -/
theorem lease_completeTag_self {tag : Tag} (h : tag.call = some i) (hi : i < s.calls.length)
    (success : Bool) : (s.completeTag tag success).lease i =
      let l := (s.lease i).settle tag.isFinal
      { l with final := tag.isFinal || l.final } := by
  have hops : (tag.ops.foldl (fun s op => s.onComplete success op) s).lease i = s.lease i :=
    foldl_frame (·.lease i) (fun s op => lease_onComplete (s := s) success op) tag.ops s
  have hlength := (Settles.onCompletes success tag.ops s).calls
  unfold completeTag
  simp only [h]
  rw [lease_completed_self h, lease_completeBatch_self (hlength ▸ hi), hops]

end State

variable {s : State} {i : Nat}

/-- What the program does is in step with what has been done. -/
theorem settle_complete (l : Lease) (isFinal : Bool) :
    { l.settle isFinal with
      final := isFinal || (l.settle isFinal).final
      outstanding := (l.settle isFinal).outstanding - 1 } = l.complete isFinal := by
  unfold Lease.complete Lease.settle Lease.release
  dsimp only
  split
  · split <;> rfl
  · rfl

/-- The second half of an iteration is a step of the lease. -/
theorem lease_callbackReturns (h : s.Formed) {tag : Tag} {success : Bool}
    (hrunning : s.running = some (tag, success)) :
    (s.lease i).Step ((s.completeTag tag success).finishTag.lease i) := by
  have hrunning' := (Settles.completeTag s tag success).running.trans hrunning
  rw [State.lease_finishTag hrunning']
  by_cases hcall : tag.call = some i
  · have hmem : tag ∈ s.outstanding := by
      rw [State.outstanding_of_running hrunning]
      exact List.mem_append_right _ (List.mem_singleton_self _)
    have hi : i < s.calls.length := by
      cases h.tags tag hmem with
      | batch n ops hj =>
          obtain rfl := Option.some.inj hcall
          exact hj
      | _ => exact absurd hcall nofun
    rw [if_pos hcall, State.lease_completeTag_self hcall hi, settle_complete]
    exact .complete _ (List.countP_pos_iff.mpr ⟨tag, hmem, decide_eq_true hcall⟩)
  · rw [if_neg hcall, Nat.sub_zero, State.lease_completeTag_of_ne hcall]
    exact .idle

/-! ### The steps -/

/-- The request for a new call does not concern a call that is there. -/
theorem lease_requestCall (j : Nat) (callback : Callback) (accepted : Bool) :
    (s.requestCall j callback accepted).lease i = s.lease i := by
  unfold State.requestCall
  dsimp only
  split
  · rw [State.lease_completionQueueNext, State.lease_addTag_none, State.lease_record_server]
  · rw [State.lease_record_server]

/-- The shutdown of a server does not concern the call. -/
theorem lease_shutdownServer (j : Nat) : (s.shutdownServer j).lease i = s.lease i := by
  unfold State.shutdownServer
  split
  · rw [State.lease_modifyServer, State.lease_completionQueueNext, State.lease_record_server,
      State.lease_addTag_none, State.lease_record_server]
  · rfl

/-- To cancel a call does not release it. -/
theorem lease_cancelWith {function : CallFunction} (h : function ≠ .unref) (j : Nat) :
    (s.cancelWith function j).lease i = s.lease i := by
  unfold State.cancelWith
  split
  · exact State.lease_record_call h j
  · rfl

/-- A batch is accepted, which is a step of the lease of its call, or nothing happens. -/
theorem lease_startBatch (core : Core) {j : Nat} (hj : j < s.calls.length) (batch : Batch)
    (accepted : Bool) : (s.lease i).Step ((s.startBatch core j batch accepted).lease i) := by
  unfold State.startBatch
  split
  · rename_i hwrapped
    split
    · exact State.lease_startOps hj hwrapped _ accepted
    · exact .idle
  · rw [State.lease_record_callback, State.lease_passCallback]
    exact .idle

/-- What is called with an event does not concern the call, before it returns. -/
theorem lease_runCallback (callback : Callback) (success accepted : Bool) :
    (s.runCallback callback success accepted).lease i = s.lease i := by
  unfold State.runCallback
  dsimp only
  split
  · rw [lease_requestCall, State.lease_record_callback]
  · rw [State.lease_record_callback]

/-- The first half of an iteration does not concern the call. -/
theorem lease_deliver (hidle : s.running = none) {j : Nat} {tag : Tag}
    (htag : s.tags[j]? = some tag) (success accepted : Bool) :
    (s.deliver j tag success accepted).lease i = s.lease i := by
  have hdelivered : ({ s with tags := s.tags.eraseIdx j, running := some (tag, success) } :
      State).lease i = s.lease i := by
    have hcount := (State.outstanding_delivered hidle htag success).countP_eq
      (fun tag => decide (tag.call = some i))
    simp only [State.lease, State.outstandingOn, hcount]
    rfl
  unfold State.deliver
  dsimp only
  rw [lease_runCallback]
  split
  · refine (State.foldl_frame (·.lease i)
      (fun s op => State.lease_getNodeValue (s := s) op) tag.ops _).trans ?_
    rw [State.lease_record_delivered, hdelivered]
  · rw [State.lease_record_delivered, hdelivered]

/-- Each step of the addon is one of the lease, or none. -/
theorem lease_step {core : Core} {s' : State} {a : Act} (h : s.Formed)
    (hs : step core s a = some s') : (s.lease i).Step (s'.lease i) := by
  -- Only batches are about a call, and only those that start or complete.
  have hidle : s'.lease i = s.lease i → (s.lease i).Step (s'.lease i) := fun heq => heq ▸ .idle
  cases a with
  | newChannel =>
      obtain ⟨-, rfl⟩ := Runs.when_eq_some.mp hs
      exact .idle
  | close j =>
      obtain ⟨-, rfl⟩ := Runs.when_eq_some.mp hs
      refine hidle ?_
      unfold State.close
      split
      · rw [State.lease_modifyChannel, State.lease_record_channel]
      · rfl
  | getTarget j =>
      obtain ⟨-, rfl⟩ := Runs.when_eq_some.mp hs
      exact hidle (State.lease_record_channel _ _)
  | getConnectivityState j =>
      obtain ⟨-, rfl⟩ := Runs.when_eq_some.mp hs
      exact hidle (State.lease_record_channel _ _)
  | watchConnectivityState j =>
      obtain ⟨-, rfl⟩ := Runs.when_eq_some.mp hs
      refine hidle ?_
      rw [State.watchConnectivityState, State.lease_completionQueueNext, State.lease_addTag_none,
        State.lease_record_channel, State.lease_passCallback]
  | newCall j =>
      obtain ⟨-, rfl⟩ := Runs.when_eq_some.mp hs
      refine hidle ?_
      unfold State.newCall
      split
      · rw [State.lease_newCallObject, State.lease_record_channel]
      · rfl
  | startBatch j batch accepted =>
      obtain ⟨⟨-, hj⟩, rfl⟩ := Runs.when_eq_some.mp hs
      exact lease_startBatch core hj batch accepted
  | cancel j =>
      obtain ⟨-, rfl⟩ := Runs.when_eq_some.mp hs
      exact hidle (lease_cancelWith (by decide) j)
  | cancelWithStatus j =>
      obtain ⟨-, rfl⟩ := Runs.when_eq_some.mp hs
      exact hidle (lease_cancelWith (by decide) j)
  | newServer =>
      obtain ⟨-, rfl⟩ := Runs.when_eq_some.mp hs
      exact .idle
  | bind j =>
      obtain ⟨-, rfl⟩ := Runs.when_eq_some.mp hs
      refine hidle ?_
      unfold State.bind
      split
      · rfl
      · rw [State.lease_record_server]
  | start j accepted =>
      obtain ⟨-, rfl⟩ := Runs.when_eq_some.mp hs
      refine hidle ?_
      unfold State.start
      split
      · rfl
      · rw [lease_requestCall, State.lease_record_server, State.lease_modifyServer]
  | requestCall j accepted =>
      obtain ⟨-, rfl⟩ := Runs.when_eq_some.mp hs
      refine hidle ?_
      rw [lease_requestCall, State.lease_passCallback]
  | tryShutdown j =>
      obtain ⟨-, rfl⟩ := Runs.when_eq_some.mp hs
      refine hidle ?_
      unfold State.tryShutdown
      split
      · rw [State.lease_completionQueueNext, State.lease_addTag_none, State.lease_record_server,
          State.lease_passCallback]
      · rw [State.lease_record_callback, State.lease_passCallback]
  | forceShutdown j =>
      obtain ⟨-, rfl⟩ := Runs.when_eq_some.mp hs
      exact hidle (lease_shutdownServer j)
  | collect j =>
      obtain ⟨-, rfl⟩ := Runs.when_eq_some.mp hs
      refine hidle ?_
      rw [State.collect, lease_shutdownServer, State.lease_modifyServer]
  | drain =>
      obtain ⟨-, rfl⟩ := Runs.when_eq_some.mp hs
      exact .idle
  | complete j success accepted =>
      obtain ⟨tag, htag, hnone, rfl⟩ := complete_of_step hs
      exact hidle (lease_deliver hnone htag success accepted)
  | callbackReturns =>
      obtain ⟨tag, success, hrunning, rfl⟩ := callbackReturns_of_step hs
      exact lease_callbackReturns h hrunning
  | drainEnds =>
      obtain ⟨-, rfl⟩ := Runs.when_eq_some.mp hs
      exact .idle

/-- **The life of a call.** In every state of every run, for every wrapped call, `pending_batches`
is the number of batches that are outstanding, and the call has been released, once, exactly if a
batch with its status has completed and none is outstanding. When it has been released, a batch
only makes its callback report an error, and cancelling does nothing. -/
theorem always_callLifetime (core : Core) (acts : List Act) :
    Runs.Always (step core) (fun s => ∀ i, s.CallLifetime core i) {} acts := by
  have hinitial : ({} : State).Formed ∧ ∀ i, (({} : State).lease i).Good :=
    ⟨.initial, fun _ => Lease.Good.initial⟩
  have hstep : ∀ s a s', (s.Formed ∧ ∀ i, (s.lease i).Good) → step core s a = some s' →
      s'.Formed ∧ ∀ i, (s'.lease i).Good :=
    fun _ _ _ h hs => ⟨formed_step h.1 hs, fun i => (h.2 i).step (lease_step h.1 hs)⟩
  exact (Runs.always_of_invariant hstep hinitial acts).mono fun _ h i =>
    State.callLifetime_of_good core (h.2 i)

end GrpcNode.NativeCore.Addon
