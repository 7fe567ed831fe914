import GrpcNode.NativeCore.Addon
import Mathlib.Data.List.Perm.Basic

/-!
# GrpcNode.NativeCore.AddonTags

What holds of the state of the addon whatever it is looked at for: how the wrappers are updated,
and that there are five kinds of tags (`Tag.Formed`).

Most functions only make the state longer (`Extends`). Those that do more are the two halves of an
iteration of `drain_completion_queue`.
-/

namespace GrpcNode.NativeCore.Addon

/-! ### The wrappers -/

/-- An element of a list of which one element is modified -/
theorem getD_modify {α : Type*} (l : List α) (f : α → α) (default : α) {i : Nat}
    (h : i < l.length) (j : Nat) :
    (l.modify i f).getD j default = if i = j then f (l.getD j default) else l.getD j default := by
  rw [List.getD_eq_getElem?_getD, List.getD_eq_getElem?_getD, List.getElem?_modify]
  split
  · rename_i hij
    subst hij
    rw [List.getElem?_eq_getElem h]
    rfl
  · rw [Option.map_eq_map, Option.map_id_fun', id]

/-- A default at the end of a list is not seen. -/
theorem getD_append_default {α : Type*} (l : List α) (default : α) (i : Nat) :
    (l ++ [default]).getD i default = l.getD i default := by
  rw [List.getD_eq_getElem?_getD, List.getD_eq_getElem?_getD]
  rcases Nat.lt_trichotomy i l.length with h | rfl | h
  · rw [List.getElem?_append_left h]
  · rw [List.getElem?_concat_length, List.getElem?_eq_none (Nat.le_refl _)]
    rfl
  · rw [List.getElem?_eq_none (Nat.le_of_lt h), List.getElem?_eq_none]
    rw [List.length_append, List.length_singleton]
    omega

namespace State

variable {s : State}

/-- The wrapper of a call that may be the one that is modified -/
theorem call_modifyCall {i : Nat} (f : CallObject → CallObject) (h : i < s.calls.length) (j : Nat) :
    (s.modifyCall i f).call j = if i = j then f (s.call j) else s.call j :=
  getD_modify s.calls f {} h j

/-- The other wrappers are as they were. -/
theorem call_modifyCall_of_ne {i j : Nat} (f : CallObject → CallObject) (h : i ≠ j) :
    (s.modifyCall i f).call j = s.call j := by
  rw [call, call, List.getD_eq_getElem?_getD, List.getD_eq_getElem?_getD, modifyCall,
    List.getElem?_modify_ne _ _ h]

/-- The wrapper of a server that may be the one that is modified -/
theorem server_modifyServer {i : Nat} (f : ServerObject → ServerObject) (h : i < s.servers.length)
    (j : Nat) : (s.modifyServer i f).server j = if i = j then f (s.server j) else s.server j :=
  getD_modify s.servers f {} h j

/-- A server is known to the core by its number, as long as it is wrapped. -/
theorem wrappedServer_eq_some_iff {i handle : Nat} :
    s.wrappedServer i = some handle ↔ (s.server i).wrapped = true ∧ i = handle := by
  rw [wrappedServer, Option.ite_none_right_eq_some, Option.some.injEq]

/-- A wrapper that is new is like one that is not there yet. -/
@[simp] theorem call_newCallObject (i : Nat) : s.newCallObject.call i = s.call i :=
  getD_append_default s.calls {} i

/-- What no operation changes is not changed by all of them. -/
theorem foldl_frame {β : Type*} (view : State → β) {f : State → Op → State}
    (hf : ∀ s op, view (f s op) = view s) (ops : List Op) (s : State) :
    view (ops.foldl f s) = view s := by
  induction ops generalizing s with
  | nil => rfl
  | cons op ops ih => rw [List.foldl_cons, ih, hf]

/-- The queue and the counter are concerned, and nothing else. -/
theorem completionQueueNext_eq (s : State) : s.completionQueueNext = { s with
    pendingBatches := s.pendingBatches + 1
    prepare := if s.pendingBatches = 0 then true else s.prepare
    trace := s.trace ++ if s.pendingBatches = 0 ∧ s.prepare = true then [.assertFails] else [] } := by
  unfold completionQueueNext startPrepare
  by_cases hzero : s.pendingBatches = 0
  · cases hprepare : s.prepare with
    | true => simp [hzero, hprepare, record]
    | false => simp [hzero]
  · simp [hzero]

/-- What does not depend on the queue and the counter is as it was. -/
theorem completionQueueNext_frame {β : Type*} (view : State → β)
    (hrecord : ∀ s : State, view (s.record .assertFails) = view s)
    (hqueue : ∀ (s : State) (pendingBatches : Int) (prepare : Bool),
      view { s with pendingBatches, prepare } = view s) (s : State) :
    view s.completionQueueNext = view s := by
  let s' := if s.pendingBatches = 0 then s.startPrepare else s
  have hprepared : view s' = view s := by
    show view (if s.pendingBatches = 0 then s.startPrepare else s) = view s
    unfold startPrepare
    split
    · split
      · exact hrecord s
      · exact hqueue s s.pendingBatches true
    · rfl
  calc view s.completionQueueNext
      = view { s' with pendingBatches := s'.pendingBatches + 1, prepare := s'.prepare } := rfl
    _ = view s' := hqueue s' _ _
    _ = view s := hprepared

/-- `uv_prepare_stop` is called after the last tag, and the other fields are as they were. -/
theorem finishTag_eq (s : State) : s.finishTag = { s with
    running := none
    pendingBatches := s.pendingBatches - 1
    prepare := if s.pendingBatches - 1 = 0 then false else s.prepare } := by
  unfold finishTag
  dsimp only
  split <;> rfl

/-- The tag that was running is not outstanding anymore. -/
theorem outstanding_finishTag (s : State) : s.finishTag.outstanding = s.tags := by
  rw [finishTag_eq]
  exact List.append_nil _

/-- While a callback runs its tag is outstanding, too. -/
theorem outstanding_of_running {s : State} {tag : Tag} {success : Bool}
    (h : s.running = some (tag, success)) : s.outstanding = s.tags ++ [tag] := by
  rw [outstanding, h]
  rfl

/-- Between two events the outstanding tags are those that the core has. -/
theorem outstanding_of_idle {s : State} (h : s.running = none) : s.outstanding = s.tags := by
  rw [outstanding, h]
  exact List.append_nil _

/-- A tag that is delivered stays outstanding. -/
theorem outstanding_delivered {s : State} (hidle : s.running = none) {i : Nat} {tag : Tag}
    (htag : s.tags[i]? = some tag) (success : Bool) : List.Perm
    ({ s with tags := s.tags.eraseIdx i, running := some (tag, success) } : State).outstanding
    s.outstanding := by
  obtain ⟨hi, rfl⟩ := List.getElem?_eq_some_iff.mp htag
  rw [outstanding_of_idle hidle]
  exact (List.perm_append_singleton _ _).trans (List.getElem_cons_eraseIdx_perm hi)

end State

/-! ### The tags -/

/-- The tags that the addon makes, with as many wrappers. -/
inductive Tag.Formed (calls servers : Nat) : Tag → Prop
  | watch (n : Nat) : Formed calls servers { callback := .user n, ops := [] }
  | batch (n : Nat) (ops : List CoreOp) {i : Nat} : i < calls →
      Formed calls servers { callback := .user n, ops := ops.map .batch, call := some i }
  | newCall (callback : Callback) : Formed calls servers { callback, ops := [.newCall] }
  | tryShutdown (n : Nat) {i : Nat} : i < servers →
      Formed calls servers { callback := .user n, ops := [.tryShutdown i] }
  | serverShutdown (i : Nat) :
      Formed calls servers { callback := .serverShutdown, ops := [.serverShutdown i] }

/-- There are no other tags, and what runs has been delivered. -/
structure State.Formed (s : State) : Prop where
  tags : ∀ tag ∈ s.outstanding, tag.Formed s.calls.length s.servers.length
  running : ∀ tag success, s.running = some (tag, success) → .delivered tag success ∈ s.trace

/-- Some tags may have been added, and nothing has been lost. -/
structure Extends (s s' : State) : Prop where
  running : s'.running = s.running
  tags : ∀ tag ∈ s'.tags, tag ∈ s.tags ∨ tag.Formed s'.calls.length s'.servers.length
  calls : s.calls.length ≤ s'.calls.length
  servers : s.servers.length ≤ s'.servers.length
  trace : s.trace ⊆ s'.trace

/-- There may be more objects than before. -/
theorem Tag.Formed.mono {calls calls' servers servers' : Nat} {tag : Tag}
    (h : tag.Formed calls servers) (hcalls : calls ≤ calls') (hservers : servers ≤ servers') :
    tag.Formed calls' servers' := by
  cases h with
  | watch n => exact .watch n
  | batch n ops hi => exact .batch n ops (Nat.lt_of_lt_of_le hi hcalls)
  | newCall callback => exact .newCall callback
  | tryShutdown n hi => exact .tryShutdown n (Nat.lt_of_lt_of_le hi hservers)
  | serverShutdown i => exact .serverShutdown i

namespace Extends

variable {s s' s'' : State}

/-- A state extends itself. -/
theorem refl (s : State) : Extends s s :=
  ⟨rfl, fun _ h => .inl h, Nat.le_refl _, Nat.le_refl _, List.Subset.refl _⟩

/-- One thing after the other -/
theorem trans (h : Extends s s') (h' : Extends s' s'') : Extends s s'' where
  running := h'.running.trans h.running
  tags tag hmem := by
    rcases h'.tags tag hmem with hmem' | hformed
    · exact (h.tags tag hmem').imp_right fun hformed => hformed.mono h'.calls h'.servers
    · exact .inr hformed
  calls := Nat.le_trans h.calls h'.calls
  servers := Nat.le_trans h.servers h'.servers
  trace := List.Subset.trans h.trace h'.trace

/-- No tag has been added. -/
theorem of_tags (htags : s'.tags = s.tags) (hrunning : s'.running = s.running)
    (hcalls : s.calls.length ≤ s'.calls.length) (hservers : s.servers.length ≤ s'.servers.length)
    (htrace : s.trace ⊆ s'.trace) : Extends s s' :=
  ⟨hrunning, fun _ hmem => .inl (htags ▸ hmem), hcalls, hservers, htrace⟩

/-- Something is recorded, at the end. -/
theorem record (s : State) (e : Event) : Extends s (s.record e) :=
  .of_tags rfl rfl (Nat.le_refl _) (Nat.le_refl _) (List.subset_append_left _ _)

/-- A function is passed, which makes it known. -/
theorem passCallback (s : State) : Extends s s.passCallback :=
  .of_tags rfl rfl (Nat.le_refl _) (Nat.le_refl _) (List.Subset.refl _)

/-- A wrapper of a call is modified. -/
theorem modifyCall (s : State) (i : Nat) (f : CallObject → CallObject) :
    Extends s (s.modifyCall i f) :=
  .of_tags rfl rfl (Nat.le_of_eq (List.length_modify ..).symm) (Nat.le_refl _) (List.Subset.refl _)

/-- A wrapper of a channel is modified. -/
theorem modifyChannel (s : State) (i : Nat) (f : ChannelObject → ChannelObject) :
    Extends s (s.modifyChannel i f) :=
  .of_tags rfl rfl (Nat.le_refl _) (Nat.le_refl _) (List.Subset.refl _)

/-- A wrapper of a server is modified. -/
theorem modifyServer (s : State) (i : Nat) (f : ServerObject → ServerObject) :
    Extends s (s.modifyServer i f) :=
  .of_tags rfl rfl (Nat.le_refl _) (Nat.le_of_eq (List.length_modify ..).symm) (List.Subset.refl _)

/-- There is one call more. -/
theorem newCallObject (s : State) : Extends s s.newCallObject := by
  refine .of_tags rfl rfl ?_ (Nat.le_refl _) (List.Subset.refl _)
  rw [State.newCallObject, List.length_append]
  exact Nat.le_add_right _ _

/-- There is one tag more, of one of the five kinds. -/
theorem addTag {tag : Tag} (h : tag.Formed s.calls.length s.servers.length) :
    Extends s (s.addTag tag) :=
  { refl s with
    tags := fun tag' hmem => (List.mem_append.mp hmem).imp_right fun hlast => by
      obtain rfl := List.mem_singleton.mp hlast
      exact h }

/-- `CompletionQueueNext` only counts, and starts the handle. -/
theorem completionQueueNext (s : State) : Extends s s.completionQueueNext := by
  rw [State.completionQueueNext_eq]
  exact .of_tags rfl rfl (Nat.le_refl _) (Nat.le_refl _) (List.subset_append_left _ _)

/-- `Channel::Close` -/
theorem close (s : State) (i : Nat) : Extends s (s.close i) := by
  unfold State.close
  split
  · exact (record s _).trans (modifyChannel _ _ _)
  · exact refl s

/-- `Channel::WatchConnectivityState` adds a tag without operations. -/
theorem watchConnectivityState (s : State) (i : Nat) :
    Extends s (s.watchConnectivityState i) :=
  (((passCallback s).trans (record _ _)).trans (addTag (.watch _))).trans (completionQueueNext _)

/-- `Call::New` -/
theorem newCall (s : State) (i : Nat) : Extends s (s.newCall i) := by
  unfold State.newCall
  split
  · exact (record s _).trans (newCallObject _)
  · exact refl s

/-- `Call::StartBatch` adds a tag with the operations, or throws. -/
theorem startBatch (core : Core) {i : Nat} (h : i < s.calls.length) (batch : Batch)
    (accepted : Bool) : Extends s (s.startBatch core i batch accepted) := by
  unfold State.startBatch
  split
  · split
    · unfold State.startOps
      have hpassed := (passCallback s).trans (record _ (.core (.call .startBatch i)))
      split
      · exact ((hpassed.trans (addTag (.batch _ _ h))).trans (modifyCall _ _ _)).trans
          (completionQueueNext _)
      · exact hpassed
    · exact refl s
  · exact (passCallback s).trans (record _ _)

/-- `Call::Cancel` and `Call::CancelWithStatus` only call the core. -/
theorem cancelWith (s : State) (function : CallFunction) (i : Nat) :
    Extends s (s.cancelWith function i) := by
  unfold State.cancelWith
  split
  · exact record s _
  · exact refl s

/-- `Server::RequestCall` adds a tag for the new call, or throws. -/
theorem requestCall (s : State) (i : Nat) (callback : Callback) (accepted : Bool) :
    Extends s (s.requestCall i callback accepted) := by
  unfold State.requestCall
  dsimp only
  split
  · exact ((record s _).trans (addTag (.newCall _))).trans (completionQueueNext _)
  · exact record s _

/-- `Server::AddHttp2Port` -/
theorem bind (s : State) (i : Nat) : Extends s (s.bind i) := by
  unfold State.bind
  split
  · exact refl s
  · exact record s _

/-- `Server::Start`, and the first request of `handleNewCall` -/
theorem start (s : State) (i : Nat) (accepted : Bool) : Extends s (s.start i accepted) := by
  unfold State.start
  split
  · exact refl s
  · exact ((modifyServer s i _).trans (record _ _)).trans (requestCall _ _ _ _)

/-- `Server::TryShutdown` adds a tag for the server. -/
theorem tryShutdown {i : Nat} (h : i < s.servers.length) : Extends s (s.tryShutdown i) := by
  unfold State.tryShutdown
  split
  · exact (((passCallback s).trans (record _ _)).trans (addTag (.tryShutdown _ h))).trans
      (completionQueueNext _)
  · exact (passCallback s).trans (record _ _)

/-- `Server::ShutdownServer` adds a tag with the operation that destroys the server. -/
theorem shutdownServer (s : State) (i : Nat) : Extends s (s.shutdownServer i) := by
  unfold State.shutdownServer
  split
  · exact ((((record s _).trans (addTag (.serverShutdown _))).trans (record _ _)).trans
      (completionQueueNext _)).trans (modifyServer _ _ _)
  · exact refl s

/-- The value of a request is a new wrapper of a call; the other values are none. -/
theorem getNodeValue (s : State) (op : Op) : Extends s (s.getNodeValue op) := by
  cases op with
  | newCall => exact newCallObject s
  | _ => exact refl s

/-- What extends the state for each operation extends it for all of them. -/
theorem foldl {f : State → Op → State} (hf : ∀ s op, Extends s (f s op)) (ops : List Op)
    (s : State) : Extends s (ops.foldl f s) := by
  induction ops generalizing s with
  | nil => exact refl s
  | cons op ops ih => exact (hf s op).trans (ih (f s op))

/-- The callback of JavaScript code may call the addon again. -/
theorem runCallback (s : State) (callback : Callback) (success accepted : Bool) :
    Extends s (s.runCallback callback success accepted) := by
  unfold State.runCallback
  dsimp only
  split
  · exact (record s _).trans (requestCall _ _ _ _)
  · exact record s _

end Extends

/-! ### What `CompleteTag` does after the callback -/

/-- Something has been released, or a tag has completed. -/
def Event.Settles : Event → Prop
  | core (.call .unref _) | core (.server .destroy (some _)) | completed _ => True
  | _ => False

/-- There are three such events. -/
theorem Event.Settles.eq {e : Event} (h : e.Settles) :
    (∃ i, e = .core (.call .unref i)) ∨ (∃ i, e = .core (.server .destroy (some i))) ∨
      ∃ tag, e = .completed tag := by
  unfold Settles at h
  split at h
  · exact .inl ⟨_, rfl⟩
  · exact .inr (.inl ⟨_, rfl⟩)
  · exact .inr (.inr ⟨_, rfl⟩)
  · exact absurd h id

/-- Calls and servers may have been released, and nothing else. -/
structure Settles (s s' : State) : Prop where
  pendingBatches : s'.pendingBatches = s.pendingBatches
  prepare : s'.prepare = s.prepare
  tags : s'.tags = s.tags
  running : s'.running = s.running
  calls : s'.calls.length = s.calls.length
  servers : s'.servers.length = s.servers.length
  callbacks : s'.callbacks = s.callbacks
  trace : ∃ more, s'.trace = s.trace ++ more ∧ ∀ e ∈ more, e.Settles

namespace Settles

variable {s s' s'' : State}

/-- Nothing has happened. -/
theorem refl (s : State) : Settles s s :=
  ⟨rfl, rfl, rfl, rfl, rfl, rfl, rfl, [], (List.append_nil _).symm, fun _ h => absurd h List.not_mem_nil⟩

/-- One thing after the other -/
theorem trans (h : Settles s s') (h' : Settles s' s'') : Settles s s'' := by
  obtain ⟨more, hmore, hsettles⟩ := h.trace
  obtain ⟨more', hmore', hsettles'⟩ := h'.trace
  refine ⟨h'.pendingBatches.trans h.pendingBatches, h'.prepare.trans h.prepare,
    h'.tags.trans h.tags, h'.running.trans h.running, h'.calls.trans h.calls,
    h'.servers.trans h.servers, h'.callbacks.trans h.callbacks, more ++ more', ?_, ?_⟩
  · rw [hmore', hmore, List.append_assoc]
  · intro e hmem
    exact (List.mem_append.mp hmem).elim (hsettles e) (hsettles' e)

/-- Something is recorded that belongs to the second half. -/
theorem record (s : State) {e : Event} (h : e.Settles) : Settles s (s.record e) :=
  { refl s with
    trace := ⟨[e], rfl, fun _ hmem => List.mem_singleton.mp hmem ▸ h⟩ }

/-- A wrapper of a call is modified. -/
theorem modifyCall (s : State) (i : Nat) (f : CallObject → CallObject) :
    Settles s (s.modifyCall i f) :=
  ⟨rfl, rfl, rfl, rfl, List.length_modify .., rfl, rfl, (refl s).trace⟩

/-- A wrapper of a server is modified. -/
theorem modifyServer (s : State) (i : Nat) (f : ServerObject → ServerObject) :
    Settles s (s.modifyServer i f) :=
  ⟨rfl, rfl, rfl, rfl, rfl, List.length_modify .., rfl, (refl s).trace⟩

/-- `Call::DestroyCall` -/
theorem destroyCall (s : State) (i : Nat) : Settles s (s.destroyCall i) := by
  unfold State.destroyCall
  split
  · exact (record s (by trivial)).trans (modifyCall _ _ _)
  · exact refl s

/-- `Call::CompleteBatch` -/
theorem completeBatch (s : State) (i : Nat) (isFinalOp : Bool) :
    Settles s (s.completeBatch i isFinalOp) := by
  unfold State.completeBatch
  dsimp only
  split
  · exact (modifyCall s i _).trans (destroyCall _ i)
  · exact modifyCall s i _

/-- `Server::DestroyWrappedServer` -/
theorem destroyWrappedServer (s : State) (i : Nat) : Settles s (s.destroyWrappedServer i) := by
  unfold State.destroyWrappedServer
  split
  · exact (record s (by trivial)).trans (modifyServer _ _ _)
  · exact refl s

/-- `Op::OnComplete` -/
theorem onComplete (s : State) (success : Bool) (op : Op) :
    Settles s (s.onComplete success op) := by
  cases op with
  | batch op => exact refl s
  | newCall => exact refl s
  | serverShutdown i => exact record s trivial
  | tryShutdown i =>
      simp only [State.onComplete]
      split
      · exact destroyWrappedServer s i
      · exact refl s

/-- `Op::OnComplete` of all operations of a tag -/
theorem onCompletes (success : Bool) (ops : List Op) (s : State) :
    Settles s (ops.foldl (fun s op => s.onComplete success op) s) := by
  induction ops generalizing s with
  | nil => exact refl s
  | cons op ops ih => exact (onComplete s success op).trans (ih _)

/-- `CompleteTag`, after the callback has returned -/
theorem completeTag (s : State) (tag : Tag) (success : Bool) :
    Settles s (s.completeTag tag success) := by
  unfold State.completeTag
  dsimp only
  split
  · exact ((onCompletes success tag.ops s).trans (completeBatch _ _ _)).trans (record _ trivial)
  · exact (onCompletes success tag.ops s).trans (record _ trivial)

/-- What settles a tag only makes the state longer, too. -/
theorem toExtends (h : Settles s s') : Extends s s' := by
  obtain ⟨more, hmore, -⟩ := h.trace
  exact .of_tags h.tags h.running (Nat.le_of_eq h.calls.symm) (Nat.le_of_eq h.servers.symm)
    (hmore ▸ List.subset_append_left _ _)

end Settles

namespace State.Formed

variable {s s' : State}

/-- At first there is no tag. -/
theorem initial : ({} : State).Formed := ⟨fun _ h => absurd h List.not_mem_nil, nofun⟩

/-- Tags stay well formed. -/
theorem mono (h : s.Formed) (hext : Extends s s') : s'.Formed where
  tags tag hmem := by
    rw [State.outstanding, hext.running, List.mem_append] at hmem
    have hold : tag ∈ s.outstanding → tag.Formed s'.calls.length s'.servers.length := fun hmem =>
      (h.tags tag hmem).mono hext.calls hext.servers
    rcases hmem with hmem | hmem
    · rcases hext.tags tag hmem with hmem' | hformed
      · exact hold (List.mem_append_left _ hmem')
      · exact hformed
    · exact hold (List.mem_append_right _ hmem)
  running tag success hrunning := hext.trace (h.running tag success (hext.running ▸ hrunning))

/-- A tag is delivered. -/
theorem delivered (h : s.Formed) {i : Nat} {tag : Tag} (htag : s.tags[i]? = some tag)
    (success : Bool) :
    (State.record { s with tags := s.tags.eraseIdx i, running := some (tag, success) }
      (.delivered tag success)).Formed where
  tags tag' hmem := by
    refine h.tags tag' (List.mem_append_left _ ?_)
    rcases List.mem_append.mp hmem with hmem | hmem
    · exact List.mem_of_mem_eraseIdx hmem
    · obtain rfl := List.mem_singleton.mp hmem
      exact List.mem_of_getElem? htag
  running tag' success' hrunning := by
    obtain ⟨rfl, rfl⟩ := Prod.mk.inj (Option.some.inj hrunning)
    exact List.mem_append_right _ (List.mem_singleton_self _)

end State.Formed

/-- The first half of an iteration, after the tag has been taken from the queue -/
theorem extends_deliver (s : State) (i : Nat) (tag : Tag) (success accepted : Bool) :
    Extends (State.record { s with tags := s.tags.eraseIdx i, running := some (tag, success) }
      (.delivered tag success)) (s.deliver i tag success accepted) := by
  unfold State.deliver
  dsimp only
  split
  · exact (Extends.foldl Extends.getNodeValue tag.ops _).trans (Extends.runCallback _ _ _ _)
  · exact Extends.runCallback _ _ _ _

/-- When a tag is finished, there is one tag less. -/
theorem formed_finishTag {s : State} (h : s.Formed) : s.finishTag.Formed := by
  rw [State.finishTag_eq]
  refine ⟨fun tag hmem => h.tags tag ?_, nofun⟩
  rw [State.outstanding_of_idle rfl] at hmem
  exact List.mem_append_left _ hmem

/-- A tag is delivered in the drain loop. -/
theorem complete_of_step {core : Core} {s s' : State} {i : Nat} {success accepted : Bool}
    (hs : step core s (.complete i success accepted) = some s') :
    ∃ tag, s.tags[i]? = some tag ∧ s.running = none ∧ s' = s.deliver i tag success accepted := by
  simp only [step] at hs
  split at hs
  · rename_i tag htag
    obtain ⟨⟨-, hidle⟩, rfl⟩ := Runs.when_eq_some.mp hs
    exact ⟨tag, htag, hidle, rfl⟩
  · cases hs

/-- The second half of an iteration, of the tag whose callback has run -/
theorem callbackReturns_of_step {core : Core} {s s' : State}
    (hs : step core s .callbackReturns = some s') :
    ∃ tag success, s.running = some (tag, success) ∧ s' = (s.completeTag tag success).finishTag := by
  simp only [step] at hs
  split at hs
  · rename_i tag success hrunning
    exact ⟨tag, success, hrunning, (Option.some.inj hs).symm⟩
  · cases hs

/-- The addon makes its tags as it should. -/
theorem formed_step {core : Core} {s s' : State} {a : Act} (h : s.Formed)
    (hs : step core s a = some s') : s'.Formed := by
  cases a with
  | newChannel =>
      obtain ⟨-, rfl⟩ := Runs.when_eq_some.mp hs
      exact ⟨h.tags, h.running⟩
  | close i =>
      obtain ⟨-, rfl⟩ := Runs.when_eq_some.mp hs
      exact h.mono (.close s i)
  | getTarget i =>
      obtain ⟨-, rfl⟩ := Runs.when_eq_some.mp hs
      exact h.mono (.record s _)
  | getConnectivityState i =>
      obtain ⟨-, rfl⟩ := Runs.when_eq_some.mp hs
      exact h.mono (.record s _)
  | watchConnectivityState i =>
      obtain ⟨-, rfl⟩ := Runs.when_eq_some.mp hs
      exact h.mono (.watchConnectivityState s i)
  | newCall i =>
      obtain ⟨-, rfl⟩ := Runs.when_eq_some.mp hs
      exact h.mono (.newCall s i)
  | startBatch i batch accepted =>
      obtain ⟨⟨-, hi⟩, rfl⟩ := Runs.when_eq_some.mp hs
      exact h.mono (.startBatch core hi batch accepted)
  | cancel i =>
      obtain ⟨-, rfl⟩ := Runs.when_eq_some.mp hs
      exact h.mono (.cancelWith s .cancel i)
  | cancelWithStatus i =>
      obtain ⟨-, rfl⟩ := Runs.when_eq_some.mp hs
      exact h.mono (.cancelWith s .cancelWithStatus i)
  | newServer =>
      obtain ⟨-, rfl⟩ := Runs.when_eq_some.mp hs
      refine h.mono (.of_tags rfl rfl (Nat.le_refl _) ?_ (List.Subset.refl _))
      rw [List.length_append]
      exact Nat.le_add_right _ _
  | bind i =>
      obtain ⟨-, rfl⟩ := Runs.when_eq_some.mp hs
      exact h.mono (.bind s i)
  | start i accepted =>
      obtain ⟨-, rfl⟩ := Runs.when_eq_some.mp hs
      exact h.mono (.start s i accepted)
  | requestCall i accepted =>
      obtain ⟨-, rfl⟩ := Runs.when_eq_some.mp hs
      exact h.mono ((Extends.passCallback s).trans (.requestCall _ i _ accepted))
  | tryShutdown i =>
      obtain ⟨⟨-, hi, -⟩, rfl⟩ := Runs.when_eq_some.mp hs
      exact h.mono (.tryShutdown hi)
  | forceShutdown i =>
      obtain ⟨-, rfl⟩ := Runs.when_eq_some.mp hs
      exact h.mono (.shutdownServer s i)
  | collect i =>
      obtain ⟨-, rfl⟩ := Runs.when_eq_some.mp hs
      exact h.mono ((Extends.modifyServer s i _).trans (.shutdownServer _ i))
  | drain =>
      obtain ⟨-, rfl⟩ := Runs.when_eq_some.mp hs
      exact ⟨h.tags, h.running⟩
  | complete i success accepted =>
      obtain ⟨tag, htag, -, rfl⟩ := complete_of_step hs
      exact (h.delivered htag success).mono (extends_deliver s i tag success accepted)
  | callbackReturns =>
      obtain ⟨tag, success, hrunning, rfl⟩ := callbackReturns_of_step hs
      exact formed_finishTag (h.mono (Settles.completeTag s tag success).toExtends)
  | drainEnds =>
      obtain ⟨-, rfl⟩ := Runs.when_eq_some.mp hs
      exact ⟨h.tags, h.running⟩

end GrpcNode.NativeCore.Addon
