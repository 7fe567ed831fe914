import GrpcNode.JsCore.Channel

/-!
# GrpcNode.JsCore.ChannelConnect

The callbacks that are passed to `connect`.

`Waiting` is the part of the state that tells where each callback is: behind a listener,
given to `setImmediate`, dropped, or run. The invariant `Waiting.Good` counts: every callback
is in exactly one of the four places. A callback is lost when its listener, which is made for
one event, is used up by a transition to another state than `READY`; and it is missed when
the channel gets ready after that (`noneLost_iff`).
-/

namespace GrpcNode.JsCore.Channel

open GrpcNode.Js

/-! ### Where the callbacks are -/

structure Waiting where
  connectivityState : ConnectivityState
  listeners : List Listener
  emitting : Option (List Listener)
  immediates : List Immediate
  nextId : Nat
  passed : List Nat
  dropped : List Nat
  invoked : List Nat

/-- The callback that a function given to `setImmediate` is. -/
def Immediate.id? : Immediate → Option Nat
  | .callback listener => some listener.id
  | .restart _ => none

namespace Waiting

variable (w : Waiting)

/-- In how many places the callback `id` is. -/
def places (id : Nat) : Nat :=
  (w.listeners.map Listener.id).count id + (w.immediates.filterMap Immediate.id?).count id +
    w.dropped.count id + w.invoked.count id

def transition (newState : ConnectivityState) : Waiting :=
  if newState = w.connectivityState then w
  else if newState = .ready then
    { w with connectivityState := newState, emitting := some w.listeners }
  else
    { w with
      connectivityState := newState
      listeners := []
      dropped := w.dropped ++ w.listeners.map Listener.id }

def kick : Waiting := if w.connectivityState = .idle then w.transition .connecting else w

def pass : Waiting :=
  { w with
    nextId := w.nextId + 1
    passed := if w.connectivityState = .shutdown then w.passed else w.passed ++ [w.nextId] }

def waitReady (listener : Listener) : Waiting :=
  if w.connectivityState = .ready then
    { w with immediates := w.immediates ++ [.callback listener] }
  else { w with listeners := w.listeners ++ [listener] }

def connect (callback : Callback) : Waiting := w.pass.kick.waitReady ⟨w.nextId, callback⟩

def emitNext (listener : Listener) (rest : List Listener) : Waiting :=
  if listener ∈ w.listeners then
    { w with
      emitting := some rest
      listeners := w.listeners.erase listener
      invoked := w.invoked ++ [listener.id] }
  else { w with emitting := some rest }

/-- What a step can do to the callbacks, the `'connect'` event of a session apart. -/
inductive Step : Waiting → Prop
  | same : Step w
  | drops (newState : ConnectivityState) : newState ≠ .ready → Step (w.transition newState)
  | connects (callback : Callback) : Step (w.connect callback)
  | connectsTwice (first second : Callback) : Step ((w.connect first).connect second)
  | emitsNext {listener : Listener} {rest : List Listener} :
      w.emitting = some (listener :: rest) → Step (w.emitNext listener rest)
  | emitted : w.emitting = some [] → Step { w with emitting := none }
  | runs {listener : Listener} {rest : List Immediate} :
      w.immediates = .callback listener :: rest →
      Step { w with immediates := rest, invoked := w.invoked ++ [listener.id] }
  | restarts {call : Nat} {rest : List Immediate} (callback : Callback) :
      w.immediates = .restart call :: rest →
      Step ({ w with immediates := rest }.connect callback)
  | restartsTwice {call : Nat} {rest : List Immediate} (first second : Callback) :
      w.immediates = .restart call :: rest →
      Step (({ w with immediates := rest }.connect first).connect second)
  | retries (call : Nat) : Step { w with immediates := w.immediates ++ [.restart call] }

end Waiting

namespace State

variable {γ : Type} (s : State γ)

def waiting : Waiting where
  connectivityState := s.connectivityState
  listeners := s.listeners
  emitting := s.emitting
  immediates := s.immediates
  nextId := s.nextId
  passed := s.passed
  dropped := s.dropped
  invoked := s.invoked

/-! ### What the functions do to it -/

theorem waiting_transitionToState (newState : ConnectivityState) :
    (s.transitionToState newState).waiting = s.waiting.transition newState := by
  unfold transitionToState Waiting.transition emit
  by_cases h : newState = s.connectivityState
  · rw [if_pos h, if_pos (show newState = s.waiting.connectivityState from h)]
  · rw [if_neg h, if_neg (show newState ≠ s.waiting.connectivityState from h)]
    split <;> rfl

theorem waiting_kickConnectivityState : s.kickConnectivityState.waiting = s.waiting.kick := by
  unfold kickConnectivityState Waiting.kick
  by_cases h : s.connectivityState = .idle
  · rw [if_pos h, if_pos (show s.waiting.connectivityState = .idle from h)]
    exact s.waiting_transitionToState .connecting
  · rw [if_neg h, if_neg (show s.waiting.connectivityState ≠ .idle from h)]

theorem waiting_waitReady (listener : Listener) :
    (s.waitReady listener).waiting = s.waiting.waitReady listener := by
  unfold waitReady Waiting.waitReady
  by_cases h : s.connectivityState = .ready
  · rw [if_pos h, if_pos (show s.waiting.connectivityState = .ready from h)]
    rfl
  · rw [if_neg h, if_neg (show s.waiting.connectivityState ≠ .ready from h)]
    rfl

theorem waiting_connect (callback : Callback) :
    (s.connect callback).waiting = s.waiting.connect callback := by
  rw [connect, waiting_waitReady, waiting_kickConnectivityState]
  rfl

theorem waiting_startHttp2Stream (call : Nat) (deadline : JsNumber) :
    (∃ callback, (s.startHttp2Stream call deadline).waiting = s.waiting.connect callback) ∨
      ∃ first second,
        (s.startHttp2Stream call deadline).waiting = (s.waiting.connect first).connect second := by
  unfold startHttp2Stream
  dsimp only
  by_cases h : deadline = noDeadline
  · rw [if_pos h, waiting_connect]
    exact .inl ⟨_, rfl⟩
  · rw [if_neg h, waiting_connect, waiting_connect]
    exact .inr ⟨_, _, rfl⟩

theorem waiting_goIdle :
    s.goIdle.waiting = s.waiting ∨ s.goIdle.waiting = s.waiting.transition .idle := by
  unfold goIdle
  split
  · exact .inr (waiting_transitionToState _ .idle)
  · exact .inr (waiting_transitionToState _ .idle)
  · exact .inl rfl

theorem waiting_shutdownSubChannel : s.shutdownSubChannel.waiting = s.waiting := by
  unfold shutdownSubChannel
  split <;> rfl

theorem waiting_close :
    s.close.waiting = s.waiting ∨ s.close.waiting = s.waiting.transition .shutdown := by
  unfold close
  split
  · exact .inl rfl
  · rw [waiting_shutdownSubChannel]
    exact .inr (waiting_transitionToState _ .shutdown)

/-- The calls have no part in it. -/
theorem waiting_of_bare {s s' : State γ} (h : s'.bare = s.bare) : s'.waiting = s.waiting := by
  show s'.bare.waiting = s.bare.waiting
  rw [h]

theorem waiting_invoke (now : Int) (listener : Listener) :
    (s.invoke now listener).waiting =
      { s.waiting with invoked := s.invoked ++ [listener.id] } :=
  waiting_of_bare (bare_runCallback { s with invoked := s.invoked ++ [listener.id] } now
    listener.callback)

theorem waiting_emitNext (now : Int) (listener : Listener) (rest : List Listener) :
    (s.emitNext now listener rest).waiting = s.waiting.emitNext listener rest := by
  unfold emitNext Waiting.emitNext
  dsimp only
  by_cases h : listener ∈ s.listeners
  · rw [if_pos h, if_pos (show listener ∈ s.waiting.listeners from h), waiting_invoke]
    rfl
  · rw [if_neg h, if_neg (show listener ∉ s.waiting.listeners from h)]
    rfl

end State

/-- **What a step does to the callbacks**, in two parts. The `'connect'` event of a session
lets the event for `READY` begin. -/
theorem waiting_sessionConnect {γ : Type} {config : Config γ} {s s' : State γ} {i : Nat}
    (h : step config s (.sessionConnect i) = some s') :
    s'.waiting = s.waiting.transition .ready := by
  rw [← (Runs.when_eq_some.mp h).2]
  exact State.waiting_transitionToState _ .ready

/-- Every other action keeps out of `READY`. -/
theorem step_waiting {γ : Type} {config : Config γ} {s s' : State γ} {a : Act γ}
    (h : step config s a = some s') (ha : ∀ i, a ≠ .sessionConnect i) :
    s.waiting.Step s'.waiting := by
  have same : ∀ {w : Waiting}, w = s.waiting → s.waiting.Step w := by
    rintro w rfl
    exact .same
  cases step_effect h with
  | connect =>
      rw [s.waiting_connect]
      exact .connects .user
  | create _ _ _ _ =>
      rcases State.waiting_startHttp2Stream _ _ _ with ⟨callback, hw⟩ | ⟨first, second, hw⟩
      · rw [hw]
        exact .connects callback
      · rw [hw]
        exact .connectsTwice first second
  | refuse _ _ _ _ => exact same rfl
  | close =>
      rcases s.waiting_close with hw | hw
      · exact same hw
      · rw [hw]
        exact .drops .shutdown nofun
  | @sessionConnect i _ _ _ _ => exact absurd rfl (ha i)
  | sessionTimeout _ _ =>
      rcases s.waiting_goIdle with hw | hw
      · exact same hw
      · rw [hw]
        exact .drops .idle nofun
  | emitted _ hemitting => exact .emitted hemitting
  | emitNext _ hemitting =>
      rw [s.waiting_emitNext]
      exact .emitsNext hemitting
  | invoke _ _ himmediates =>
      rw [State.waiting_invoke]
      exact .runs himmediates
  | restart _ _ himmediates =>
      rcases State.waiting_startHttp2Stream _ _ _ with ⟨callback, hw⟩ | ⟨first, second, hw⟩
      · rw [hw]
        exact .restarts callback himmediates
      · rw [hw]
        exact .restartsTwice first second himmediates
  | filter _ _ _ hfilter => exact same (State.waiting_of_bare (s.bare_filter hfilter))
  | @settle _ attempt _ _ _ _ _ _ hsettle =>
      rcases s.bare_settle hsettle with hbare | hbare
      · exact same (State.waiting_of_bare hbare)
      · rw [State.waiting_of_bare hbare]
        exact .retries attempt.call
  | callEnds _ _ => exact same rfl

/-! ### The invariant -/

namespace Waiting

/-- Every callback is in one place, those passed among them; and in the state `READY` the
listeners that are left are being called. -/
structure Good (w : Waiting) : Prop where
  places : ∀ id, w.places id = if id < w.nextId then 1 else 0
  passed : ∀ id ∈ w.passed, id < w.nextId
  listeners : w.connectivityState = .ready → ∀ listener ∈ w.listeners,
    ∃ rest, w.emitting = some rest ∧ listener ∈ rest

variable {w w' : Waiting}

theorem places_transition (newState : ConnectivityState) (id : Nat) :
    (w.transition newState).places id = w.places id := by
  unfold transition
  split
  · rfl
  · split
    · rfl
    · simp only [places, List.map_nil, List.count_nil, List.count_append]
      omega

theorem Good.transition (hw : w.Good) (newState : ConnectivityState) :
    (w.transition newState).Good := by
  have hplaces := fun id => (places_transition newState id).trans (hw.places id)
  unfold Waiting.transition at hplaces ⊢
  by_cases hsame : newState = w.connectivityState
  · rwa [if_pos hsame]
  · simp only [if_neg hsame] at hplaces ⊢
    by_cases hready : newState = .ready
    · simp only [if_pos hready] at hplaces ⊢
      exact ⟨hplaces, hw.passed, fun _ listener hmem => ⟨w.listeners, rfl, hmem⟩⟩
    · simp only [if_neg hready] at hplaces ⊢
      exact ⟨hplaces, hw.passed, fun h => absurd h hready⟩

theorem places_kick (id : Nat) : w.kick.places id = w.places id := by
  unfold kick
  split
  · exact places_transition .connecting id
  · rfl

theorem places_waitReady (listener : Listener) (id : Nat) :
    (w.waitReady listener).places id = w.places id + if listener.id = id then 1 else 0 := by
  have hcount : [listener.id].count id = if listener.id = id then 1 else 0 := by
    simp [List.count_cons]
  unfold waitReady
  split
  · simp only [places, List.filterMap_append, List.count_append]
    rw [← hcount]
    simp only [List.filterMap_cons, List.filterMap_nil, Immediate.id?]
    omega
  · simp only [places, List.map_append, List.count_append, List.map_cons, List.map_nil]
    rw [← hcount]
    omega

theorem kick_fields : w.kick.nextId = w.nextId ∧ w.kick.passed = w.passed ∧
    (w.kick.connectivityState = .ready → w.kick = w) := by
  unfold kick
  split
  · rename_i hidle
    unfold transition
    rw [hidle]
    exact ⟨rfl, rfl, nofun⟩
  · exact ⟨rfl, rfl, fun _ => rfl⟩

theorem waitReady_fields (listener : Listener) :
    (w.waitReady listener).nextId = w.nextId ∧ (w.waitReady listener).passed = w.passed ∧
      (w.waitReady listener).dropped = w.dropped ∧
      (w.waitReady listener).connectivityState = w.connectivityState ∧
      (w.waitReady listener).emitting = w.emitting ∧
      (w.connectivityState = .ready → (w.waitReady listener).listeners = w.listeners) := by
  unfold waitReady
  split
  · exact ⟨rfl, rfl, rfl, rfl, rfl, fun _ => rfl⟩
  · rename_i h
    exact ⟨rfl, rfl, rfl, rfl, rfl, fun hready => absurd hready h⟩

theorem mem_passed_pass {id : Nat} (h : id ∈ w.pass.passed) : id ∈ w.passed ∨ id = w.nextId := by
  simp only [pass] at h
  split at h
  · exact .inl h
  · simpa using h

theorem Good.connect (hw : w.Good) (callback : Callback) : (w.connect callback).Good := by
  obtain ⟨hnext, hpassed, hready⟩ := kick_fields (w := w.pass)
  obtain ⟨hnext', hpassed', -, hstate, hemitting, hlisteners⟩ :=
    waitReady_fields (w := w.pass.kick) ⟨w.nextId, callback⟩
  refine ⟨fun id => ?_, fun id hid => ?_, fun h listener hmem => ?_⟩
  · have hplaces : w.pass.places id = if id < w.nextId then 1 else 0 := hw.places id
    rw [Waiting.connect, places_waitReady, places_kick, hplaces, hnext', hnext]
    show _ = if id < w.nextId + 1 then 1 else 0
    by_cases hlt : id < w.nextId
    · simp [hlt, Nat.ne_of_gt hlt, Nat.lt_succ_of_lt hlt]
    · by_cases heq : w.nextId = id
      · simp [heq]
      · rw [if_neg hlt, if_neg heq, if_neg (by omega)]
  · rw [Waiting.connect, hpassed', hpassed] at hid
    rw [Waiting.connect, hnext', hnext]
    show id < w.nextId + 1
    rcases mem_passed_pass hid with hold | rfl
    · exact Nat.lt_succ_of_lt (hw.passed id hold)
    · exact Nat.lt_succ_self _
  · -- A channel that is ready now was ready before, and its listeners are the same.
    rw [Waiting.connect, hstate] at h
    rw [Waiting.connect, hlisteners h, hready h] at hmem
    rw [Waiting.connect, hemitting, hready h]
    exact hw.listeners ((congrArg connectivityState (hready h)).symm.trans h) listener hmem

/-! Calling a listener moves its callback from one place to another. -/

theorem count_erase_listener {listeners : List Listener} {listener : Listener}
    (h : listener ∈ listeners) (id : Nat) :
    (listeners.map Listener.id).count id =
      ((listeners.erase listener).map Listener.id).count id +
        if listener.id = id then 1 else 0 := by
  have hperm := ((List.perm_cons_erase h).map Listener.id).count_eq id
  rw [hperm, List.map_cons, List.count_cons]
  simp

/-- A listener is there once. -/
theorem Good.not_mem_erase (hw : w.Good) {listener : Listener} :
    listener ∉ w.listeners.erase listener := by
  intro hmem
  have hplaces := hw.places listener.id
  have hcount := count_erase_listener (List.mem_of_mem_erase hmem) listener.id
  have hpos : 0 < ((w.listeners.erase listener).map Listener.id).count listener.id :=
    List.count_pos_iff.mpr (List.mem_map_of_mem hmem)
  rw [if_pos rfl] at hcount
  unfold Waiting.places at hplaces
  split at hplaces <;> omega

theorem Good.emitNext (hw : w.Good) {listener : Listener} {rest : List Listener}
    (hemitting : w.emitting = some (listener :: rest)) : (w.emitNext listener rest).Good := by
  have hleft : w.connectivityState = .ready → ∀ l ∈ w.listeners, l ≠ listener → l ∈ rest := by
    intro hready l hl hne
    obtain ⟨ls, hls, hmem⟩ := hw.listeners hready l hl
    rw [hemitting, Option.some.injEq] at hls
    rw [← hls] at hmem
    rcases List.mem_cons.mp hmem with heq | hmem
    · exact absurd heq hne
    · exact hmem
  unfold Waiting.emitNext
  by_cases h : listener ∈ w.listeners
  · rw [if_pos h]
    refine ⟨fun id => ?_, hw.passed, fun hready l hl => ⟨rest, rfl, ?_⟩⟩
    · have hplaces := hw.places id
      have hcount := count_erase_listener h id
      have hsingle : [listener.id].count id = if listener.id = id then 1 else 0 := by
        simp [List.count_cons]
      simp only [Waiting.places, List.count_append] at hplaces ⊢
      rw [← hplaces]
      omega
    · refine hleft hready l (List.mem_of_mem_erase hl) fun heq => ?_
      rw [heq] at hl
      exact hw.not_mem_erase hl
  · rw [if_neg h]
    refine ⟨hw.places, hw.passed, fun hready l hl => ⟨rest, rfl, ?_⟩⟩
    exact hleft hready l hl fun heq => h (heq ▸ hl)

/-- A function given to `setImmediate` is taken from the queue. -/
theorem Good.takeRestart (hw : w.Good) {call : Nat} {rest : List Immediate}
    (h : w.immediates = .restart call :: rest) : { w with immediates := rest }.Good := by
  refine ⟨fun id => ?_, hw.passed, hw.listeners⟩
  have hplaces := hw.places id
  simpa only [Waiting.places, h, List.filterMap_cons, Immediate.id?] using hplaces

/-- **The invariant is kept.** -/
theorem Good.step (hw : w.Good) (h : w.Step w') : w'.Good := by
  cases h with
  | same => exact hw
  | drops newState _ => exact hw.transition newState
  | connects callback => exact hw.connect callback
  | connectsTwice first second => exact (hw.connect first).connect second
  | emitsNext hemitting => exact hw.emitNext hemitting
  | emitted hemitting =>
      refine ⟨hw.places, hw.passed, fun hready l hl => ?_⟩
      obtain ⟨ls, hls, hmem⟩ := hw.listeners hready l hl
      rw [hemitting, Option.some.injEq] at hls
      rw [← hls] at hmem
      exact absurd hmem List.not_mem_nil
  | runs himmediates =>
      refine ⟨fun id => ?_, hw.passed, hw.listeners⟩
      have hplaces := hw.places id
      simp only [Waiting.places, himmediates, List.filterMap_cons, Immediate.id?, List.count_append,
        List.count_cons, List.count_nil] at hplaces ⊢
      omega
  | restarts callback himmediates => exact (hw.takeRestart himmediates).connect callback
  | restartsTwice first second himmediates =>
      exact ((hw.takeRestart himmediates).connect first).connect second
  | retries call =>
      refine ⟨fun id => ?_, hw.passed, hw.listeners⟩
      have hplaces := hw.places id
      simpa [Waiting.places, List.filterMap_append, List.filterMap_cons, Immediate.id?] using hplaces

/-! ### Getting ready -/

/-- A callback is scheduled, if it is given to `setImmediate`, or its listener is about to be
called for `READY`. -/
def Scheduled (w : Waiting) (id : Nat) : Prop :=
  id ∈ w.immediates.filterMap Immediate.id? ∨
    ∃ listener rest, w.emitting = some rest ∧ listener ∈ rest ∧ listener ∈ w.listeners ∧
      listener.id = id

theorem Good.count_le_one (hw : w.Good) (id : Nat) : w.places id ≤ 1 := by
  rw [hw.places id]
  split <;> omega

theorem Good.nodup_invoked (hw : w.Good) : w.invoked.Nodup := by
  rw [List.nodup_iff_count_le_one]
  intro id
  have hle := hw.count_le_one id
  unfold Waiting.places at hle
  omega

/-- In the state `READY`, exactly the dropped callbacks are missed. -/
theorem Good.mem_dropped_iff (hw : w.Good) (hready : w.connectivityState = .ready) {id : Nat}
    (hid : id ∈ w.passed) : id ∈ w.dropped ↔ ¬ (id ∈ w.invoked ∨ w.Scheduled id) := by
  have hplaces := hw.places id
  rw [if_pos (hw.passed id hid)] at hplaces
  unfold Waiting.places at hplaces
  constructor
  · intro hdropped hor
    have hpos := List.count_pos_iff.mpr hdropped
    rcases hor with hinvoked | himmediate | ⟨listener, rest, -, -, hmem, rfl⟩
    · have := List.count_pos_iff.mpr hinvoked
      omega
    · have := List.count_pos_iff.mpr himmediate
      omega
    · have := List.count_pos_iff.mpr (List.mem_map_of_mem (f := Listener.id) hmem)
      omega
  · intro hnot
    by_contra hdropped
    have hzero : w.dropped.count id = 0 := List.count_eq_zero.mpr hdropped
    have hinvoked : w.invoked.count id = 0 := List.count_eq_zero.mpr fun h => hnot (.inl h)
    have himmediate : (w.immediates.filterMap Immediate.id?).count id = 0 :=
      List.count_eq_zero.mpr fun h => hnot (.inr (.inl h))
    -- In none of the other three places, so behind a listener, which is being called.
    have hlistener : 0 < (w.listeners.map Listener.id).count id := by omega
    obtain ⟨listener, hmem, rfl⟩ := List.mem_map.mp (List.count_pos_iff.mp hlistener)
    obtain ⟨rest, hemitting, hrest⟩ := hw.listeners hready listener hmem
    exact hnot (.inr (.inr ⟨listener, rest, hemitting, hrest, hmem, rfl⟩))

/-- A step that leaves the channel ready found it ready, dropped nothing, and passed no
callback that was dropped before. -/
structure StaysReady (w w' : Waiting) : Prop where
  ready : w.connectivityState = .ready
  dropped : w'.dropped = w.dropped
  passed : ∀ id ∈ w'.passed, id ∈ w.passed ∨ w.nextId ≤ id
  nextId : w.nextId ≤ w'.nextId

theorem StaysReady.refl (h : w.connectivityState = .ready) : w.StaysReady w :=
  ⟨h, rfl, fun _ hid => .inl hid, Nat.le_refl _⟩

theorem StaysReady.trans {u : Waiting} (h : w.StaysReady w') (h' : w'.StaysReady u) :
    w.StaysReady u := by
  refine ⟨h.ready, h'.dropped.trans h.dropped, fun id hid => ?_, Nat.le_trans h.nextId h'.nextId⟩
  rcases h'.passed id hid with hid | hid
  · exact h.passed id hid
  · exact .inr (Nat.le_trans h.nextId hid)

theorem staysReady_connect {callback : Callback}
    (h : (w.connect callback).connectivityState = .ready) : w.StaysReady (w.connect callback) := by
  obtain ⟨hnext', hpassed', hdropped', hstate, -, -⟩ :=
    waitReady_fields (w := w.pass.kick) ⟨w.nextId, callback⟩
  have hkick : w.pass.kick = w.pass := kick_fields.2.2 (hstate.symm.trans h)
  rw [hkick] at hnext' hpassed' hdropped' hstate
  rw [connect, hkick] at h ⊢
  refine ⟨hstate.symm.trans h, hdropped', fun id hid => ?_, ?_⟩
  · rw [hpassed'] at hid
    rcases mem_passed_pass hid with hid | rfl
    · exact .inl hid
    · exact .inr (Nat.le_refl _)
  · rw [hnext']
    exact Nat.le_succ _

theorem Step.staysReady (h : w.Step w') (hready : w'.connectivityState = .ready) :
    w.StaysReady w' := by
  cases h with
  | same => exact .refl hready
  | drops newState hne =>
      unfold transition at hready ⊢
      split at hready
      · rename_i hsame
        rw [if_pos hsame]
        exact .refl hready
      · exact absurd hready hne
  | connects callback => exact staysReady_connect hready
  | connectsTwice first second =>
      have hsecond := staysReady_connect hready
      exact (staysReady_connect hsecond.ready).trans hsecond
  | emitsNext hemitting =>
      unfold emitNext at hready ⊢
      split at hready
      · rename_i hmem
        rw [if_pos hmem]
        exact ⟨hready, rfl, fun _ hid => .inl hid, Nat.le_refl _⟩
      · rename_i hmem
        rw [if_neg hmem]
        exact ⟨hready, rfl, fun _ hid => .inl hid, Nat.le_refl _⟩
  | emitted hemitting => exact ⟨hready, rfl, fun _ hid => .inl hid, Nat.le_refl _⟩
  | runs himmediates => exact ⟨hready, rfl, fun _ hid => .inl hid, Nat.le_refl _⟩
  | restarts callback himmediates =>
      have h := staysReady_connect hready
      exact ⟨h.ready, h.dropped, h.passed, h.nextId⟩
  | restartsTwice first second himmediates =>
      have hsecond := staysReady_connect hready
      have h := (staysReady_connect hsecond.ready).trans hsecond
      exact ⟨h.ready, h.dropped, h.passed, h.nextId⟩
  | retries call => exact ⟨hready, rfl, fun _ hid => .inl hid, Nat.le_refl _⟩

end Waiting

variable {γ : Type} {config : Config γ} {s s' : State γ} {a : Act γ}

/-- A callback runs at most once, and a channel that is ready has run or scheduled every
callback that was passed to it before it was shut down. -/
structure NoneLost (s : State γ) : Prop where
  once : s.invoked.Nodup
  ready : s.connectivityState = .ready → ∀ id ∈ s.passed, id ∈ s.invoked ∨ s.waiting.Scheduled id

/-- A `'connect'` event finds no callback whose listener was used up before. -/
def NoneDropped (s : State γ) : Act γ → Prop
  | .sessionConnect _ => ∀ id ∈ s.passed, id ∉ s.dropped
  | _ => True

theorem noneLost_good (hs : s.waiting.Good) :
    NoneLost s ↔ (s.connectivityState = .ready → ∀ id ∈ s.passed, id ∉ s.dropped) := by
  constructor
  · intro h hready id hid hdropped
    exact (hs.mem_dropped_iff hready hid).mp hdropped (h.ready hready id hid)
  · intro h
    refine ⟨hs.nodup_invoked, fun hready id hid => ?_⟩
    by_contra hnot
    exact h hready id hid ((hs.mem_dropped_iff hready hid).mpr hnot)

theorem waiting_good_step (hs : s.waiting.Good) (h : step config s a = some s') :
    s'.waiting.Good := by
  cases a with
  | sessionConnect i =>
      rw [waiting_sessionConnect h]
      exact hs.transition .ready
  | _ => exact hs.step (step_waiting h fun _ => nofun)

theorem initial_waiting_good (objects : Nat → Metadata) :
    (State.initial objects : State γ).waiting.Good :=
  ⟨fun _ => rfl, nofun, nofun⟩

/-- One step: nothing is lost exactly if a `'connect'` event finds nothing dropped. -/
theorem noneLost_step (hgood : s.waiting.Good) (hs : NoneLost s)
    (h : step config s a = some s') : NoneLost s' ↔ NoneDropped s a := by
  have hgood' := waiting_good_step hgood h
  rw [noneLost_good hgood] at hs
  rw [noneLost_good hgood']
  have hother : (∀ i, a ≠ .sessionConnect i) → s'.connectivityState = .ready →
      ∀ id ∈ s'.passed, id ∉ s'.dropped := by
    intro ha hready id hid hdropped
    have hstays := (step_waiting h ha).staysReady hready
    have hdropped' : id ∈ s.dropped := by
      rw [show s.dropped = s'.dropped from hstays.dropped.symm]
      exact hdropped
    rcases hstays.passed id hid with hold | hnew
    · exact hs hstays.ready id hold hdropped'
    · -- A callback that is passed now has not been anywhere yet.
      have hplaces := hgood.places id
      rw [if_neg (Nat.not_lt.mpr hnew)] at hplaces
      have hpos : 0 < s.waiting.dropped.count id := List.count_pos_iff.mpr hdropped'
      unfold Waiting.places at hplaces
      omega
  cases a with
  | sessionConnect i =>
      have hwaiting := waiting_sessionConnect h
      have hfields : s'.connectivityState = .ready ∧ s'.passed = s.passed ∧
          s'.dropped = s.dropped := by
        have hstate := congrArg Waiting.connectivityState hwaiting
        have hpassed := congrArg Waiting.passed hwaiting
        have hdropped := congrArg Waiting.dropped hwaiting
        unfold Waiting.transition at hstate hpassed hdropped
        by_cases hsame : ConnectivityState.ready = s.waiting.connectivityState
        · simp only [if_pos hsame] at hstate hpassed hdropped
          exact ⟨hstate.trans hsame.symm, hpassed, hdropped⟩
        · simp only [if_neg hsame] at hstate hpassed hdropped
          exact ⟨hstate, hpassed, hdropped⟩
      obtain ⟨hstate, hpassed, hdropped⟩ := hfields
      rw [hpassed, hdropped]
      exact ⟨fun hlost => hlost hstate, fun hnone _ => hnone⟩
  | _ => exact iff_of_true (hother fun _ => nofun) trivial

/-- **When no callback is lost.** In every run, each callback runs at most once, and a ready
channel has run or scheduled all that were passed to it before it was shut down, if and only
if no session gets connected after one of them had its listener used up by a transition to
another state. -/
theorem noneLost_iff (config : Config γ) (objects : Nat → Metadata) (acts : List (Act γ)) :
    Runs.Always (step config) NoneLost (State.initial objects) acts ↔
      Runs.Guarded (step config) NoneDropped (State.initial objects) acts :=
  Runs.always_iff_guarded (J := fun s => s.waiting.Good)
    (fun _ _ _ hgood hs h => noneLost_step hgood hs h)
    (fun _ _ _ hgood _ _ h => waiting_good_step hgood h) (initial_waiting_good objects)
    ⟨List.nodup_nil, nofun⟩

/-- The first attempt to connect times out, the second one succeeds: the callback that waited
for the first is not called. -/
theorem timeout_loses_callback :
    ¬ Runs.Always (step (γ := Nat) ⟨"localhost", .empty⟩) NoneLost
      (State.initial fun _ => Metadata.new)
      [.connect, .sessionTimeout 0, .connect, .sessionConnect 1, .emitNext 0, .emitNext 0] := by
  intro h
  have hlast := h.last (t := _) rfl
  rcases hlast.ready rfl 0 List.mem_cons_self with hinvoked | himmediate | hlistener
  · exact absurd hinvoked (by decide)
  · exact absurd himmediate (by decide)
  · obtain ⟨_, _, hemitting, _⟩ := hlistener
    exact absurd hemitting nofun

end GrpcNode.JsCore.Channel
