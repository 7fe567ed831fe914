import GrpcNode.JsCore.ChannelConnect
import GrpcNode.JsCore.DeadlineTimers

/-!
# GrpcNode.JsCore.ChannelWaits

`waitForReady` of `client.ts` on a real channel: any number of calls, each with a callback that it
passes to `connect` and a timer of its own, among everything else that the channel does.

`Moves` is what a step of the channel can do to the callbacks, whichever step it is. A callback that
has run was scheduled when the channel was ready, so `callback(null)` is right; and one that has not
run is behind a listener, scheduled or dropped, so nobody waits for nothing but those whose listener
was dropped and who have no deadline (`kept_always`).
-/

namespace GrpcNode.JsCore

open GrpcNode.Js

namespace WaitForReady

/-- A call of `waitForReady(deadline, callback)`. -/
structure Call where
  /-- The number of the function passed to `connect`. -/
  id : Nat
  deadline : JsNumber
  /-- What `(new Date).getTime()` was. -/
  now : Int
  started : ℚ
  /-- Before when the timer does not run; `none` if it has run, or there is none. -/
  due : Option ℚ
  waiting : Waiting := {}
  /-- History: whether the channel has been ready since. -/
  sinceReady : Bool := false

/-- `new Error('Failed to connect before the deadline')` -/
def deadlineError : JsError := .error "Failed to connect before the deadline"

namespace Call

/-- The callback has been passed to `connect`, and the timer has been set. -/
def new (id : Nat) (deadline : JsNumber) (now : Int) (time : ℚ) : Call where
  id := id
  deadline := deadline
  now := now
  started := time
  due := timerDue? deadline now time

variable (c : Call)

def look (channel : Channel.Waiting) : Call :=
  { c with sinceReady := c.sinceReady || decide (channel.connectivityState = .ready) }

/-- The function passed to `connect` runs, if it is among those that have been invoked. -/
def hear (time : ℚ) (invoked : List Nat) : Call :=
  if c.id ∈ invoked then { c with waiting := { c.waiting.cb time none with connected := true } }
  else c

/-- The function given to `setTimeout` -/
def expire (time : ℚ) : Call := { c with due := none, waiting := c.waiting.cb time (some deadlineError) }

end Call

/-- A client with its channel. -/
structure State (γ : Type) where
  channel : Channel.State γ
  clock : ℚ
  calls : List Call := []

/-- What can happen. -/
inductive Act (γ : Type)
  | waitForReady (deadline : JsNumber) (now : Int) (time : ℚ)
  | channel (a : Channel.Act γ) (time : ℚ)
  /-- The timer of the `i`-th call runs. -/
  | expire (i : Nat) (time : ℚ)

namespace State

variable {γ : Type} (s : State γ)

/-- `waitForReady(deadline, callback)`, which reads the clock at `now` and sets the timer at
`time`. -/
def waitForReady (deadline : JsNumber) (now : Int) (time : ℚ) : State γ :=
  let channel := s.channel.connect .user
  let call := Call.new s.channel.nextId deadline now time
  { channel, clock := time, calls := (s.calls ++ [call]).map fun c => c.look channel.waiting }

/-- The channel goes on. -/
def withChannel (channel : Channel.State γ) (time : ℚ) : State γ where
  channel := channel
  clock := time
  calls := s.calls.map fun c =>
    (c.look channel.waiting).hear time (channel.invoked.drop s.channel.invoked.length)

end State

/-- One step; `none` if it is not possible. The clock never goes back, and a timer runs when no
JavaScript is running. -/
def step {γ : Type} (config : Channel.Config γ) (s : State γ) : Act γ → Option (State γ)
  | .waitForReady deadline now time =>
      if s.clock ≤ time ∧ now ≤ time then some (s.waitForReady deadline now time) else none
  | .channel a time =>
      if s.clock ≤ time then
        (Channel.step config s.channel a).map fun channel => s.withChannel channel time
      else none
  | .expire i time => do
      let call ← s.calls[i]?
      let due ← call.due
      if s.clock ≤ time ∧ due ≤ time ∧ s.channel.emitting = none then
        some { s with clock := time, calls := s.calls.set i (call.expire time) }
      else none

/-- A client with a new channel. -/
def State.initial {γ : Type} (objects : Nat → Metadata) (clock : ℚ) : State γ where
  channel := .initial objects
  clock := clock

end WaitForReady

/-! ### What the channel does to the callbacks -/

namespace Channel.Waiting

/-- The callbacks given to `setImmediate`. -/
def immediateIds (w : Waiting) : List Nat := w.immediates.filterMap Immediate.id?

/-- The callbacks whose listeners are being called for `READY`. -/
def emittingIds (w : Waiting) : List Nat := (w.emitting.getD []).map Listener.id

/-- What any step can do. -/
structure Moves (w w' : Waiting) : Prop where
  nextId : w.nextId ≤ w'.nextId
  dropped : w.dropped ⊆ w'.dropped
  invoked : ∃ more, w'.invoked = w.invoked ++ more ∧
    ∀ id ∈ more, id ∈ w.immediateIds ∨ id ∈ w.emittingIds
  immediates : ∀ id ∈ w'.immediateIds, id ∈ w.immediateIds ∨ w'.connectivityState = .ready
  emitting : ∀ id ∈ w'.emittingIds, id ∈ w.emittingIds ∨
    w'.connectivityState = .ready ∧ id ∈ w.listeners.map Listener.id

variable {w w' : Waiting}

theorem Moves.refl (w : Waiting) : w.Moves w where
  nextId := Nat.le_refl _
  dropped := List.Subset.refl _
  invoked := ⟨[], (List.append_nil _).symm, List.forall_mem_nil _⟩
  immediates _ h := .inl h
  emitting _ h := .inl h

/-- A step that invokes nothing, and neither enters `READY` nor leaves it. -/
structure Quiet (w w' : Waiting) : Prop where
  moves : w.Moves w'
  invoked : w'.invoked = w.invoked
  emitting : w'.emitting = w.emitting
  ready : w.connectivityState = .ready → w'.connectivityState = .ready

theorem Moves.then {u : Waiting} (h : w.Moves w') (h' : w'.Quiet u) : w.Moves u where
  nextId := h.nextId.trans h'.moves.nextId
  dropped := List.Subset.trans h.dropped h'.moves.dropped
  invoked := by
    obtain ⟨more, hmore, hfrom⟩ := h.invoked
    exact ⟨more, h'.invoked.trans hmore, hfrom⟩
  immediates id hid := by
    rcases h'.moves.immediates id hid with hid | hu
    · exact (h.immediates id hid).imp_right h'.ready
    · exact .inr hu
  emitting id hid := by
    rw [emittingIds, h'.emitting] at hid
    exact (h.emitting id hid).imp_right fun ⟨hready, hmem⟩ => ⟨h'.ready hready, hmem⟩

theorem Quiet.trans {u : Waiting} (h : w.Quiet w') (h' : w'.Quiet u) : w.Quiet u :=
  ⟨h.moves.then h', h'.invoked.trans h.invoked, h'.emitting.trans h.emitting,
    fun hready => h'.ready (h.ready hready)⟩

theorem moves_transition (w : Waiting) (newState : ConnectivityState) :
    w.Moves (w.transition newState) := by
  unfold transition
  split
  · exact .refl w
  · split
    · rename_i hready
      exact { Moves.refl w with
        immediates := fun _ h => .inl h
        emitting := fun _ h => .inr ⟨hready, h⟩ }
    · exact { Moves.refl w with
        dropped := List.subset_append_left _ _
        immediates := fun _ h => .inl h
        emitting := fun _ h => .inl h }

theorem quiet_kick (w : Waiting) : w.Quiet w.kick := by
  unfold kick
  split
  · rename_i hidle
    have hne : ConnectivityState.connecting ≠ w.connectivityState := by
      rw [hidle]
      exact ConnectivityState.noConfusion
    have hready : ConnectivityState.connecting ≠ .ready := ConnectivityState.noConfusion
    refine ⟨w.moves_transition .connecting, ?_, ?_, fun h => ?_⟩
    · rw [transition, if_neg hne, if_neg hready]
    · rw [transition, if_neg hne, if_neg hready]
    · exact ConnectivityState.noConfusion (hidle.symm.trans h)
  · exact ⟨.refl w, rfl, rfl, id⟩

theorem quiet_waitReady (w : Waiting) (listener : Listener) : w.Quiet (w.waitReady listener) := by
  unfold waitReady
  split
  · rename_i hready
    exact ⟨{ Moves.refl w with
      immediates := fun _ _ => .inr hready
      emitting := fun _ h => .inl h }, rfl, rfl, id⟩
  · exact ⟨{ Moves.refl w with
      immediates := fun _ h => .inl h
      emitting := fun _ h => .inl h }, rfl, rfl, id⟩

theorem quiet_connect (w : Waiting) (callback : Callback) : w.Quiet (w.connect callback) := by
  have hpass : w.Quiet w.pass :=
    ⟨{ Moves.refl w with
      nextId := Nat.le_succ _, immediates := fun _ h => .inl h, emitting := fun _ h => .inl h },
      rfl, rfl, id⟩
  exact (hpass.trans w.pass.quiet_kick).trans (w.pass.kick.quiet_waitReady ⟨w.nextId, callback⟩)

theorem nextId_connect (w : Waiting) (callback : Callback) :
    (w.connect callback).nextId = w.nextId + 1 := by
  obtain ⟨hkick, -, -⟩ := kick_fields (w := w.pass)
  obtain ⟨hwait, -⟩ := waitReady_fields (w := w.pass.kick) ⟨w.nextId, callback⟩
  exact hwait.trans hkick

/-- The next function given to `setImmediate` is not a callback. -/
theorem moves_take {call : Nat} {rest : List Immediate}
    (h : w.immediates = .restart call :: rest) : w.Moves { w with immediates := rest } := by
  refine { Moves.refl w with immediates := fun id hid => .inl ?_, emitting := fun _ h => .inl h }
  rw [immediateIds, h]
  exact hid

/-- A step other than the `'connect'` event of a session. -/
theorem Step.moves (h : w.Step w') : w.Moves w' := by
  cases h with
  | same => exact .refl w
  | drops newState _ => exact w.moves_transition newState
  | connects callback => exact (w.quiet_connect callback).moves
  | connectsTwice first second =>
      exact (w.quiet_connect first).moves.then ((w.connect first).quiet_connect second)
  | @emitsNext listener rest hemitting =>
      have hids : w.emittingIds = listener.id :: rest.map Listener.id := by
        rw [emittingIds, hemitting]
        rfl
      unfold emitNext
      split
      · refine ⟨Nat.le_refl _, List.Subset.refl _, ⟨[listener.id], rfl, fun id hid => ?_⟩,
          fun _ h => .inl h, fun id hid => .inl ?_⟩
        · rw [hids, List.mem_singleton.mp hid]
          exact .inr List.mem_cons_self
        · rw [hids]
          exact List.mem_cons_of_mem _ hid
      · refine { Moves.refl w with immediates := fun _ h => .inl h, emitting := fun id hid => .inl ?_ }
        rw [hids]
        exact List.mem_cons_of_mem _ hid
  | emitted _ =>
      exact { Moves.refl w with
        immediates := fun _ h => .inl h
        emitting := fun _ h => absurd h List.not_mem_nil }
  | @runs listener rest himmediates =>
      have hids : w.immediateIds = listener.id :: rest.filterMap Immediate.id? := by
        rw [immediateIds, himmediates]
        rfl
      refine ⟨Nat.le_refl _, List.Subset.refl _, ⟨[listener.id], rfl, fun id hid => .inl ?_⟩,
        fun id hid => .inl ?_, fun _ h => .inl h⟩
      · rw [hids, List.mem_singleton.mp hid]
        exact List.mem_cons_self
      · rw [hids]
        exact List.mem_cons_of_mem _ hid
  | restarts callback himmediates => exact (moves_take himmediates).then (quiet_connect _ callback)
  | restartsTwice first second himmediates =>
      exact ((moves_take himmediates).then (quiet_connect _ first)).then (quiet_connect _ second)
  | retries call =>
      refine { Moves.refl w with immediates := fun id hid => .inl ?_, emitting := fun _ h => .inl h }
      simpa [immediateIds, List.filterMap_append, Immediate.id?] using hid

end Channel.Waiting

namespace Channel

theorem moves_step {γ : Type} {config : Config γ} {s s' : State γ} {a : Act γ}
    (h : step config s a = some s') : s.waiting.Moves s'.waiting := by
  by_cases ha : ∃ i, a = .sessionConnect i
  · obtain ⟨i, rfl⟩ := ha
    rw [waiting_sessionConnect h]
    exact s.waiting.moves_transition .ready
  · exact (step_waiting h fun i hi => ha ⟨i, hi⟩).moves

end Channel

namespace WaitForReady

/-! ### What holds of a call -/

/-- What holds of a call, when the channel has its callbacks where `w` says. -/
structure Keeps (w : Channel.Waiting) (c : Call) : Prop where
  fresh : c.id < w.nextId
  ready : w.connectivityState = .ready → c.sinceReady = true
  immediate : c.id ∈ w.immediateIds → c.sinceReady = true
  emitting : c.id ∈ w.emittingIds → c.sinceReady = true
  connected : c.waiting.connected = true ↔ c.id ∈ w.invoked
  heard : c.waiting.connected = true → c.sinceReady = true ∧ c.waiting.called ≠ none
  value : ∀ time, c.waiting.called = some (time, none) → c.waiting.connected = true
  error : ∀ time e, c.waiting.called = some (time, some e) → e = deadlineError ∧
    ∃ due, timerDue? c.deadline c.now c.started = some due ∧ due ≤ time
  timer : c.due = timerDue? c.deadline c.now c.started ∨ c.due = none ∧ c.waiting.called ≠ none
  clock : (c.now : ℚ) ≤ c.started

variable {w w' : Channel.Waiting} {c : Call}

theorem cb_called (waiting : Waiting) (time : ℚ) (error : Option JsError) :
    (waiting.cb time error).called ≠ none := by
  unfold Waiting.cb
  cases waiting.called <;> exact Option.some_ne_none _

theorem called_cb {waiting : Waiting} {time time' : ℚ} {error error' : Option JsError}
    (h : (waiting.cb time error).called = some (time', error')) :
    waiting.called = some (time', error') ∨ time' = time ∧ error' = error := by
  unfold Waiting.cb at h
  cases hcalled : waiting.called with
  | some _ => exact .inl (by simpa [hcalled] using h)
  | none =>
      rw [hcalled] at h
      obtain ⟨rfl, rfl⟩ := Prod.mk.inj (Option.some.inj h)
      exact .inr ⟨rfl, rfl⟩

theorem Keeps.look (h : Keeps w c) (hmoves : w.Moves w') (hinvoked : w'.invoked = w.invoked) :
    Keeps w' (c.look w') := by
  have hold : c.sinceReady = true → (c.look w').sinceReady = true := fun hready => by
    rw [Call.look, hready, Bool.true_or]
  have hnew : w'.connectivityState = .ready → (c.look w').sinceReady = true := fun hready => by
    rw [Call.look, decide_eq_true hready, Bool.or_true]
  refine { h with
    fresh := h.fresh.trans_le hmoves.nextId
    ready := hnew
    immediate := fun hid => (hmoves.immediates _ hid).elim (fun hid => hold (h.immediate hid)) hnew
    emitting := fun hid =>
      (hmoves.emitting _ hid).elim (fun hid => hold (h.emitting hid)) fun hready => hnew hready.1
    connected := ?_
    heard := fun hconnected => ⟨hold (h.heard hconnected).1, (h.heard hconnected).2⟩ }
  rw [hinvoked]
  exact h.connected

/-- The callback runs, after it has been scheduled. -/
theorem Keeps.invoke (h : Keeps w c) (hid : c.id ∈ w.immediateIds ∨ c.id ∈ w.emittingIds)
    (time : ℚ) {more : List Nat} (hmem : c.id ∈ more) :
    Keeps { w with invoked := w.invoked ++ more } (c.hear time more) := by
  have hready : c.sinceReady = true := hid.elim h.immediate h.emitting
  rw [Call.hear, if_pos hmem]
  refine { h with
    connected := iff_of_true rfl (List.mem_append_right _ hmem)
    heard := fun _ => ⟨hready, cb_called _ _ _⟩
    value := fun _ _ => rfl
    error := fun time' e hcalled => ?_
    timer := h.timer.imp_right fun hdue => ⟨hdue.1, cb_called _ _ _⟩ }
  rcases called_cb hcalled with hcalled | ⟨-, hvalue⟩
  · exact h.error time' e hcalled
  · cases hvalue

theorem Keeps.channel (h : Keeps w c) (hmoves : w.Moves w') (time : ℚ) {more : List Nat}
    (hinvoked : w'.invoked = w.invoked ++ more)
    (hfrom : ∀ id ∈ more, id ∈ w.immediateIds ∨ id ∈ w.emittingIds) :
    Keeps w' ((c.look w').hear time more) := by
  have hheard : Keeps { w with invoked := w.invoked ++ more } (c.hear time more) := by
    by_cases hmem : c.id ∈ more
    · exact h.invoke (hfrom _ hmem) time hmem
    · rw [Call.hear, if_neg hmem]
      refine { h with connected := h.connected.trans ⟨List.mem_append_left _, fun hid => ?_⟩ }
      exact (List.mem_append.mp hid).resolve_right hmem
  have hmoved : Channel.Waiting.Moves { w with invoked := w.invoked ++ more } w' :=
    { hmoves with invoked := ⟨[], by rw [hinvoked, List.append_nil], List.forall_mem_nil _⟩ }
  have hlook := hheard.look hmoved hinvoked
  have hcomm : (c.look w').hear time more = (c.hear time more).look w' := by
    unfold Call.hear
    by_cases hmem : c.id ∈ more
    · rw [if_pos hmem, if_pos (show (c.look w').id ∈ more from hmem)]
      rfl
    · rw [if_neg hmem, if_neg (show (c.look w').id ∉ more from hmem)]
  rw [hcomm]
  exact hlook

theorem Keeps.expire (h : Keeps w c) {due time : ℚ} (hdue : c.due = some due) (hle : due ≤ time) :
    Keeps w (c.expire time) := by
  have hset : timerDue? c.deadline c.now c.started = some due := by
    rcases h.timer with hset | ⟨hnone, -⟩
    · exact hset.symm.trans hdue
    · exact absurd (hdue.symm.trans hnone) (Option.some_ne_none _)
  refine { h with
    heard := fun hconnected => ⟨(h.heard hconnected).1, cb_called _ _ _⟩
    value := fun time' hcalled => ?_
    error := fun time' e hcalled => ?_
    timer := .inr ⟨rfl, cb_called _ _ _⟩ }
  · rcases called_cb hcalled with hcalled | ⟨-, hnone⟩
    · exact h.value time' hcalled
    · cases hnone
  · rcases called_cb hcalled with hcalled | ⟨rfl, herror⟩
    · exact h.error time' e hcalled
    · exact ⟨Option.some.inj herror, due, hset, hle⟩

/-! ### Every run -/

variable {γ : Type}

/-- What holds along a run. -/
structure Inv (s : State γ) : Prop where
  good : s.channel.waiting.Good
  emitting : ∀ id ∈ s.channel.waiting.emittingIds, id < s.channel.waiting.nextId
  calls : ∀ c ∈ s.calls, Keeps s.channel.waiting c

theorem id_lt_of_place (h : w.Good) {id : Nat}
    (hplace : id ∈ w.listeners.map Channel.Listener.id ∨ id ∈ w.immediateIds ∨ id ∈ w.dropped ∨
      id ∈ w.invoked) : id < w.nextId := by
  by_contra hlt
  have hplaces : (w.listeners.map Channel.Listener.id).count id + w.immediateIds.count id +
      w.dropped.count id + w.invoked.count id = 0 := (h.places id).trans (if_neg hlt)
  rcases hplace with hmem | hmem | hmem | hmem
  all_goals
    have hpos := List.count_pos_iff.mpr hmem
    omega

theorem emitting_moves (h : w.Good) (hemitting : ∀ id ∈ w.emittingIds, id < w.nextId)
    (hmoves : w.Moves w') : ∀ id ∈ w'.emittingIds, id < w'.nextId := by
  intro id hid
  refine Nat.lt_of_lt_of_le ?_ hmoves.nextId
  rcases hmoves.emitting id hid with hid | ⟨-, hid⟩
  · exact hemitting id hid
  · exact id_lt_of_place h (.inl hid)

/-- A new call has the next number, which is nowhere yet. -/
theorem keeps_new (h : w.Good) (hemitting : ∀ id ∈ w.emittingIds, id < w.nextId)
    (hquiet : w.Quiet w') (hnext : w'.nextId = w.nextId + 1) (deadline : JsNumber) {now : Int}
    {time : ℚ} (hclock : (now : ℚ) ≤ time) :
    Keeps w' ((Call.new w.nextId deadline now time).look w') := by
  have hnot : ¬ w.nextId < w.nextId := Nat.lt_irrefl _
  have hready : w'.connectivityState = .ready → (decide (w'.connectivityState = .ready)) = true :=
    decide_eq_true
  have hfresh : w.nextId < w'.nextId := by
    rw [hnext]
    exact Nat.lt_succ_self _
  refine
    { fresh := hfresh
      ready := hready
      immediate := fun hid => ?_
      emitting := fun hid => ?_
      connected := ?_
      heard := fun hfalse => absurd hfalse Bool.false_ne_true
      value := fun _ hnone => absurd hnone.symm (Option.some_ne_none _)
      error := fun _ _ hnone => absurd hnone.symm (Option.some_ne_none _)
      timer := .inl rfl
      clock := hclock }
  · rcases hquiet.moves.immediates _ hid with hid | hstate
    · exact absurd (id_lt_of_place h (.inr (.inl hid))) hnot
    · exact hready hstate
  · rcases hquiet.moves.emitting _ hid with hid | ⟨hstate, -⟩
    · exact absurd (hemitting _ hid) hnot
    · exact hready hstate
  · rw [hquiet.invoked]
    exact iff_of_false Bool.false_ne_true fun hid =>
      hnot (id_lt_of_place h (.inr (.inr (.inr hid))))

theorem Inv.step {config : Channel.Config γ} {s s' : State γ} {a : Act γ} (h : Inv s)
    (hstep : step config s a = some s') : Inv s' := by
  cases a with
  | waitForReady deadline now time =>
      simp only [WaitForReady.step, Option.ite_none_right_eq_some, Option.some.injEq] at hstep
      obtain ⟨⟨-, hclock⟩, rfl⟩ := hstep
      have hwaiting : (s.channel.connect .user).waiting = s.channel.waiting.connect .user :=
        s.channel.waiting_connect .user
      have hquiet := s.channel.waiting.quiet_connect .user
      rw [← hwaiting] at hquiet
      have hnext : (s.channel.connect .user).waiting.nextId = s.channel.waiting.nextId + 1 := by
        rw [hwaiting]
        exact s.channel.waiting.nextId_connect .user
      refine ⟨?_, emitting_moves h.good h.emitting hquiet.moves, fun c hc => ?_⟩
      · show (s.channel.connect .user).waiting.Good
        rw [hwaiting]
        exact h.good.connect .user
      · obtain ⟨c, hmem, rfl⟩ := List.mem_map.mp hc
        rcases List.mem_append.mp hmem with hold | hnew
        · exact (h.calls c hold).look hquiet.moves hquiet.invoked
        · rw [List.mem_singleton.mp hnew]
          exact keeps_new h.good h.emitting hquiet hnext deadline hclock
  | channel a time =>
      simp only [WaitForReady.step, Option.ite_none_right_eq_some] at hstep
      obtain ⟨-, hmap⟩ := hstep
      obtain ⟨channel, hchannel, rfl⟩ := Option.map_eq_some_iff.mp hmap
      have hmoves := Channel.moves_step hchannel
      refine ⟨Channel.waiting_good_step h.good hchannel, emitting_moves h.good h.emitting hmoves,
        fun c hc => ?_⟩
      obtain ⟨c, hmem, rfl⟩ := List.mem_map.mp hc
      obtain ⟨more, hmore, hfrom⟩ := hmoves.invoked
      have hdrop : channel.invoked.drop s.channel.invoked.length = more := by
        rw [show channel.invoked = s.channel.invoked ++ more from hmore, List.drop_left]
      rw [hdrop]
      exact (h.calls c hmem).channel hmoves time hmore hfrom
  | expire i time =>
      simp only [WaitForReady.step, Option.bind_eq_bind, Option.bind_eq_some_iff,
        Option.ite_none_right_eq_some, Option.some.injEq] at hstep
      obtain ⟨call, hcall, due, hdue, ⟨-, hle, -⟩, rfl⟩ := hstep
      refine ⟨h.good, h.emitting, fun c hc => ?_⟩
      rcases List.mem_or_eq_of_mem_set hc with hold | rfl
      · exact h.calls c hold
      · exact (h.calls call (List.mem_of_getElem? hcall)).expire hdue hle

/-- Where the callback of a call waits: behind a listener, or until `setImmediate` runs it. -/
def Waits (w : Channel.Waiting) (id : Nat) : Prop :=
  id ∈ w.listeners.map Channel.Listener.id ∨ id ∈ w.immediateIds

/-- What a user can rely on who has called `waitForReady`. -/
structure Kept (config : Channel.Config γ) (s : State γ) (i : Nat) (c : Call) : Prop where
  /-- The channel has been ready since, if there was no error. -/
  value : ∀ time, c.waiting.called = some (time, none) → c.sinceReady = true
  /-- There is no other error than that of the deadline, which has passed if `setTimeout` can wait
  that long. -/
  error : ∀ time e, c.waiting.called = some (time, some e) → e = deadlineError ∧
    c.deadline ≠ noDeadline ∧
      ∀ limit, c.deadline.toRat? = some limit → InReach limit c.now → limit ≤ time
  /-- Who has not been called back has a timer, or no deadline, -/
  timer : c.waiting.called = none → c.deadline ≠ noDeadline → c.due ≠ none
  /-- and a callback that waits, unless it was dropped. -/
  waits : c.waiting.called = none →
    Waits s.channel.waiting c.id ∨ c.id ∈ s.channel.dropped
  /-- In the state `READY` it is about to be called. -/
  scheduled : c.waiting.called = none → s.channel.connectivityState = .ready →
    s.channel.waiting.Scheduled c.id ∨ c.id ∈ s.channel.dropped
  /-- Without a deadline, who has been dropped is never called back. -/
  forgotten : c.waiting.called = none → c.due = none → c.id ∈ s.channel.dropped →
    ∀ acts t, Runs.exec (step config) s acts = some t →
      ∃ c', t.calls[i]? = some c' ∧ c'.waiting.called = none

theorem Keeps.waits (h : Keeps w c) (hgood : w.Good) (hcalled : c.waiting.called = none) :
    Waits w c.id ∨ c.id ∈ w.dropped := by
  have hinvoked : c.id ∉ w.invoked := fun hid => (h.heard (h.connected.mpr hid)).2 hcalled
  have hplaces : (w.listeners.map Channel.Listener.id).count c.id + w.immediateIds.count c.id +
      w.dropped.count c.id + w.invoked.count c.id = 1 := (hgood.places c.id).trans (if_pos h.fresh)
  rw [List.count_eq_zero.mpr hinvoked] at hplaces
  by_contra hnot
  rw [Waits, not_or, not_or] at hnot
  obtain ⟨⟨hlistener, himmediate⟩, hdropped⟩ := hnot
  rw [List.count_eq_zero.mpr hlistener, List.count_eq_zero.mpr himmediate,
    List.count_eq_zero.mpr hdropped] at hplaces
  omega

/-- A callback that has been dropped is in no other place. -/
theorem not_invoked_of_dropped (h : w.Good) {id : Nat} (hdropped : id ∈ w.dropped) :
    id ∉ w.invoked := by
  intro hinvoked
  have hle : (w.listeners.map Channel.Listener.id).count id + w.immediateIds.count id +
      w.dropped.count id + w.invoked.count id ≤ 1 := h.count_le_one id
  have hpos := List.count_pos_iff.mpr hdropped
  have hpos' := List.count_pos_iff.mpr hinvoked
  omega

/-- A call that nobody will call back. -/
structure Forgotten (i : Nat) (s : State γ) : Prop where
  inv : Inv s
  call : ∃ c, s.calls[i]? = some c ∧ c.id ∈ s.channel.dropped ∧ c.due = none ∧
    c.waiting.called = none

theorem Forgotten.step {config : Channel.Config γ} {i : Nat} {s s' : State γ} {a : Act γ}
    (h : Forgotten i s) (hstep : step config s a = some s') : Forgotten i s' := by
  have hinv := h.inv.step hstep
  obtain ⟨c, hc, hdropped, hdue, hcalled⟩ := h.call
  refine ⟨hinv, ?_⟩
  cases a with
  | waitForReady deadline now time =>
      simp only [WaitForReady.step, Option.ite_none_right_eq_some, Option.some.injEq] at hstep
      obtain ⟨-, rfl⟩ := hstep
      have hquiet := s.channel.waiting.quiet_connect .user
      rw [← s.channel.waiting_connect .user] at hquiet
      refine ⟨c.look (s.channel.connect .user).waiting, ?_, hquiet.moves.dropped hdropped, hdue, hcalled⟩
      show ((s.calls ++ _).map _)[i]? = _
      rw [List.getElem?_map, List.getElem?_append_left (List.getElem?_eq_some_iff.mp hc).1, hc]
      rfl
  | channel a time =>
      simp only [WaitForReady.step, Option.ite_none_right_eq_some] at hstep
      obtain ⟨-, hmap⟩ := hstep
      obtain ⟨channel, hchannel, rfl⟩ := Option.map_eq_some_iff.mp hmap
      have hmoves := Channel.moves_step hchannel
      have hdropped' : c.id ∈ channel.waiting.dropped := hmoves.dropped hdropped
      obtain ⟨more, hmore, -⟩ := hmoves.invoked
      have hnot : c.id ∉ channel.invoked.drop s.channel.invoked.length := fun hmem =>
        not_invoked_of_dropped hinv.good hdropped' (List.mem_of_mem_drop hmem)
      refine ⟨c.look channel.waiting, ?_, hdropped', hdue, hcalled⟩
      show (s.calls.map _)[i]? = _
      rw [List.getElem?_map, hc, Option.map_some, Call.hear,
        if_neg (show (c.look channel.waiting).id ∉ _ from hnot)]
  | expire j time =>
      simp only [WaitForReady.step, Option.bind_eq_bind, Option.bind_eq_some_iff,
        Option.ite_none_right_eq_some, Option.some.injEq] at hstep
      obtain ⟨call, hcall, due, hdue', -, rfl⟩ := hstep
      have hne : j ≠ i := by
        rintro rfl
        obtain rfl := Option.some.inj (hc.symm.trans hcall)
        exact absurd (hdue'.symm.trans hdue) (Option.some_ne_none _)
      exact ⟨c, (List.getElem?_set_ne hne).trans hc, hdropped, hdue, hcalled⟩

theorem timerDue?_eq_none_iff {deadline : JsNumber} {now : Int} {started : ℚ} :
    timerDue? deadline now started = none ↔ deadline = noDeadline := by
  unfold timerDue? timerDelay?
  by_cases h : deadline = noDeadline
  · rw [if_pos h]
    exact iff_of_true rfl h
  · rw [if_neg h]
    exact iff_of_false (Option.some_ne_none _) h

theorem Keeps.limit_le (h : Keeps w c) {time : ℚ} {e : JsError}
    (hcalled : c.waiting.called = some (time, some e)) {limit : ℚ}
    (hlimit : c.deadline.toRat? = some limit) (hreach : InReach limit c.now) : limit ≤ time := by
  obtain ⟨-, due, hset, hle⟩ := h.error time e hcalled
  rw [timerDue?_eq hlimit, Option.some.injEq] at hset
  calc limit ≤ c.now + setTimeoutDelay (.ofRat (limit - c.now)) := limit_le_iff.mpr hreach
    _ ≤ c.started + setTimeoutDelay (.ofRat (limit - c.now)) := add_le_add_left h.clock _
    _ = due := hset
    _ ≤ time := hle

theorem Inv.kept {s : State γ} (h : Inv s) (config : Channel.Config γ) {i : Nat} {c : Call}
    (hc : s.calls[i]? = some c) : Kept config s i c := by
  have hkeeps := h.calls c (List.mem_of_getElem? hc)
  refine ⟨fun time hcalled => (hkeeps.heard (hkeeps.value time hcalled)).1, fun time e hcalled => ?_,
    fun hcalled hdeadline hdue => ?_, hkeeps.waits h.good, fun hcalled hready => ?_,
    fun hcalled hdue hdropped acts t hexec => ?_⟩
  · obtain ⟨herror, due, hset, -⟩ := hkeeps.error time e hcalled
    refine ⟨herror, fun hdeadline => ?_, fun limit => hkeeps.limit_le hcalled⟩
    exact absurd (hset.symm.trans (timerDue?_eq_none_iff.mpr hdeadline)) (Option.some_ne_none _)
  · rcases hkeeps.timer with hset | ⟨-, hsome⟩
    · exact hdeadline (timerDue?_eq_none_iff.mp (hset.symm.trans hdue))
    · exact hsome hcalled
  · refine (hkeeps.waits h.good hcalled).imp_left fun hwaits => ?_
    rcases hwaits with hlistener | himmediate
    · obtain ⟨listener, hmem, hid⟩ := List.mem_map.mp hlistener
      obtain ⟨rest, hemitting, hrest⟩ := h.good.listeners hready listener hmem
      exact .inr ⟨listener, rest, hemitting, hrest, hmem, hid⟩
    · exact .inl himmediate
  · have hforgotten : Forgotten i t := Runs.exec_invariant
      (fun _ _ _ h hstep => h.step hstep) ⟨h, c, hc, hdropped, hdue, hcalled⟩ hexec
    obtain ⟨c', hc', -, -, hcalled'⟩ := hforgotten.call
    exact ⟨c', hc', hcalled'⟩

/-- **What `waitForReady` is good for**, in every state of every run of a channel and its timers. -/
theorem kept_always (config : Channel.Config γ) (objects : Nat → Metadata) (clock : ℚ)
    (acts : List (Act γ)) :
    Runs.Always (step config) (fun s => ∀ i c, s.calls[i]? = some c → Kept config s i c)
      (State.initial objects clock) acts := by
  have hinitial : Inv (State.initial objects clock : State γ) :=
    ⟨Channel.initial_waiting_good objects, List.forall_mem_nil _, List.forall_mem_nil _⟩
  refine (Runs.always_of_invariant (fun _ _ _ h hstep => Inv.step h hstep) hinitial acts).mono ?_
  intro s h i c hc
  exact h.kept config hc

end WaitForReady

end GrpcNode.JsCore
