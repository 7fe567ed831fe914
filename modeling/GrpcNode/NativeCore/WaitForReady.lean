import GrpcNode.Lib.Runs

/-!
# GrpcNode.NativeCore.WaitForReady

`Client.prototype.waitForReady` in `client.js`, any number of times at once, over
`getConnectivityState` and `watchConnectivityState` of `channel.cc`.

The channel itself, its connectivity state and the watches of it are the gRPC core's, which is not
in the repository. `Connectivity` is what the addon can observe of it, and `Connectivity.Documented`
is what gRPC documents. The core changes its state on threads of its own, so also between the two
calls that `checkState` makes, and it may take its time to wake up a watch.

`Waits` is what holds of each caller: it either has one watch in progress, which has not seen a
final state, or has been called back once (`always_waits`).

`close()` sets the pointer to the channel to null, and neither function looks at it: `crashes_iff`
says which runs hand it to the core.
-/

namespace GrpcNode.NativeCore.WaitForReady

/-- `grpc.connectivityState` -/
inductive ConnectivityState
  | idle
  | connecting
  | ready
  | transientFailure
  /-- `GRPC_CHANNEL_SHUTDOWN` -/
  | fatalFailure
  deriving Repr, DecidableEq

/-- `checkState` calls back in this state. -/
def ConnectivityState.final (state : ConnectivityState) : Prop :=
  state = .ready ∨ state = .fatalFailure

instance (state : ConnectivityState) : Decidable state.final :=
  inferInstanceAs (Decidable (_ ∨ _))

/-! ### The channel of the core -/

/-- A channel of the core, with the completion queue that its watches are told in: its states are
`κ`, and what happens to it on its own is `ι`. Watches are known by their tags. -/
structure Connectivity (κ ι : Type) where
  /-- The channel as it is created -/
  create : κ
  /-- What `grpc_channel_check_connectivity_state` returns -/
  connectivity : κ → ConnectivityState
  /-- `grpc_channel_check_connectivity_state`, when it is asked to try to connect -/
  check : κ → κ
  /-- `grpc_channel_watch_connectivity_state`, with the tag and the last observed state -/
  watch : κ → Nat → ConnectivityState → κ
  /-- The core goes on: a connection is made or lost, a deadline expires, a watch is woken up. -/
  happen : κ → ι → κ
  /-- `grpc_channel_destroy` -/
  destroy : κ → κ
  /-- The event of a tag is taken from the completion queue. -/
  next : κ → Nat → κ
  /-- The last observed state of a watch, from its start until its event is taken from the queue -/
  watching : κ → Nat → Option ConnectivityState
  /-- `event.success` of the event with this tag, when it is in the completion queue -/
  event : κ → Nat → Option Bool

/-- What gRPC documents of watches: the tag is put into the completion queue with success once the
state is different from the last observed one, or without it if the deadline expires before that. -/
structure Connectivity.Documented {κ ι : Type} (api : Connectivity κ ι) : Prop where
  watching_create (tag : Nat) : api.watching api.create tag = none
  watching_check (k : κ) (tag : Nat) : api.watching (api.check k) tag = api.watching k tag
  watching_happen (k : κ) (e : ι) (tag : Nat) :
    api.watching (api.happen k e) tag = api.watching k tag
  watching_destroy (k : κ) (tag : Nat) : api.watching (api.destroy k) tag = api.watching k tag
  /-- This is about tags that are not in use: tags are told apart by their addresses. -/
  watching_watch {k : κ} {tag : Nat} (h : api.watching k tag = none) (last : ConnectivityState)
    (tag' : Nat) : api.watching (api.watch k tag last) tag' =
      if tag' = tag then some last else api.watching k tag'
  watching_next (k : κ) (tag tag' : Nat) : api.watching (api.next k tag) tag' =
    if tag' = tag then none else api.watching k tag'
  /-- Events are those of watches. -/
  queued {k : κ} {tag : Nat} {success : Bool} (h : api.event k tag = some success) :
    ∃ last, api.watching k tag = some last
  /-- The other events stay in the queue. -/
  event_next (k : κ) (tag tag' : Nat) (h : tag' ≠ tag) :
    api.event (api.next k tag) tag' = api.event k tag'
  /-- Once the state is different, the core can put the tag of a watch into the queue, before
  anything else happens. -/
  notifies {k : κ} {tag : Nat} {last : ConnectivityState}
    (hwatching : api.watching k tag = some last) (hevent : api.event k tag = none)
    (hne : api.connectivity k ≠ last) :
    ∃ e, api.event (api.happen k e) tag = some true ∧
      api.connectivity (api.happen k e) = api.connectivity k
  /-- Once the state is different, a deadline does not count any more. -/
  inTime {k : κ} {tag : Nat} {last : ConnectivityState} {e : ι}
    (hwatching : api.watching k tag = some last) (hne : api.connectivity k ≠ last)
    (h : api.event (api.happen k e) tag = some false) : api.event k tag = some false
  /-- A check makes an idle channel connect. Another one it leaves as it is. -/
  connectivity_check {k : κ} (h : api.connectivity k ≠ .idle) :
    api.connectivity (api.check k) = api.connectivity k
  connectivity_next (k : κ) (tag : Nat) : api.connectivity (api.next k tag) = api.connectivity k
  /-- A channel that is destroyed shuts down, -/
  connectivity_destroy (k : κ) : api.connectivity (api.destroy k) = .fatalFailure
  /-- which is no deadline, -/
  event_destroy {k : κ} {tag : Nat} (h : api.event (api.destroy k) tag = some false) :
    api.event k tag = some false
  /-- and stays so. -/
  shutdown {k : κ} (h : api.connectivity k = .fatalFailure) (e : ι) :
    api.connectivity (api.happen k e) = .fatalFailure

/-! ### The client -/

/-- What the callback is called with. -/
inductive Result
  | ready
  /-- `new Error('Failed to connect before the deadline')` -/
  | deadline
  /-- `new Error('Failed to connect to server')` -/
  | fatal
  deriving Repr, DecidableEq

/-- The client and its channel. The watch of the `i`-th call of `waitForReady` has the tag `i`. -/
structure State (κ : Type) where
  /-- `wrapped_channel != NULL` -/
  wrapped : Bool := true
  core : κ
  /-- Of each call of `waitForReady`, the calls of its callback, with the state of the channel that
  each of these is about -/
  callbacks : List (List (Result × ConnectivityState)) := []
  /-- The core has been handed a null channel. -/
  crashed : Bool := false

/-- What can happen to the client. The core may go on between the two calls that `checkState`
makes. -/
inductive Act (ι : Type)
  | waitForReady (between : List ι)
  /-- The event of the watch of the `i`-th call is drained from the completion queue. -/
  | complete (i : Nat) (between : List ι)
  | happen (e : ι)
  | close
  /-- `getTarget()` or `getConnectivityState()` -/
  | inspect
  deriving Repr, DecidableEq

variable {κ ι : Type} (api : Connectivity κ ι)

namespace State

/-- `callback(result)`, of the `i`-th call -/
def call (s : State κ) (i : Nat) (result : Result) (state : ConnectivityState) : State κ :=
  { s with callbacks := s.callbacks.modify i (· ++ [(result, state)]) }

/-- `checkState(err)`, of the `i`-th call -/
def checkState (s : State κ) (i : Nat) (err : Bool) (between : List ι) : State κ :=
  if err then s.call i .deadline (api.connectivity s.core)
  else if !s.wrapped then { s with crashed := true }
  else
    let newState := api.connectivity s.core
    let core := api.check s.core
    match newState with
    | .ready => { s with core }.call i .ready newState
    | .fatalFailure => { s with core }.call i .fatal newState
    | _ => { s with core := api.watch (between.foldl api.happen core) i newState }

/-- `close()` -/
def close (s : State κ) : State κ :=
  if s.wrapped then { s with core := api.destroy s.core, wrapped := false } else s

end State

/-- What an action does -/
def act (s : State κ) : Act ι → Option (State κ)
  | .waitForReady between =>
      let waiting := { s with callbacks := s.callbacks ++ [[]] }
      some (waiting.checkState api s.callbacks.length false between)
  | .complete i between => do
      let success ← api.event s.core i
      return { s with core := api.next s.core i }.checkState api i (!success) between
  | .happen e => some { s with core := api.happen s.core e }
  | .close => some (s.close api)
  | .inspect => some (if s.wrapped then s else { s with crashed := true })

/-- Nothing more happens after a crash. -/
def step (s : State κ) (a : Act ι) : Option (State κ) := if s.crashed then none else act api s a

/-- A new client -/
def initial : State κ := { core := api.create }

/-! ### Waiting -/

/-- The result is that of the state, unless the deadline has passed. -/
def Justified (callback : Result × ConnectivityState) : Prop :=
  callback.1 = .deadline ∨ callback = (.ready, .ready) ∨ callback = (.fatal, .fatalFailure)

/-- What holds of a call of `waitForReady`, with its watch and the calls of its callback: the watch
is in progress, and will be woken up when the state is a final one, or the callback has been called,
once. -/
inductive Waits : Option ConnectivityState → List (Result × ConnectivityState) → Prop
  | waiting {last : ConnectivityState} (undecided : ¬ last.final) : Waits (some last) []
  | called {callback : Result × ConnectivityState} (justified : Justified callback) :
      Waits none [callback]

/-- Everybody waits or has been called back, and nobody else has a watch. -/
structure AllWait (s : State κ) : Prop where
  waits : ∀ i called, s.callbacks[i]? = some called → Waits (api.watching s.core i) called
  fresh : ∀ i, s.callbacks.length ≤ i → api.watching s.core i = none

/-- All but the `i`-th call wait or have been called back. The `i`-th is being looked at: it has no
watch, and has not been called back. -/
structure OthersWait (s : State κ) (i : Nat) : Prop where
  waits : ∀ j, j ≠ i → ∀ called, s.callbacks[j]? = some called →
    Waits (api.watching s.core j) called
  fresh : ∀ j, s.callbacks.length ≤ j → api.watching s.core j = none
  uncalled : s.callbacks[i]? = some []
  unwatched : api.watching s.core i = none

variable {api} {s s' : State κ} {i : Nat}

/-- Watches do not depend on what else is in the state of the core. -/
theorem AllWait.of_watching {core : κ} (h : AllWait api s)
    (hcore : ∀ tag, api.watching core tag = api.watching s.core tag) :
    AllWait api { s with core } where
  waits j called hj := by
    rw [hcore]
    exact h.waits j called hj
  fresh j hj := (hcore j).trans (h.fresh j hj)

theorem OthersWait.of_watching {core : κ} (h : OthersWait api s i)
    (hcore : ∀ tag, api.watching core tag = api.watching s.core tag) :
    OthersWait api { s with core } i where
  waits j hj called hcalled := by
    rw [hcore]
    exact h.waits j hj called hcalled
  fresh j hj := (hcore j).trans (h.fresh j hj)
  uncalled := h.uncalled
  unwatched := (hcore i).trans h.unwatched

/-- Whatever happens in between, the same watches are in progress. -/
theorem watching_foldl (h : api.Documented) (between : List ι) (k : κ) (tag : Nat) :
    api.watching (between.foldl api.happen k) tag = api.watching k tag := by
  induction between generalizing k with
  | nil => rfl
  | cons e between ih => rw [List.foldl_cons, ih, h.watching_happen]

/-- After the callback has been called -/
theorem OthersWait.call (h : OthersWait api s i) {result : Result} {state : ConnectivityState}
    (hjustified : Justified (result, state)) : AllWait api (s.call i result state) where
  waits j called hj := by
    have hmodify : (s.callbacks.modify i (· ++ [(result, state)]))[j]? = some called := hj
    by_cases hij : i = j
    · subst hij
      rw [List.getElem?_modify_eq, h.uncalled] at hmodify
      obtain rfl := Option.some.inj hmodify
      have hcalled : Waits none [(result, state)] := .called hjustified
      rwa [← h.unwatched] at hcalled
    · rw [List.getElem?_modify_ne _ _ hij] at hmodify
      exact h.waits j (Ne.symm hij) called hmodify
  fresh j hj := by
    have hlength : s.callbacks.length ≤ j := by
      simpa only [State.call, List.length_modify] using hj
    exact h.fresh j hlength

/-- After a watch has been started -/
theorem OthersWait.watch (hapi : api.Documented) (h : OthersWait api s i) {last : ConnectivityState}
    (hundecided : ¬ last.final) : AllWait api { s with core := api.watch s.core i last } where
  waits j called hj := by
    have hcalled : s.callbacks[j]? = some called := hj
    show Waits (api.watching (api.watch s.core i last) j) called
    rw [hapi.watching_watch h.unwatched]
    by_cases hij : j = i
    · subst hij
      obtain rfl := Option.some.inj (h.uncalled.symm.trans hcalled)
      rw [if_pos rfl]
      exact .waiting hundecided
    · rw [if_neg hij]
      exact h.waits j hij called hcalled
  fresh j hj := by
    have hlt : i < s.callbacks.length := (List.getElem?_eq_some_iff.mp h.uncalled).1
    have hle : s.callbacks.length ≤ j := hj
    have hij : j ≠ i := by omega
    show api.watching (api.watch s.core i last) j = none
    rw [hapi.watching_watch h.unwatched, if_neg hij]
    exact h.fresh j hle

/-! ### What `checkState` does -/

variable (api) in
/-- The four ways in which `checkState` ends -/
theorem checkState_cases (s : State κ) (i : Nat) (err : Bool) (between : List ι) :
    (err = true ∧ s.checkState api i err between = s.call i .deadline (api.connectivity s.core)) ∨
    (err = false ∧ s.wrapped = false ∧
      s.checkState api i err between = { s with crashed := true }) ∨
    (err = false ∧ s.wrapped = true ∧ ∃ result, Justified (result, api.connectivity s.core) ∧
      s.checkState api i err between =
        { s with core := api.check s.core }.call i result (api.connectivity s.core)) ∨
    (err = false ∧ s.wrapped = true ∧ ¬ (api.connectivity s.core).final ∧
      s.checkState api i err between =
        { s with core := api.watch (between.foldl api.happen (api.check s.core)) i
                  (api.connectivity s.core) }) := by
  unfold State.checkState
  cases err with
  | true => exact .inl ⟨rfl, rfl⟩
  | false =>
      cases s.wrapped with
      | false => exact .inr (.inl ⟨rfl, rfl, rfl⟩)
      | true =>
          cases api.connectivity s.core with
          | ready => exact .inr (.inr (.inl ⟨rfl, rfl, .ready, .inr (.inl rfl), rfl⟩))
          | fatalFailure => exact .inr (.inr (.inl ⟨rfl, rfl, .fatal, .inr (.inr rfl), rfl⟩))
          | idle | connecting | transientFailure =>
              exact .inr (.inr (.inr ⟨rfl, rfl, by decide, rfl⟩))

/-- `checkState` leaves everybody waiting or called back, if it does not crash. -/
theorem OthersWait.checkState (hapi : api.Documented) (h : OthersWait api s i) (err : Bool)
    (between : List ι) (hnot : (s.checkState api i err between).crashed = false) :
    AllWait api (s.checkState api i err between) := by
  have hcheck := h.of_watching (hapi.watching_check s.core)
  obtain ⟨-, heq⟩ | ⟨-, -, heq⟩ | ⟨-, -, result, hjustified, heq⟩ | ⟨-, -, hundecided, heq⟩ :=
    checkState_cases api s i err between
  · rw [heq]
    exact h.call (.inl rfl)
  · rw [heq] at hnot
    cases hnot
  · rw [heq]
    exact hcheck.call hjustified
  · rw [heq]
    exact (hcheck.of_watching (watching_foldl hapi between _)).watch hapi hundecided

/-- `checkState` crashes if it looks at a channel that is not there. -/
theorem checkState_crashed {err : Bool} {between : List ι} (hcrashed : s.crashed = false) :
    (s.checkState api i err between).crashed = false ↔ s.wrapped = true ∨ err = true := by
  obtain ⟨herr, heq⟩ | ⟨herr, hwrapped, heq⟩ | ⟨herr, hwrapped, result, -, heq⟩ |
    ⟨herr, hwrapped, -, heq⟩ := checkState_cases api s i err between
  · rw [heq]
    exact iff_of_true hcrashed (.inr herr)
  · rw [heq, herr, hwrapped]
    simp
  · rw [heq]
    exact iff_of_true hcrashed (.inl hwrapped)
  · rw [heq]
    exact iff_of_true hcrashed (.inl hwrapped)

/-! ### Every step -/

/-- Steps are taken before any crash. -/
theorem step_eq_some_iff {a : Act ι} :
    step api s a = some s' ↔ s.crashed = false ∧ act api s a = some s' := by
  unfold step
  cases s.crashed with
  | true => exact iff_of_false (fun h => by cases h) fun h => by cases h.1
  | false => exact ⟨fun h => ⟨rfl, h⟩, And.right⟩

/-- The calls that are there when an event is drained -/
theorem AllWait.of_event (hapi : api.Documented) (h : AllWait api s) {success : Bool}
    (hevent : api.event s.core i = some success) :
    OthersWait api { s with core := api.next s.core i } i := by
  obtain ⟨last, hwatching⟩ := hapi.queued hevent
  have hlt : i < s.callbacks.length := by
    by_contra hnot
    have hnone := h.fresh i (Nat.le_of_not_lt hnot)
    rw [hwatching] at hnone
    cases hnone
  have hcalled : s.callbacks[i]? = some s.callbacks[i] := List.getElem?_eq_getElem hlt
  refine ⟨fun j hj called hj' => ?_, fun j hj => ?_, ?_, ?_⟩
  · show Waits (api.watching (api.next s.core i) j) called
    rw [hapi.watching_next, if_neg hj]
    exact h.waits j called hj'
  · have hij : j ≠ i := Nat.ne_of_gt (Nat.lt_of_lt_of_le hlt hj)
    show api.watching (api.next s.core i) j = none
    rw [hapi.watching_next, if_neg hij]
    exact h.fresh j hj
  · have hwaits := h.waits i _ hcalled
    rw [hwatching] at hwaits
    -- The one who has a watch has not been called back.
    generalize s.callbacks[i] = called at hcalled hwaits
    cases hwaits with
    | waiting _ => exact hcalled
  · show api.watching (api.next s.core i) i = none
    rw [hapi.watching_next, if_pos rfl]

/-- The calls that are there when `waitForReady` is called -/
theorem AllWait.append (h : AllWait api s) :
    OthersWait api { s with callbacks := s.callbacks ++ [[]] } s.callbacks.length where
  waits j hj called hcalled := by
    have hlt : j < (s.callbacks ++ [[]]).length := (List.getElem?_eq_some_iff.mp hcalled).1
    rw [List.length_append, List.length_singleton] at hlt
    have hold : j < s.callbacks.length := by omega
    exact h.waits j called ((List.getElem?_append_left hold).symm.trans hcalled)
  fresh j hj := by
    have hle : (s.callbacks ++ [[]]).length ≤ j := hj
    rw [List.length_append, List.length_singleton] at hle
    exact h.fresh j (by omega)
  uncalled := List.getElem?_concat_length
  unwatched := h.fresh _ (Nat.le_refl _)

theorem AllWait.step {a : Act ι} (hapi : api.Documented) (h : s.crashed = false → AllWait api s)
    (hstep : step api s a = some s') : s'.crashed = false → AllWait api s' := by
  intro hcrashed'
  obtain ⟨hcrashed, hact⟩ := step_eq_some_iff.mp hstep
  have hwait := h hcrashed
  cases a with
  | waitForReady between =>
      obtain rfl := Option.some.inj hact
      exact hwait.append.checkState hapi false between hcrashed'
  | complete i between =>
      obtain ⟨success, hevent, hs'⟩ := Option.bind_eq_some_iff.mp hact
      obtain rfl := Option.some.inj hs'
      exact (hwait.of_event hapi hevent).checkState hapi (!success) between hcrashed'
  | happen e =>
      obtain rfl := Option.some.inj hact
      exact hwait.of_watching (hapi.watching_happen s.core e)
  | close =>
      obtain rfl := Option.some.inj hact
      unfold State.close
      split
      · have hdestroyed := hwait.of_watching (hapi.watching_destroy s.core)
        exact ⟨hdestroyed.waits, hdestroyed.fresh⟩
      · exact hwait
  | inspect =>
      obtain rfl := Option.some.inj hact
      split at hcrashed'
      · rw [if_pos ‹_›]
        exact hwait
      · cases hcrashed'

/-- A client that has just been made has nobody waiting. -/
theorem allWait_initial (hapi : api.Documented) : AllWait api (initial api) where
  waits i called h := by
    rw [initial, List.getElem?_nil] at h
    cases h
  fresh i _ := hapi.watching_create i

/-! ### Nobody is forgotten -/

/-- The calls of `waitForReady` that have not been called back -/
def State.waiting (s : State κ) : Nat := s.callbacks.countP List.isEmpty

/-- Who is called back is not waiting any more. -/
theorem waiting_call {result : Result} {state : ConnectivityState}
    (h : s.callbacks[i]? = some []) : (s.call i result state).waiting + 1 = s.waiting := by
  unfold State.waiting State.call
  generalize s.callbacks = callbacks at h
  induction callbacks generalizing i with
  | nil => cases h
  | cons called callbacks ih =>
      cases i with
      | zero =>
          obtain rfl := Option.some.inj h
          simp
      | succ i =>
          have hrest := ih (i := i) h
          simp only [List.modify_succ_cons, List.countP_cons] at hrest ⊢
          omega

/-- Unfolding of a step that drains an event -/
theorem step_complete {between : List ι} {success : Bool} (hcrashed : s.crashed = false)
    (hevent : api.event s.core i = some success) : step api s (.complete i between) =
      some ({ s with core := api.next s.core i }.checkState api i (!success) between) := by
  refine step_eq_some_iff.mpr ⟨hcrashed, ?_⟩
  simp only [act, hevent]
  rfl

/-- Unfolding of a step of the core -/
theorem step_happen {e : ι} (hcrashed : s.crashed = false) :
    step api s (.happen e) = some { s with core := api.happen s.core e } :=
  step_eq_some_iff.mpr ⟨hcrashed, rfl⟩

/-- In a final state a drained event ends in a call of the callback. -/
theorem checkState_final (hapi : api.Documented) (err : Bool) (hwrapped : s.wrapped = true)
    (hfinal : (api.connectivity s.core).final) :
    ∃ core result, api.connectivity core = api.connectivity s.core ∧
      s.checkState api i err [] = { s with core }.call i result (api.connectivity s.core) := by
  obtain ⟨-, heq⟩ | ⟨-, hnot, -⟩ | ⟨-, -, result, -, heq⟩ | ⟨-, -, hundecided, -⟩ :=
    checkState_cases api s i err []
  · exact ⟨s.core, .deadline, rfl, heq⟩
  · rw [hwrapped] at hnot
    cases hnot
  · refine ⟨api.check s.core, result, hapi.connectivity_check fun hidle => ?_, heq⟩
    rw [hidle] at hfinal
    revert hfinal
    decide
  · exact absurd hfinal hundecided

/-- What brings everybody back: the core puts watches into the queue, and their events are
drained. -/
def IsDrain : Act ι → Prop
  | .happen _ => True
  | .complete _ between => between = []
  | _ => False

/-- Everybody has been called back, once, and nothing has gone wrong. -/
structure Drained (s : State κ) : Prop where
  crashed : s.crashed = false
  once : ∀ called ∈ s.callbacks, ∃ callback, called = [callback]

/-- Who waits in a final state can be woken up, and is then called back. -/
theorem exists_call (hapi : api.Documented) (hcrashed : s.crashed = false)
    (hwrapped : s.wrapped = true) (hfinal : (api.connectivity s.core).final) (h : AllWait api s)
    (huncalled : s.callbacks[i]? = some []) :
    ∃ acts : List (Act ι), (∀ a ∈ acts, IsDrain a) ∧ ∃ s', Runs.exec (step api) s acts = some s' ∧
      s'.crashed = false ∧ s'.wrapped = true ∧
      api.connectivity s'.core = api.connectivity s.core ∧ s'.waiting + 1 = s.waiting := by
  obtain ⟨last, hwatching, hundecided⟩ :
      ∃ last, api.watching s.core i = some last ∧ ¬ last.final := by
    have hwaits := h.waits i [] huncalled
    generalize api.watching s.core i = watching at hwaits
    cases hwaits with
    | waiting hundecided => exact ⟨_, rfl, hundecided⟩
  -- When the event is in the queue, it is drained.
  have hdrain {core : κ} {success : Bool} (hevent : api.event core i = some success)
      (hsame : api.connectivity core = api.connectivity s.core) :
      ∃ s', Runs.exec (step api) { s with core } [.complete i []] = some s' ∧ s'.crashed = false ∧
        s'.wrapped = true ∧ api.connectivity s'.core = api.connectivity s.core ∧
        s'.waiting + 1 = s.waiting := by
    have hnext : api.connectivity (api.next core i) = api.connectivity s.core :=
      (hapi.connectivity_next core i).trans hsame
    obtain ⟨core', result, hcore', hcheck⟩ := checkState_final hapi (i := i)
      (s := { s with core := api.next core i }) (!success) hwrapped (hnext ▸ hfinal)
    have hstep : step api { s with core } (.complete i []) =
        some ({ s with core := api.next core i }.checkState api i (!success) []) :=
      step_complete hcrashed hevent
    refine ⟨_, (Runs.exec_cons_of_step hstep []).trans rfl, ?_⟩
    rw [hcheck]
    exact ⟨hcrashed, hwrapped, hcore'.trans hnext,
      waiting_call (s := { s with core := core' }) huncalled⟩
  cases hevent : api.event s.core i with
  | some success =>
      refine ⟨[.complete i []], ?_, hdrain hevent rfl⟩
      rintro a ha
      obtain rfl := List.mem_singleton.mp ha
      rfl
  | none =>
      have hne : api.connectivity s.core ≠ last := by
        rintro rfl
        exact hundecided hfinal
      obtain ⟨e, hevent', hsame⟩ := hapi.notifies hwatching hevent hne
      obtain ⟨s', hexec, hs'⟩ := hdrain hevent' hsame
      refine ⟨[.happen e, .complete i []], ?_, s', ?_, hs'⟩
      · intro a ha
        rcases List.mem_cons.mp ha with rfl | ha
        · trivial
        · obtain rfl := List.mem_singleton.mp ha
          rfl
      · rw [Runs.exec_cons_of_step (step_happen hcrashed)]
        exact hexec

/-- Everybody can be called back once the state is final. -/
theorem exists_drain (hapi : api.Documented) (hcrashed : s.crashed = false)
    (hwrapped : s.wrapped = true) (hfinal : (api.connectivity s.core).final) (h : AllWait api s) :
    ∃ acts : List (Act ι), (∀ a ∈ acts, IsDrain a) ∧
      ∃ s', Runs.exec (step api) s acts = some s' ∧ Drained s' := by
  induction hn : s.waiting generalizing s with
  | zero =>
      refine ⟨[], List.forall_mem_nil _, s, rfl, hcrashed, fun called hcalled => ?_⟩
      obtain ⟨i, hi⟩ := List.mem_iff_getElem?.mp hcalled
      have hne : ¬ called.isEmpty = true := List.countP_eq_zero.mp hn called hcalled
      have hwaits := h.waits i called hi
      generalize api.watching s.core i = watching at hwaits
      cases hwaits with
      | waiting _ => exact absurd rfl hne
      | called _ => exact ⟨_, rfl⟩
  | succ n ih =>
      have hpos : 0 < s.callbacks.countP List.isEmpty := by
        show 0 < s.waiting
        omega
      obtain ⟨called, hcalled, hempty⟩ := List.countP_pos_iff.mp hpos
      obtain rfl := List.isEmpty_iff.mp hempty
      obtain ⟨i, hi⟩ := List.mem_iff_getElem?.mp hcalled
      obtain ⟨first, hfirst, s₁, hexec₁, hcrashed₁, hwrapped₁, hsame, hcount⟩ :=
        exists_call hapi hcrashed hwrapped hfinal h hi
      have hwait₁ := Runs.exec_invariant (P := fun s => s.crashed = false → AllWait api s)
        (fun _ _ _ => AllWait.step hapi) (fun _ => h) hexec₁ hcrashed₁
      obtain ⟨rest, hrest, s₂, hexec₂, hs₂⟩ :=
        ih hcrashed₁ hwrapped₁ (hsame ▸ hfinal) hwait₁ (by omega)
      refine ⟨first ++ rest, ?_, s₂, ?_, hs₂⟩
      · intro a ha
        exact (List.mem_append.mp ha).elim (hfirst a) (hrest a)
      · rw [Runs.exec_append, hexec₁]
        exact hexec₂

variable (api) in
/-- **Nobody is forgotten.** Everybody waits or has been called back once; and when the state is
final, everybody who waits can be woken up and called back. -/
structure Remembered (s : State κ) : Prop where
  waits : AllWait api s
  drains : s.wrapped = true → (api.connectivity s.core).final →
    ∃ acts : List (Act ι), (∀ a ∈ acts, IsDrain a) ∧
      ∃ s', Runs.exec (step api) s acts = some s' ∧ Drained s'

variable (api) in
/-- The step does not look at the channel, or the channel is there. -/
def Safe (s : State κ) : Act ι → Prop
  | .waitForReady _ | .inspect => s.wrapped = true
  | .complete i _ => s.wrapped = true ∨ api.event s.core i = some false
  | _ => True

/-- A step crashes exactly if it is not safe. -/
theorem crashed_step {a : Act ι} (h : step api s a = some s') :
    s'.crashed = false ↔ Safe api s a := by
  obtain ⟨hcrashed, hact⟩ := step_eq_some_iff.mp h
  cases a with
  | waitForReady between =>
      obtain rfl := Option.some.inj hact
      refine (checkState_crashed (s := { s with callbacks := s.callbacks ++ [[]] })
        hcrashed).trans ?_
      rw [Safe, Bool.false_eq_true, or_false]
  | complete i between =>
      obtain ⟨success, hevent, hs'⟩ := Option.bind_eq_some_iff.mp hact
      obtain rfl := Option.some.inj hs'
      refine (checkState_crashed (s := { s with core := api.next s.core i }) hcrashed).trans ?_
      rw [Safe, hevent, Option.some.injEq, Bool.not_eq_true']
  | happen e =>
      obtain rfl := Option.some.inj hact
      exact iff_of_true hcrashed trivial
  | close =>
      obtain rfl := Option.some.inj hact
      refine iff_of_true ?_ trivial
      unfold State.close
      split <;> exact hcrashed
  | inspect =>
      obtain rfl := Option.some.inj hact
      unfold Safe
      cases hwrapped : s.wrapped with
      | true => exact iff_of_true hcrashed rfl
      | false => simp

variable (api) in
/-- A call that waits for a channel that has been closed, before its deadline -/
structure Doomed (i : Nat) (s : State κ) : Prop where
  closed : s.wrapped = false
  shutdown : api.connectivity s.core = .fatalFailure
  watching : ∃ last, api.watching s.core i = some last ∧ last ≠ .fatalFailure
  inTime : api.event s.core i ≠ some false
  uncalled : s.callbacks[i]? = some []

/-- Whoever waits when the channel is closed has not seen it shut down. -/
theorem AllWait.doomed (hapi : api.Documented) (h : AllWait api s) (hwrapped : s.wrapped = true)
    {last : ConnectivityState} (hwatching : api.watching s.core i = some last)
    (hevent : api.event s.core i ≠ some false) : Doomed api i (s.close api) := by
  have hlt : i < s.callbacks.length := by
    by_contra hnot
    rw [h.fresh i (Nat.le_of_not_lt hnot)] at hwatching
    cases hwatching
  have hcalled : s.callbacks[i]? = some s.callbacks[i] := List.getElem?_eq_getElem hlt
  have hwaits := h.waits i _ hcalled
  rw [hwatching] at hwaits
  generalize s.callbacks[i] = called at hcalled hwaits
  cases hwaits with
  | waiting hundecided =>
      rw [State.close, if_pos hwrapped]
      exact {
        closed := rfl
        shutdown := hapi.connectivity_destroy s.core
        watching := ⟨last, (hapi.watching_destroy s.core i).trans hwatching,
          fun hfatal => hundecided (.inr hfatal)⟩
        inTime := fun hfalse => hevent (hapi.event_destroy hfalse)
        uncalled := hcalled }

/-- Nothing but a crash can come of it. -/
theorem Doomed.step {a : Act ι} (hapi : api.Documented) (h : s.crashed = false → Doomed api i s)
    (hstep : step api s a = some s') : s'.crashed = false → Doomed api i s' := by
  intro hcrashed'
  obtain ⟨hcrashed, hact⟩ := step_eq_some_iff.mp hstep
  have hsafe := (crashed_step hstep).mp hcrashed'
  have hdoomed := h hcrashed
  obtain ⟨last, hwatching, hne⟩ := hdoomed.watching
  cases a with
  | waitForReady between => exact absurd (hdoomed.closed.symm.trans hsafe) Bool.false_ne_true
  | inspect => exact absurd (hdoomed.closed.symm.trans hsafe) Bool.false_ne_true
  | happen e =>
      obtain rfl := Option.some.inj hact
      have hnow : api.connectivity s.core ≠ last := by
        rw [hdoomed.shutdown]
        exact Ne.symm hne
      exact {
        closed := hdoomed.closed
        shutdown := hapi.shutdown hdoomed.shutdown e
        watching := ⟨last, (hapi.watching_happen s.core e i).trans hwatching, hne⟩
        inTime := fun hfalse => hdoomed.inTime (hapi.inTime hwatching hnow hfalse)
        uncalled := hdoomed.uncalled }
  | close =>
      obtain rfl := Option.some.inj hact
      rw [State.close, if_neg (Bool.eq_false_iff.mp hdoomed.closed)]
      exact hdoomed
  | complete j between =>
      -- It is the deadline of another call.
      have hfalse : api.event s.core j = some false := by
        rcases hsafe with hopen | hfalse
        · exact absurd (hdoomed.closed.symm.trans hopen) Bool.false_ne_true
        · exact hfalse
      have hij : i ≠ j := by
        rintro rfl
        exact hdoomed.inTime hfalse
      obtain ⟨success, hevent, hs'⟩ := Option.bind_eq_some_iff.mp hact
      obtain rfl := Option.some.inj hs'
      obtain rfl := Option.some.inj (hfalse.symm.trans hevent)
      exact {
        closed := hdoomed.closed
        shutdown := (hapi.connectivity_next s.core j).trans hdoomed.shutdown
        watching := ⟨last, by
          show api.watching (api.next s.core j) i = some last
          rw [hapi.watching_next, if_neg hij, hwatching], hne⟩
        inTime := by
          show api.event (api.next s.core j) i ≠ some false
          rw [hapi.event_next s.core j i hij]
          exact hdoomed.inTime
        uncalled := (List.getElem?_modify_ne _ _ (Ne.symm hij)).trans hdoomed.uncalled }

/-- The core wakes it up, and it asks for the state again. -/
theorem Doomed.crashes (hapi : api.Documented) (h : Doomed api i s) (hcrashed : s.crashed = false) :
    ∃ acts : List (Act ι), (∀ a ∈ acts, IsDrain a) ∧
      ∃ s', Runs.exec (WaitForReady.step api) s acts = some s' ∧ s'.crashed = true := by
  obtain ⟨last, hwatching, hne⟩ := h.watching
  have hdrain {core : κ} (hevent : api.event core i = some true) :
      ∃ s', Runs.exec (WaitForReady.step api) { s with core } [.complete i []] = some s' ∧
        s'.crashed = true := by
    have hstep : WaitForReady.step api { s with core } (.complete i []) =
        some ({ s with core := api.next core i }.checkState api i (!true) []) :=
      step_complete (s := { s with core }) hcrashed hevent
    refine ⟨_, (Runs.exec_cons_of_step hstep []).trans rfl, ?_⟩
    unfold State.checkState
    rw [Bool.not_true, if_neg Bool.false_ne_true, h.closed]
    rfl
  cases hevent : api.event s.core i with
  | some success =>
      cases success with
      | false => exact absurd hevent h.inTime
      | true =>
          refine ⟨[.complete i []], fun a ha => ?_, hdrain hevent⟩
          obtain rfl := List.mem_singleton.mp ha
          rfl
  | none =>
      have hnow : api.connectivity s.core ≠ last := by
        rw [h.shutdown]
        exact Ne.symm hne
      obtain ⟨e, hevent', -⟩ := hapi.notifies hwatching hevent hnow
      obtain ⟨s', hexec, hs'⟩ := hdrain hevent'
      refine ⟨[.happen e, .complete i []], fun a ha => ?_, s', ?_, hs'⟩
      · rcases List.mem_cons.mp ha with rfl | ha
        · trivial
        · obtain rfl := List.mem_singleton.mp ha
          rfl
      · rw [Runs.exec_cons_of_step (step_happen hcrashed)]
        exact hexec

/-- The core is handed a null channel exactly by a step that is not `Safe`. A call of `waitForReady`
whose deadline has not passed when the channel is closed leads to such a step: whatever happens
after that, it is not called back, and the core can wake it up, which makes it ask for the state
again. -/
theorem crashes_iff (hapi : api.Documented) (acts : List (Act ι)) :
    (Runs.Always (step api) (fun s => s.crashed = false) (initial api) acts ↔
      Runs.Guarded (step api) (Safe api) (initial api) acts) ∧
    ∀ s, Runs.exec (step api) (initial api) acts = some s → s.crashed = false → s.wrapped = true →
      ∀ i last, api.watching s.core i = some last → api.event s.core i ≠ some false →
        ∀ rest s', Runs.exec (step api) s (.close :: rest) = some s' → s'.crashed = false →
          s'.callbacks[i]? = some [] ∧ ∃ acts : List (Act ι), (∀ a ∈ acts, IsDrain a) ∧
            ∃ s'', Runs.exec (step api) s' acts = some s'' ∧ s''.crashed = true := by
  constructor
  · refine Runs.always_iff_guarded (J := fun _ => True) (fun s a s' _ _ h => crashed_step h) ?_
      trivial rfl
    intro s a s' _ _ _ _
    trivial
  · intro s hs hcrashed hwrapped i last hwatching hevent rest s' hs' hcrashed'
    have hwait : AllWait api s :=
      Runs.exec_invariant (P := fun s => s.crashed = false → AllWait api s)
        (fun _ _ _ => AllWait.step hapi) (fun _ => allWait_initial hapi) hs hcrashed
    have hclose : step api s .close = some (s.close api) := step_eq_some_iff.mpr ⟨hcrashed, rfl⟩
    rw [Runs.exec_cons_of_step hclose] at hs'
    have hdoomed : Doomed api i s' :=
      Runs.exec_invariant (P := fun s => s.crashed = false → Doomed api i s)
        (fun _ _ _ => Doomed.step hapi) (fun _ => hwait.doomed hapi hwrapped hwatching hevent)
        hs' hcrashed'
    exact ⟨hdoomed.uncalled, hdoomed.crashes hapi hcrashed'⟩

/-! ### A core -/

/-- A channel, with the watches in progress: the last observed state, and whether the event is in
the queue -/
structure Channel where
  connectivity : ConnectivityState := .idle
  watches : Nat → Option (ConnectivityState × Option Bool) := fun _ => none

/-- What happens to it -/
inductive Happening
  | change (state : ConnectivityState)
  /-- A watch is put into the queue, because the state is different, or else because of its
  deadline. -/
  | tell (tag : Nat)
  deriving Repr, DecidableEq

namespace Channel

def set (k : Channel) (tag : Nat) (watch : Option (ConnectivityState × Option Bool)) : Channel :=
  { k with watches := fun tag' => if tag' = tag then watch else k.watches tag' }

/-- A channel that has shut down stays so. -/
def change (k : Channel) (state : ConnectivityState) : Channel :=
  if k.connectivity = .fatalFailure then k else { k with connectivity := state }

def tell (k : Channel) (tag : Nat) : Channel :=
  match k.watches tag with
  | some (last, none) => k.set tag (some (last, some (decide (last ≠ k.connectivity))))
  | _ => k

def happen (k : Channel) : Happening → Channel
  | .change state => k.change state
  | .tell tag => k.tell tag

/-- A core that does what it is documented to do -/
def core : Connectivity Channel Happening where
  create := {}
  connectivity := connectivity
  check k := k
  watch k tag last := k.set tag (some (last, none))
  happen := happen
  destroy k := { k with connectivity := .fatalFailure }
  next k tag := k.set tag none
  watching k tag := (k.watches tag).map Prod.fst
  event k tag := (k.watches tag).bind Prod.snd

/-- What happens leaves the watches in progress. -/
theorem watching_happen (k : Channel) (e : Happening) (tag : Nat) :
    ((k.happen e).watches tag).map Prod.fst = (k.watches tag).map Prod.fst := by
  cases e with
  | change state =>
      show ((k.change state).watches tag).map Prod.fst = _
      unfold change
      split <;> rfl
  | tell tag' =>
      show ((k.tell tag').watches tag).map Prod.fst = _
      unfold tell
      split
      · rename_i last heq
        by_cases htag : tag = tag'
        · subst htag
          simp only [set, if_true, heq, Option.map_some]
        · simp only [set, htag, if_false]
      · rfl

/-- A watch is told that the state is different, if it is. -/
theorem event_happen {k : Channel} {e : Happening} {tag : Nat} {last : ConnectivityState}
    (hwatching : (k.watches tag).map Prod.fst = some last) (hne : k.connectivity ≠ last)
    (h : ((k.happen e).watches tag).bind Prod.snd = some false) :
    (k.watches tag).bind Prod.snd = some false := by
  cases e with
  | change state =>
      have hchange : ((k.change state).watches tag).bind Prod.snd = some false := h
      unfold change at hchange
      split at hchange <;> exact hchange
  | tell tag' =>
      have htell : ((k.tell tag').watches tag).bind Prod.snd = some false := h
      unfold tell at htell
      split at htell
      · rename_i last' heq
        by_cases htag : tag = tag'
        · subst htag
          rw [heq] at hwatching
          obtain rfl := Option.some.inj hwatching
          simp [set, Ne.symm hne] at htell
        · simpa only [set, htag, if_false] using htell
      · exact htell

theorem core_documented : core.Documented where
  watching_create _ := rfl
  watching_check _ _ := rfl
  watching_happen := watching_happen
  watching_destroy _ _ := rfl
  watching_watch _ last tag' := by
    show ((set _ _ _).watches tag').map Prod.fst = _
    simp only [set]
    split <;> rfl
  watching_next k tag tag' := by
    show ((set _ _ _).watches tag').map Prod.fst = _
    simp only [set]
    split <;> rfl
  queued h := by
    obtain ⟨watch, hwatch, -⟩ := Option.bind_eq_some_iff.mp h
    exact ⟨watch.1, congrArg (Option.map Prod.fst) hwatch⟩
  event_next k tag tag' h := congrArg (Option.bind · Prod.snd) (if_neg h)
  notifies := by
    intro k tag last hwatching hevent hne
    obtain ⟨⟨last', success⟩, hwatch, rfl⟩ := Option.map_eq_some_iff.mp hwatching
    have hnone : success = none := by
      have hbind : (k.watches tag).bind Prod.snd = none := hevent
      rwa [hwatch] at hbind
    subst hnone
    have hdifferent : decide (last' ≠ k.connectivity) = true := decide_eq_true (Ne.symm hne)
    have htell : k.tell tag = k.set tag (some (last', some true)) := by
      simp only [tell, hwatch, hdifferent]
    refine ⟨.tell tag, ?_, ?_⟩
    · show ((k.tell tag).watches tag).bind Prod.snd = some true
      rw [htell]
      exact congrArg (Option.bind · Prod.snd) (if_pos rfl)
    · show (k.tell tag).connectivity = k.connectivity
      rw [htell]
      rfl
  inTime := event_happen
  connectivity_check _ := rfl
  connectivity_next _ _ := rfl
  connectivity_destroy _ := rfl
  event_destroy h := h
  shutdown := by
    intro k h e
    cases e with
    | change state => exact (congrArg connectivity (if_pos h)).trans h
    | tell tag =>
        show (k.tell tag).connectivity = .fatalFailure
        unfold tell
        split <;> exact h

end Channel

/-- The channel has begun to connect when the watch starts. -/
def connecting : List (Act Happening) := [.waitForReady [.change .connecting]]

example : (Runs.exec (step Channel.core) (initial Channel.core)
    (connecting ++ [.happen (.change .ready), .happen (.tell 0), .complete 0 []])).map
      State.callbacks = some [[(.ready, .ready)]] := rfl

/-- A client is closed while it waits. -/
theorem crashes_iff_connecting :
    Runs.Always (step Channel.core) (fun s => s.crashed = false) (initial Channel.core) connecting ∧
      ∀ s, Runs.exec (step Channel.core) (initial Channel.core) connecting = some s →
        ∀ s', Runs.exec (step Channel.core) s [.close] = some s' →
          ∃ acts : List (Act Happening), (∀ a ∈ acts, IsDrain a) ∧
            ∃ s'', Runs.exec (step Channel.core) s' acts = some s'' ∧ s''.crashed = true := by
  refine ⟨(crashes_iff Channel.core_documented _).1.mpr fun _ _ => ⟨rfl, trivial⟩, ?_⟩
  intro s hs s' hs'
  obtain rfl := Option.some.inj hs
  refine ((crashes_iff Channel.core_documented connecting).2 _ rfl rfl rfl 0 .idle rfl ?_ [] s' hs'
    ?_).2
  · exact fun h => by cases h
  · obtain rfl := Option.some.inj hs'
    rfl

end GrpcNode.NativeCore.WaitForReady
