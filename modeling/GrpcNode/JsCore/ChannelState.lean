import GrpcNode.JsCore.ChannelCalls

/-!
# GrpcNode.JsCore.ChannelState

The connectivity state of a channel and its sessions.

`Connection` is what the connectivity of a channel consists of, and `Connection.After` says
once what each action does to it (`step_connection`). Two properties are settled with it:
that `close` is final (`closedForGood_iff`), and that the connectivity state agrees with the
session in `subChannel` (`stateAgrees_iff`). Both fail, because the callbacks of a session
go on working for the channel when the channel has dropped the session; both hold exactly as
long as no such callback comes.
-/

namespace GrpcNode.JsCore.Channel

open GrpcNode.Js

/-! ### The connection -/

/-- What the connectivity of a channel consists of. -/
structure Connection where
  connectivityState : ConnectivityState
  subChannel : SubChannel
  sessions : List Session
  closed : Option Nat

namespace Connection

variable (c : Connection)

/-- A new session is started, if there is no reason not to. -/
def kick : Connection :=
  if c.connectivityState = .idle then
    { c with
      connectivityState := .connecting
      subChannel := .session c.sessions.length
      sessions := c.sessions ++ [{}] }
  else c

def onSessionConnect (i : Nat) : Connection :=
  { c with
    connectivityState := .ready
    sessions := c.sessions.modify i fun session => { session with connected := true } }

def shutdownSession (i : Nat) : Connection :=
  { c with sessions := c.sessions.modify i fun session => { session with shutdown := true } }

def shutdownSubChannel : Connection :=
  match c.subChannel with
  | .session i => c.shutdownSession i
  | .null | .undefined => c

def goIdle : Connection :=
  match c.subChannel with
  | .session i => { c.shutdownSession i with connectivityState := .idle, subChannel := .null }
  | .null => { c with connectivityState := .idle }
  | .undefined => c

def close : Connection :=
  if c.connectivityState = .shutdown then c
  else
    { c with
      connectivityState := .shutdown
      closed := c.closed.or (some c.sessions.length) }.shutdownSubChannel

/-- What an action does to the connection. -/
def After {γ : Type} (c c' : Connection) : Act γ → Prop
  | .sessionConnect i => (∃ session, c.sessions[i]? = some session) ∧ c' = c.onSessionConnect i
  | .sessionTimeout i => i < c.sessions.length ∧ c' = c.goIdle
  | .close => c' = c.close
  | _ => c' = c ∨ c' = c.kick

theorem kick_kick : c.kick.kick = c.kick := by
  unfold kick
  by_cases h : c.connectivityState = .idle
  · simp [h]
  · simp [h]

end Connection

namespace State

variable {γ : Type} (s : State γ)

def connection : Connection where
  connectivityState := s.connectivityState
  subChannel := s.subChannel
  sessions := s.sessions
  closed := s.closed

/-! ### What the functions do to it -/

@[simp] theorem connection_emit (newState : ConnectivityState) :
    (s.emit newState).connection = s.connection := by
  unfold emit
  split <;> rfl

theorem connection_transitionToState (newState : ConnectivityState) :
    (s.transitionToState newState).connection =
      { s.connection with connectivityState := newState } := by
  unfold transitionToState
  split
  · rename_i h
    rw [h]
    rfl
  · rw [connection_emit]
    rfl

theorem connection_startConnecting :
    s.startConnecting.connection =
      { s.connection with
        connectivityState := .connecting
        subChannel := .session s.sessions.length
        sessions := s.sessions ++ [{}] } := by
  have h := s.connection_transitionToState .connecting
  show ({ (s.transitionToState .connecting).connection with
      subChannel := .session s.sessions.length, sessions := s.sessions ++ [{}] } : Connection) = _
  rw [h]

theorem connection_kickConnectivityState :
    s.kickConnectivityState.connection = s.connection.kick := by
  unfold kickConnectivityState Connection.kick
  by_cases h : s.connectivityState = .idle
  · rw [if_pos h, if_pos (show s.connection.connectivityState = .idle from h),
      connection_startConnecting]
    rfl
  · rw [if_neg h, if_neg (show s.connection.connectivityState ≠ .idle from h)]

theorem connection_waitReady (listener : Listener) :
    (s.waitReady listener).connection = s.connection := by
  unfold waitReady
  split <;> rfl

theorem connection_connect (callback : Callback) :
    (s.connect callback).connection = s.connection.kick := by
  rw [connect, connection_waitReady, connection_kickConnectivityState]
  rfl

/-- Starting a call kicks the channel, once or twice. -/
theorem connection_startHttp2Stream (call : Nat) (deadline : JsNumber) :
    (s.startHttp2Stream call deadline).connection = s.connection.kick := by
  unfold startHttp2Stream
  dsimp only
  by_cases h : deadline = noDeadline
  · rw [if_pos h, connection_connect]
    rfl
  · rw [if_neg h, connection_connect, connection_connect, Connection.kick_kick]
    rfl

theorem connection_goIdle : s.goIdle.connection = s.connection.goIdle := by
  unfold goIdle Connection.goIdle
  rw [show s.connection.subChannel = s.subChannel from rfl]
  cases h : s.subChannel with
  | undefined => rfl
  | null =>
      dsimp only
      rw [connection_transitionToState, connection, h]
  | session i => exact connection_transitionToState _ .idle

theorem connection_onSessionConnect (i : Nat) :
    (s.onSessionConnect i).connection = s.connection.onSessionConnect i :=
  connection_transitionToState _ .ready

theorem connection_shutdownSubChannel :
    s.shutdownSubChannel.connection = s.connection.shutdownSubChannel := by
  unfold shutdownSubChannel Connection.shutdownSubChannel
  rw [show s.connection.subChannel = s.subChannel from rfl]
  cases s.subChannel <;> rfl

theorem connection_close : s.close.connection = s.connection.close := by
  unfold close Connection.close
  by_cases h : s.connectivityState = .shutdown
  · rw [if_pos h, if_pos (show s.connection.connectivityState = .shutdown from h)]
    rfl
  · rw [if_neg h, if_neg (show s.connection.connectivityState ≠ .shutdown from h),
      connection_shutdownSubChannel, connection_transitionToState]
    rfl

/-- The calls have no part in it. -/
theorem connection_of_bare {s s' : State γ} (h : s'.bare = s.bare) :
    s'.connection = s.connection := by
  show s'.bare.connection = s.bare.connection
  rw [h]

theorem connection_invoke (now : Int) (listener : Listener) :
    (s.invoke now listener).connection = s.connection :=
  (connection_of_bare (bare_runCallback { s with invoked := s.invoked ++ [listener.id] } now
    listener.callback)).trans rfl

theorem connection_emitNext (now : Int) (listener : Listener) (rest : List Listener) :
    (s.emitNext now listener rest).connection = s.connection := by
  unfold emitNext
  dsimp only
  split
  · exact connection_invoke _ now listener
  · rfl

end State

/-- **What a step does to the connection** is what its action says. -/
theorem step_connection {γ : Type} {config : Config γ} {s s' : State γ} {a : Act γ}
    (h : step config s a = some s') : s.connection.After s'.connection a := by
  cases step_effect h with
  | connect => exact .inr (s.connection_connect .user)
  | create _ _ _ _ => exact .inr (State.connection_startHttp2Stream _ _ _)
  | refuse _ _ _ _ => exact .inl rfl
  | close => exact s.connection_close
  | @sessionConnect i session _ hsession _ =>
      exact ⟨⟨session, hsession⟩, s.connection_onSessionConnect i⟩
  | sessionTimeout _ hi => exact ⟨hi, s.connection_goIdle⟩
  | emitted _ _ => exact .inl rfl
  | emitNext now _ => exact .inl (s.connection_emitNext now _ _)
  | invoke now _ _ => exact .inl (State.connection_invoke _ now _)
  | restart _ _ _ => exact .inr (State.connection_startHttp2Stream _ _ _)
  | filter _ _ _ hfilter => exact .inl (State.connection_of_bare (s.bare_filter hfilter))
  | settle _ _ _ _ hsettle =>
      rcases s.bare_settle hsettle with hbare | hbare
      · exact .inl (State.connection_of_bare hbare)
      · exact .inl ((State.connection_of_bare hbare).trans rfl)
  | callEnds _ _ => exact .inl rfl

/-! ### What holds in every run -/

namespace Connection

/-- The part of the bookkeeping that does not depend on which callbacks come. -/
structure Linked (c : Connection) : Prop where
  closed : c.connectivityState = .shutdown → c.closed ≠ none
  undefined : c.subChannel = .undefined → c.sessions = []
  notFailing : c.connectivityState ≠ .transientFailure
  /-- The session being connected has not had its `'connect'` event. -/
  connecting : c.connectivityState = .connecting → ∀ i, c.subChannel = .session i →
    ∀ session, c.sessions[i]? = some session → session.connected = false
  /-- The session of a channel that is shut down has been asked to shut down. -/
  shutdown : c.connectivityState = .shutdown → ∀ i, c.subChannel = .session i →
    ∀ session, c.sessions[i]? = some session → session.shutdown = true

variable {c c' : Connection}

theorem Linked.kick (hc : c.Linked) : c.kick.Linked := by
  unfold Connection.kick
  by_cases h : c.connectivityState = .idle
  · rw [if_pos h]
    refine ⟨nofun, nofun, nofun, ?_, nofun⟩
    -- The new session is the last one, and it has not had any event.
    intro _ i hi session hsession
    obtain rfl := SubChannel.session.inj hi
    rw [List.getElem?_concat_length, Option.some.injEq] at hsession
    rw [← hsession]
  · rwa [if_neg h]

theorem Linked.onSessionConnect (hc : c.Linked) (i : Nat) : (c.onSessionConnect i).Linked where
  closed := nofun
  undefined h := by simp [Connection.onSessionConnect, hc.undefined h]
  notFailing := nofun
  connecting := nofun
  shutdown := nofun

theorem Linked.goIdle (hc : c.Linked) : c.goIdle.Linked := by
  unfold Connection.goIdle
  split
  · exact ⟨nofun, nofun, nofun, nofun, nofun⟩
  · rename_i hsub
    exact ⟨nofun, fun h => absurd (hsub.symm.trans h) nofun, nofun, nofun, nofun⟩
  · exact hc

theorem Linked.close (hc : c.Linked) : c.close.Linked := by
  unfold Connection.close
  by_cases h : c.connectivityState = .shutdown
  · rwa [if_pos h]
  · rw [if_neg h]
    have hclosed : c.closed.or (some c.sessions.length) ≠ none := by simp
    unfold Connection.shutdownSubChannel
    dsimp only
    split
    · rename_i i hsub
      refine ⟨fun _ => hclosed, fun h => absurd (hsub.symm.trans h) nofun, nofun, nofun, ?_⟩
      intro _ j hj session hsession
      obtain rfl := SubChannel.session.inj (hsub.symm.trans hj)
      simp only [Connection.shutdownSession, List.getElem?_modify_eq] at hsession
      obtain ⟨session', -, rfl⟩ := Option.map_eq_some_iff.mp hsession
      rfl
    · rename_i hsub
      exact ⟨fun _ => hclosed, hc.undefined, nofun, nofun,
        fun _ i hi => absurd (hsub.symm.trans hi) nofun⟩
    · rename_i hsub
      exact ⟨fun _ => hclosed, hc.undefined, nofun, nofun,
        fun _ i hi => absurd (hsub.symm.trans hi) nofun⟩

theorem Linked.after {γ : Type} {a : Act γ} (hc : c.Linked) (h : c.After c' a) : c'.Linked := by
  cases a with
  | sessionConnect i =>
      obtain ⟨-, rfl⟩ := h
      exact hc.onSessionConnect i
  | sessionTimeout i =>
      obtain ⟨-, rfl⟩ := h
      exact hc.goIdle
  | close =>
      obtain rfl := h
      exact hc.close
  | _ =>
      rcases h with rfl | rfl
      · exact hc
      · exact hc.kick

end Connection

variable {γ : Type} {config : Config γ} {s s' : State γ} {a : Act γ}

theorem linked_step (hs : s.connection.Linked) (h : step config s a = some s') :
    s'.connection.Linked :=
  hs.after (step_connection h)

theorem initial_linked (objects : Nat → Metadata) :
    (State.initial objects : State γ).connection.Linked :=
  ⟨nofun, fun _ => rfl, nofun, nofun, nofun⟩

/-- The callbacks that a session runs for the channel. -/
def Act.IsSessionEvent : Act γ → Prop
  | .sessionConnect _ | .sessionTimeout _ => True
  | _ => False

/-! ### Shutting down -/

/-- Once `close` was called, the channel is shut down, has no new session, and creates no
streams. -/
def ClosedForGood (s : State γ) : Prop :=
  ∀ n, s.closed = some n →
    s.connectivityState = .shutdown ∧ s.sessions.length = n ∧
    ∀ metadata methodName options, s.createStream metadata methodName options =
      .error (.error "Channel has been shut down")

/-- The same of the connection: that `createStream` throws is a matter of the state. -/
def Connection.ClosedForGood (c : Connection) : Prop :=
  ∀ n, c.closed = some n → c.connectivityState = .shutdown ∧ c.sessions.length = n

theorem closedForGood_connection : ClosedForGood s ↔ s.connection.ClosedForGood := by
  constructor
  · intro h n hn
    exact ⟨(h n hn).1, (h n hn).2.1⟩
  · intro h n hn
    obtain ⟨hstate, hlen⟩ := h n hn
    refine ⟨hstate, hlen, ?_⟩
    intro metadata methodName options
    exact if_pos hstate

namespace Connection

variable {c c' : Connection}

theorem ClosedForGood.closed_eq_none (hc : c.ClosedForGood) (h : c.connectivityState ≠ .shutdown) :
    c.closed = none := by
  cases hclosed : c.closed with
  | none => rfl
  | some n => exact absurd (hc n hclosed).1 h

@[simp] theorem shutdownSubChannel_fields :
    c.shutdownSubChannel.connectivityState = c.connectivityState ∧
      c.shutdownSubChannel.closed = c.closed ∧
      c.shutdownSubChannel.sessions.length = c.sessions.length := by
  unfold shutdownSubChannel
  split
  · exact ⟨rfl, rfl, List.length_modify _ _ _⟩
  · exact ⟨rfl, rfl, rfl⟩
  · exact ⟨rfl, rfl, rfl⟩

theorem ClosedForGood.close (hc : c.ClosedForGood) : c.close.ClosedForGood := by
  unfold Connection.close
  by_cases h : c.connectivityState = .shutdown
  · rwa [if_pos h]
  · rw [if_neg h]
    intro n hn
    obtain ⟨hstate, hclosed, hlen⟩ := shutdownSubChannel_fields (c := { c with
      connectivityState := .shutdown
      closed := c.closed.or (some c.sessions.length) })
    rw [hclosed, hc.closed_eq_none h, Option.none_or, Option.some.injEq] at hn
    exact ⟨hstate, hlen.trans hn⟩

theorem ClosedForGood.kick (hc : c.ClosedForGood) : c.kick.ClosedForGood := by
  unfold Connection.kick
  by_cases h : c.connectivityState = .idle
  · rw [if_pos h]
    have hclosed := hc.closed_eq_none (by rw [h]; nofun)
    exact fun n hn => absurd (hclosed.symm.trans hn) nofun
  · rwa [if_neg h]

/-- A session's callback takes the channel out of its state. -/
theorem leaves_shutdown_of_event (hlinked : c.Linked) (h : c.After c' a) (ha : a.IsSessionEvent) :
    c'.closed = c.closed ∧ c'.connectivityState ≠ .shutdown := by
  cases a with
  | sessionConnect i =>
      obtain ⟨-, rfl⟩ := h
      exact ⟨rfl, nofun⟩
  | sessionTimeout i =>
      obtain ⟨hi, rfl⟩ := h
      unfold goIdle
      split
      · exact ⟨rfl, nofun⟩
      · exact ⟨rfl, nofun⟩
      · rename_i hsub
        rw [hlinked.undefined hsub] at hi
        exact absurd hi (Nat.not_lt_zero i)
  | _ => exact absurd ha id

/-- One step: the shutdown stays final exactly if no session's callback comes after it. -/
theorem closedForGood_after (hlinked : c.Linked) (hc : c.ClosedForGood) (h : c.After c' a) :
    c'.ClosedForGood ↔ (c.connectivityState = .shutdown → ¬ a.IsSessionEvent) := by
  by_cases ha : a.IsSessionEvent
  · -- The event leaves `SHUTDOWN`, which is wrong exactly if the channel was closed.
    obtain ⟨hclosed, hstate⟩ := leaves_shutdown_of_event hlinked h ha
    constructor
    · intro hc' hshutdown
      obtain ⟨n, hn⟩ := Option.ne_none_iff_exists'.mp (hlinked.closed hshutdown)
      exact absurd (hc' n (hclosed.trans hn)).1 hstate
    · intro hcond n hn
      have hne : c.connectivityState ≠ .shutdown := fun hshutdown => hcond hshutdown ha
      exact absurd ((hclosed.trans (hc.closed_eq_none hne)).symm.trans hn) nofun
  · refine iff_of_true ?_ fun _ => ha
    cases a with
    | sessionConnect i => exact absurd trivial ha
    | sessionTimeout i => exact absurd trivial ha
    | close =>
        obtain rfl := h
        exact hc.close
    | _ =>
        rcases h with rfl | rfl
        · exact hc
        · exact hc.kick

end Connection

/-- **When shutting down is final.** In every run, a channel stays shut down after `close`,
starts no session and creates no stream, if and only if no `'connect'` event and no idle
timeout of a session comes while the channel is shut down. -/
theorem closedForGood_iff (config : Config γ) (objects : Nat → Metadata) (acts : List (Act γ)) :
    Runs.Always (step config) ClosedForGood (State.initial objects) acts ↔
      Runs.Guarded (step config)
        (fun s a => s.connectivityState = .shutdown → ¬ a.IsSessionEvent)
        (State.initial objects) acts := by
  refine Runs.always_iff_guarded (J := fun s => s.connection.Linked) ?_
    (fun _ _ _ hlinked _ _ h => linked_step hlinked h) (initial_linked objects) nofun
  intro s a s' hlinked hs h
  rw [closedForGood_connection] at hs ⊢
  exact Connection.closedForGood_after hlinked hs (step_connection h)

/-- `close` while the channel is connecting; the session connects all the same, and the
channel is ready again. -/
theorem close_then_connect :
    ¬ Runs.Always (step (γ := Nat) ⟨"localhost", .empty⟩) ClosedForGood
      (State.initial fun _ => Metadata.new) [.connect, .close, .sessionConnect 0] := by
  intro h
  have hlast := h.last (t := _) rfl
  exact absurd (hlast 1 rfl).1 nofun

/-! ### The state and the session -/

/-- The connectivity state tells what `subChannel` is, and every request was made on a
session that had connected. -/
structure StateAgrees (s : State γ) : Prop where
  ready : s.connectivityState = .ready →
    ∃ i, s.subChannel = .session i ∧ s.sessions[i]? = some ⟨true, false⟩
  connecting : s.connectivityState = .connecting →
    ∃ i connected, s.subChannel = .session i ∧ s.sessions[i]? = some ⟨connected, false⟩
  idle : s.connectivityState = .idle → ∀ i, s.subChannel ≠ .session i
  requests : ∀ r ∈ s.requests, ∃ i session,
    r.session = .session i ∧ s.sessions[i]? = some session ∧ session.connected = true

/-- A `'connect'` event is in order if the channel is ready already, or is connecting with the
session that the event is about. -/
def Expected (s : State γ) : Act γ → Prop
  | .sessionConnect i => s.connectivityState = .ready ∨
      s.connectivityState = .connecting ∧ s.subChannel = .session i
  | _ => True

namespace Connection

/-- The first three parts of `StateAgrees`. -/
structure Agrees (c : Connection) : Prop where
  ready : c.connectivityState = .ready →
    ∃ i, c.subChannel = .session i ∧ c.sessions[i]? = some ⟨true, false⟩
  connecting : c.connectivityState = .connecting →
    ∃ i connected, c.subChannel = .session i ∧ c.sessions[i]? = some ⟨connected, false⟩
  idle : c.connectivityState = .idle → ∀ i, c.subChannel ≠ .session i

variable {c c' : Connection}

theorem Agrees.kick (hc : c.Agrees) : c.kick.Agrees := by
  unfold Connection.kick
  by_cases h : c.connectivityState = .idle
  · rw [if_pos h]
    exact ⟨nofun, fun _ => ⟨_, false, rfl, List.getElem?_concat_length⟩, nofun⟩
  · rwa [if_neg h]

theorem goIdle_agrees (hsub : c.subChannel ≠ .undefined) : c.goIdle.Agrees := by
  unfold Connection.goIdle
  split
  · exact ⟨nofun, nofun, fun _ _ => nofun⟩
  · rename_i hnull
    exact ⟨nofun, nofun, fun _ i hi => absurd (hnull.symm.trans hi) nofun⟩
  · exact absurd ‹_› hsub

theorem Agrees.close (hc : c.Agrees) : c.close.Agrees := by
  by_cases h : c.connectivityState = .shutdown
  · rwa [Connection.close, if_pos h]
  · have hstate : c.close.connectivityState = .shutdown := by
      rw [Connection.close, if_neg h]
      exact shutdownSubChannel_fields.1
    exact ⟨fun h => absurd (hstate.symm.trans h) nofun, fun h => absurd (hstate.symm.trans h) nofun,
      fun h => absurd (hstate.symm.trans h) nofun⟩

/-- After a `'connect'` event the channel is ready. It has a connected session exactly if it
was ready before, or the event was the one it waited for. -/
theorem agrees_onSessionConnect (hlinked : c.Linked) (hc : c.Agrees) (i : Nat) :
    (c.onSessionConnect i).Agrees ↔ c.connectivityState = .ready ∨
      c.connectivityState = .connecting ∧ c.subChannel = .session i := by
  have hagrees : (c.onSessionConnect i).Agrees ↔ ∃ j, c.subChannel = .session j ∧
      (c.onSessionConnect i).sessions[j]? = some ⟨true, false⟩ :=
    ⟨fun h => h.ready rfl, fun h => ⟨fun _ => h, nofun, nofun⟩⟩
  have hsessions : ∀ j, (c.onSessionConnect i).sessions[j]? = some ⟨true, false⟩ ↔
      ∃ old, c.sessions[j]? = some old ∧ old.shutdown = false ∧ (i = j ∨ old.connected = true) := by
    intro j
    simp only [onSessionConnect, List.getElem?_modify, Option.map_eq_map, Option.map_eq_some_iff]
    refine exists_congr fun old => and_congr_right fun _ => ?_
    rcases old with ⟨connected, shutdown⟩
    by_cases hij : i = j
    · simp [hij]
    · simp [hij, and_comm]
  rw [hagrees]
  constructor
  · rintro ⟨j, hsub, hj⟩
    obtain ⟨old, hold, hshutdown, hor⟩ := (hsessions j).mp hj
    cases hstate : c.connectivityState with
    | ready => exact .inl rfl
    | connecting =>
        -- The session being connected has not connected before, so it is this event's.
        have hnew := hlinked.connecting hstate j hsub old hold
        rcases hor with rfl | hconnected
        · exact .inr ⟨rfl, hsub⟩
        · exact absurd (hnew.symm.trans hconnected) nofun
    | idle => exact absurd hsub (hc.idle hstate j)
    | shutdown =>
        exact absurd (hshutdown.symm.trans (hlinked.shutdown hstate j hsub old hold)) nofun
    | transientFailure => exact absurd hstate hlinked.notFailing
  · rintro (hready | ⟨hconnecting, hsub⟩)
    · obtain ⟨j, hsub, hj⟩ := hc.ready hready
      exact ⟨j, hsub, (hsessions j).mpr ⟨_, hj, rfl, .inr rfl⟩⟩
    · obtain ⟨j, connected, hsub', hj⟩ := hc.connecting hconnecting
      obtain rfl := SubChannel.session.inj (hsub.symm.trans hsub')
      exact ⟨i, hsub, (hsessions i).mpr ⟨_, hj, rfl, .inl rfl⟩⟩

/-- A session stays connected. -/
theorem connected_after (h : c.After c' a) {i : Nat} {session : Session}
    (hi : c.sessions[i]? = some session) (hconnected : session.connected = true) :
    ∃ session', c'.sessions[i]? = some session' ∧ session'.connected = true := by
  have modified : ∀ (j : Nat) (f : Session → Session),
      (∀ x, x.connected = true → (f x).connected = true) →
      ∃ session', (c.sessions.modify j f)[i]? = some session' ∧ session'.connected = true := by
    intro j f hf
    rw [List.getElem?_modify, hi]
    refine ⟨_, rfl, ?_⟩
    split
    · exact hf session hconnected
    · exact hconnected
  have shutdown : ∀ {d : Connection}, d.sessions = c.sessions →
      ∃ session', d.shutdownSubChannel.sessions[i]? = some session' ∧
        session'.connected = true := by
    intro d hd
    unfold shutdownSubChannel
    split
    · simp only [shutdownSession, hd]
      exact modified _ _ fun x hx => hx
    · exact ⟨session, hd ▸ hi, hconnected⟩
    · exact ⟨session, hd ▸ hi, hconnected⟩
  cases a with
  | sessionConnect j =>
      obtain ⟨-, rfl⟩ := h
      exact modified j _ fun _ _ => rfl
  | sessionTimeout j =>
      obtain ⟨-, rfl⟩ := h
      unfold goIdle
      split
      · exact modified _ _ fun x hx => hx
      · exact ⟨session, hi, hconnected⟩
      · exact ⟨session, hi, hconnected⟩
  | close =>
      obtain rfl := h
      unfold Connection.close
      split
      · exact ⟨session, hi, hconnected⟩
      · exact shutdown rfl
  | _ =>
      rcases h with rfl | rfl
      · exact ⟨session, hi, hconnected⟩
      · unfold kick
        split
        · refine ⟨session, ?_, hconnected⟩
          rw [List.getElem?_append_left (List.getElem?_eq_some_iff.mp hi).1, hi]
        · exact ⟨session, hi, hconnected⟩

/-- One step: state and session go on agreeing exactly if a `'connect'` event is in order. -/
theorem agrees_after (hlinked : c.Linked) (hc : c.Agrees) (h : c.After c' a) :
    c'.Agrees ↔ ∀ i, a = .sessionConnect i → c.connectivityState = .ready ∨
      c.connectivityState = .connecting ∧ c.subChannel = .session i := by
  cases a with
  | sessionConnect i =>
      obtain ⟨-, rfl⟩ := h
      rw [agrees_onSessionConnect hlinked hc]
      constructor
      · intro hready j hj
        obtain rfl := Act.sessionConnect.inj hj
        exact hready
      · exact fun hready => hready i rfl
  | sessionTimeout i =>
      obtain ⟨hi, rfl⟩ := h
      refine iff_of_true (goIdle_agrees fun hsub => ?_) nofun
      rw [hlinked.undefined hsub] at hi
      exact absurd hi (Nat.not_lt_zero i)
  | close =>
      obtain rfl := h
      exact iff_of_true hc.close nofun
  | _ =>
      refine iff_of_true ?_ nofun
      rcases h with rfl | rfl
      · exact hc
      · exact hc.kick

end Connection

/-- A request is made in the state `READY`, on the current subchannel. -/
theorem Work.Step.requests {state : ConnectivityState} {sub : SubChannel} {w w' : Work γ}
    (h : w.Step config state sub a w') :
    w'.requests = w.requests ∨
      ∃ r : Request, state = .ready ∧ r.session = sub ∧ w'.requests = w.requests ++ [r] := by
  cases h with
  | request _ _ _ _ hready _ => exact .inr ⟨_, hready, rfl, rfl⟩
  | _ => exact .inl rfl

theorem StateAgrees.connection (hs : StateAgrees s) : s.connection.Agrees :=
  ⟨hs.ready, hs.connecting, hs.idle⟩

/-- The requests stay in order while state and session agree. -/
theorem StateAgrees.requests_step (hs : StateAgrees s) (h : step config s a = some s') :
    ∀ r ∈ s'.requests, ∃ i session,
      r.session = .session i ∧ s'.sessions[i]? = some session ∧ session.connected = true := by
  have hafter := step_connection h
  intro r hr
  replace hr : r ∈ s'.work.requests := hr
  have hold : ∃ i session, r.session = .session i ∧ s.sessions[i]? = some session ∧
      session.connected = true := by
    rcases (step_work h).requests with hsame | ⟨r', hready, hsub, hnew⟩
    · rw [hsame] at hr
      exact hs.requests r hr
    · rw [hnew] at hr
      rcases List.mem_append.mp hr with hr | hr
      · exact hs.requests r hr
      · obtain rfl := List.mem_singleton.mp hr
        obtain ⟨i, hi, hsession⟩ := hs.ready hready
        exact ⟨i, _, hsub.trans hi, hsession, rfl⟩
  obtain ⟨i, session, hi, hsession, hconnected⟩ := hold
  obtain ⟨session', hsession', hconnected'⟩ :=
    Connection.connected_after hafter (c := s.connection) hsession hconnected
  exact ⟨i, session', hi, hsession', hconnected'⟩

theorem expected_iff : Expected s a ↔ ∀ i, a = .sessionConnect i →
    s.connectivityState = .ready ∨ s.connectivityState = .connecting ∧
      s.subChannel = .session i := by
  cases a with
  | sessionConnect i =>
      constructor
      · intro h j hj
        obtain rfl := Act.sessionConnect.inj hj
        exact h
      · exact fun h => h i rfl
  | _ => exact iff_of_true trivial nofun

/-- **When the connectivity state agrees with the session.** In every run, `READY` comes
with a connected session in `subChannel` that has not been shut down, `CONNECTING` with one
that has not been shut down, `IDLE` with none, and all requests are made on connected
sessions, if and only if every `'connect'` event finds the channel ready, or connecting
with the session that the event is about. -/
theorem stateAgrees_iff (config : Config γ) (objects : Nat → Metadata) (acts : List (Act γ)) :
    Runs.Always (step config) StateAgrees (State.initial objects) acts ↔
      Runs.Guarded (step config) Expected (State.initial objects) acts := by
  refine Runs.always_iff_guarded (J := fun s => s.connection.Linked) ?_
    (fun _ _ _ hlinked _ _ h => linked_step hlinked h) (initial_linked objects)
    ⟨nofun, nofun, fun _ _ => nofun, nofun⟩
  intro s a s' hlinked hs h
  have hafter := Connection.agrees_after hlinked hs.connection (step_connection h)
  rw [expected_iff]
  constructor
  · exact fun hs' => hafter.mp hs'.connection
  · intro hexpected
    obtain ⟨hready, hconnecting, hidle⟩ := hafter.mpr hexpected
    exact ⟨hready, hconnecting, hidle, hs.requests_step h⟩

/-- The idle timeout drops a session that has not connected yet, and then the session
connects: the channel is ready without a session. -/
theorem timeout_then_connect :
    ¬ Runs.Always (step (γ := Nat) ⟨"localhost", .empty⟩) StateAgrees
      (State.initial fun _ => Metadata.new) [.connect, .sessionTimeout 0, .sessionConnect 0] := by
  intro h
  have hlast := h.last (t := _) rfl
  obtain ⟨i, hi, -⟩ := hlast.ready rfl
  exact absurd hi nofun

end GrpcNode.JsCore.Channel
