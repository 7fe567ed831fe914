import GrpcNode.JsCore.ChannelState

/-!
# GrpcNode.JsCore.ChannelClose

What `close()` leaves behind.

The channel knows one session, the one in `subChannel`. `Connection.Kept` says that this is
enough: every other session it has started was asked to shut down when the channel let go of
it. So `close` reaches the last one that may still be open, provided the field has ever been
assigned; before the first `startConnecting` it is `undefined`, and `close` throws
(`closes_iff`).
-/

namespace GrpcNode.JsCore.Channel

open GrpcNode.Js

/-- Calling `close()` in this state returns without an exception, leaves the state
`SHUTDOWN`, and every session that the channel has started has been asked to shut down. -/
structure Closes {γ : Type} (s : State γ) : Prop where
  returns : s.close.thrown = s.thrown
  shutdown : s.close.connectivityState = .shutdown
  sessions : ∀ session ∈ s.close.sessions, session.shutdown = true

namespace Connection

/-- No session is forgotten: the channel has asked every session to shut down, save the one
in `subChannel`. An idle channel has none there, so that connecting anew loses nothing. -/
structure Kept (c : Connection) : Prop where
  started : c.subChannel = .undefined ↔ c.sessions = []
  idle : c.connectivityState = .idle → ∀ i, c.subChannel ≠ .session i
  sessions : ∀ (i : Nat) (session : Session), c.sessions[i]? = some session →
    session.shutdown = true ∨ c.subChannel = .session i

variable {c c' : Connection}

theorem Kept.kick (hc : c.Kept) : c.kick.Kept := by
  unfold Connection.kick
  by_cases h : c.connectivityState = .idle
  · rw [if_pos h]
    refine ⟨by simp, nofun, ?_⟩
    intro i session hi
    by_cases hnew : i = c.sessions.length
    · exact .inr (by rw [hnew])
    · -- An older session: the idle channel did not hold it any more.
      have hlt : i < c.sessions.length := by
        have hlen := (List.getElem?_eq_some_iff.mp hi).1
        rw [List.length_append, List.length_singleton] at hlen
        omega
      rw [List.getElem?_append_left hlt] at hi
      rcases hc.sessions i session hi with hshutdown | hsub
      · exact .inl hshutdown
      · exact absurd hsub (hc.idle h i)
  · rwa [if_neg h]

/-- A change of the sessions that takes no `shutdown` back. -/
theorem Kept.modify (hc : c.Kept) (i : Nat) {f : Session → Session}
    (hf : ∀ session, session.shutdown = true → (f session).shutdown = true)
    {state : ConnectivityState} (hstate : state ≠ .idle) :
    ({ c with connectivityState := state, sessions := c.sessions.modify i f } : Connection).Kept := by
  refine ⟨?_, fun h => absurd h hstate, ?_⟩
  · rw [← List.length_eq_zero_iff, List.length_modify, List.length_eq_zero_iff]
    exact hc.started
  · intro j session hj
    obtain ⟨old, hold, rfl⟩ := Option.map_eq_some_iff.mp ((List.getElem?_modify ..).symm.trans hj)
    rcases hc.sessions j old hold with hshutdown | hsub
    · refine .inl ?_
      split
      · exact hf old hshutdown
      · exact hshutdown
    · exact .inr hsub

/-- Asking the current session to shut down leaves none that has not been asked. -/
theorem Kept.shutdownSubChannel (hc : c.Kept) :
    ∀ session ∈ c.shutdownSubChannel.sessions, session.shutdown = true := by
  intro session hmem
  obtain ⟨i, hi⟩ := List.mem_iff_getElem?.mp hmem
  unfold Connection.shutdownSubChannel at hi
  split at hi
  · rename_i j hsub
    simp only [shutdownSession, List.getElem?_modify, Option.map_eq_map,
      Option.map_eq_some_iff] at hi
    obtain ⟨old, hold, rfl⟩ := hi
    by_cases hij : j = i
    · rw [if_pos hij]
    · rw [if_neg hij]
      refine (hc.sessions i old hold).resolve_right fun hsub' => hij ?_
      exact SubChannel.session.inj (hsub.symm.trans hsub')
  · rename_i hsub
    refine (hc.sessions i session hi).resolve_right fun hsub' => ?_
    exact absurd (hsub.symm.trans hsub') (by simp)
  · rename_i hsub
    refine (hc.sessions i session hi).resolve_right fun hsub' => ?_
    exact absurd (hsub.symm.trans hsub') (by simp)

theorem Kept.goIdle (hc : c.Kept) : c.goIdle.Kept := by
  have hshut := hc.shutdownSubChannel
  unfold Connection.shutdownSubChannel at hshut
  unfold Connection.goIdle
  split
  · rename_i i hsub
    rw [hsub] at hshut
    refine ⟨iff_of_false (by simp) fun hnil => ?_, fun _ _ => by simp, ?_⟩
    · have hlen := congrArg List.length hnil
      simp only [shutdownSession, List.length_modify, List.length_nil,
        List.length_eq_zero_iff] at hlen
      exact absurd (hsub.symm.trans (hc.started.mpr hlen)) (by simp)
    · exact fun j session hj => .inl (hshut session (List.mem_of_getElem? hj))
  · rename_i hsub
    exact ⟨hc.started, fun _ i hi => absurd (hsub.symm.trans hi) (by simp), hc.sessions⟩
  · exact hc

theorem Kept.close (hc : c.Kept) : c.close.Kept := by
  unfold Connection.close
  by_cases h : c.connectivityState = .shutdown
  · rwa [if_pos h]
  · rw [if_neg h]
    have hclosed : ({ c with closed := c.closed.or (some c.sessions.length) } : Connection).Kept :=
      ⟨hc.started, hc.idle, hc.sessions⟩
    unfold Connection.shutdownSubChannel
    dsimp only
    split
    · exact hclosed.modify _ (fun _ _ => rfl) (show ConnectivityState.shutdown ≠ .idle by simp)
    · exact ⟨hc.started, nofun, hc.sessions⟩
    · exact ⟨hc.started, nofun, hc.sessions⟩

theorem Kept.after {γ : Type} {a : Act γ} (hc : c.Kept) (h : c.After c' a) : c'.Kept := by
  cases a with
  | sessionConnect i =>
      obtain ⟨-, rfl⟩ := h
      exact hc.modify (f := fun session => { session with connected := true }) i
        (fun _ hshutdown => hshutdown) (show ConnectivityState.ready ≠ .idle by simp)
  | sessionTimeout i =>
      obtain ⟨-, rfl⟩ := h
      exact hc.goIdle
  | close =>
      obtain rfl := h
      exact hc.close
  | _ =>
      rcases h with rfl | rfl
      · exact hc
      · exact hc.kick

end Connection

variable {γ : Type} {config : Config γ} {s s' : State γ} {a : Act γ}

theorem kept_step (hs : s.connection.Kept) (h : step config s a = some s') :
    s'.connection.Kept :=
  hs.after (step_connection h)

theorem initial_kept (objects : Nat → Metadata) :
    (State.initial objects : State γ).connection.Kept :=
  ⟨iff_of_true rfl rfl, fun _ _ => nofun, nofun⟩

/-! ### Closing -/

namespace State

theorem thrown_transitionToState (s : State γ) (newState : ConnectivityState) :
    (s.transitionToState newState).thrown = s.thrown := by
  unfold transitionToState emit
  split
  · rfl
  · split <;> rfl

/-- `close` throws where the subchannel has no value yet. -/
theorem thrown_close (h : s.connectivityState ≠ .shutdown) :
    s.close.thrown = s.thrown ++ if s.subChannel = .undefined then
      [JsError.typeError "Cannot read property 'shutdown' of undefined"] else [] := by
  have hsub := congrArg Connection.subChannel (connection_transitionToState
    { s with closed := s.closed.or (some s.sessions.length) } .shutdown)
  replace hsub : (transitionToState _ _).subChannel = s.subChannel := hsub
  rw [close, if_neg h, shutdownSubChannel, hsub]
  cases hs : s.subChannel with
  | undefined => simp [throwUndefined, thrown_transitionToState]
  | null => simp [thrown_transitionToState]
  | session i => simp [shutdownSession, thrown_transitionToState]

end State

/-- In a state that has kept its sessions, closing works exactly if there is one. -/
theorem closes_of_kept (hs : s.connection.Kept) (h : s.connectivityState ≠ .shutdown) :
    Closes s ↔ s.sessions ≠ [] := by
  have hstarted : s.subChannel = .undefined ↔ s.sessions = [] := hs.started
  rw [ne_eq, ← hstarted]
  constructor
  · intro hcloses hsub
    have hthrown := hcloses.returns
    rw [State.thrown_close h, if_pos hsub] at hthrown
    simp at hthrown
  · intro hsub
    have hclose : s.close.connection = { s.connection with
        connectivityState := .shutdown
        closed := s.closed.or (some s.sessions.length) }.shutdownSubChannel := by
      rw [s.connection_close, Connection.close, if_neg (show s.connection.connectivityState ≠ _ from h)]
      rfl
    have hkept : ({ s.connection with
        connectivityState := .shutdown
        closed := s.closed.or (some s.sessions.length) } : Connection).Kept :=
      ⟨hs.started, fun hidle => absurd hidle (by simp), hs.sessions⟩
    refine ⟨by rw [State.thrown_close h, if_neg hsub, List.append_nil], ?_, ?_⟩
    · exact (congrArg Connection.connectivityState hclose).trans
        Connection.shutdownSubChannel_fields.1
    · have hsessions : s.close.sessions = _ := congrArg Connection.sessions hclose
      rw [hsessions]
      exact hkept.shutdownSubChannel

/-- **When closing works.** In every state that a channel reaches, unless it is shut down
already, `close()` returns, shuts the channel down, and leaves no session that has not been
asked to shut down, if and only if the channel has started a session before. -/
theorem closes_iff (config : Config γ) (objects : Nat → Metadata) (acts : List (Act γ)) :
    Runs.Always (step config)
      (fun s => s.connectivityState ≠ .shutdown → (Closes s ↔ s.sessions ≠ []))
      (State.initial objects) acts :=
  (Runs.always_of_invariant (P := fun s => s.connection.Kept)
    (fun _ _ _ hs h => kept_step hs h) (initial_kept objects) acts).mono
    fun _ hs h => closes_of_kept hs h

/-- Closing a channel that has never connected throws. -/
theorem close_unconnected :
    ¬ Runs.Always (step (γ := Nat) ⟨"localhost", .empty⟩)
      (fun s => s.connectivityState ≠ .shutdown → Closes s)
      (State.initial fun _ => Metadata.new) [] := by
  intro h
  have hcloses : Closes _ := h nofun
  exact absurd hcloses.returns (by decide)

end GrpcNode.JsCore.Channel
