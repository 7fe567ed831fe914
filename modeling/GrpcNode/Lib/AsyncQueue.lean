import GrpcNode.Lib.Runs

/-!
# GrpcNode.Lib.AsyncQueue

A queue **between threads** with a wake-up signal. A producer appends an item and then sends the
signal; signals that nobody has taken yet are one. The handler of the signal takes the whole
queue over and hands the items on, one by one, while others are appended to the queue.

Each of these is a step, so that a list of actions is an interleaving. `Good` is the invariant:
no item is lost or handed on twice, and whoever has to act next for an item in the queue is
there. So nothing is left when nobody can act (`Good.handed_of_quiescent`), and from any state
the threads get there without another item (`Good.exists_drain`).
-/

namespace AsyncQueue

/-- Where the handler is: not called, called without having taken the queue over, or handing on
the items that it has taken. -/
inductive Handler (α : Type*)
  | idle
  | started
  | draining (items : List α)
  deriving DecidableEq

structure State (α : Type*) where
  queue : List α := []
  signal : Bool := false
  handler : Handler α := .idle
  /-- The producers that have appended an item and not yet sent the signal. -/
  sending : List Nat := []
  /-- All items that have been appended, and -/
  pushed : List α := []
  /-- all that have been handed on. -/
  handed : List α := []

inductive Act (α : Type*)
  | push (producer : Nat) (item : α)
  | send (producer : Nat)
  | start
  | swap
  | hand
  | finish

variable {α : Type*}

/-- The items that the handler still has. -/
def Handler.items : Handler α → List α
  | idle | started => []
  | draining items => items

/-- One step; `none` if it is not possible. -/
def step (s : State α) : Act α → Option (State α)
  | .push producer item =>
      Runs.when (producer ∉ s.sending)
        { s with
          queue := s.queue ++ [item]
          sending := producer :: s.sending
          pushed := s.pushed ++ [item] }
  | .send producer =>
      Runs.when (producer ∈ s.sending)
        { s with signal := true, sending := s.sending.erase producer }
  | .start =>
      match s.handler with
      | .idle => Runs.when (s.signal = true) { s with signal := false, handler := .started }
      | _ => none
  | .swap =>
      match s.handler with
      | .started => some { s with queue := [], handler := .draining s.queue }
      | _ => none
  | .hand =>
      match s.handler with
      | .draining (item :: items) =>
          some { s with handler := .draining items, handed := s.handed ++ [item] }
      | _ => none
  | .finish =>
      match s.handler with
      | .draining [] => some { s with handler := .idle }
      | _ => none

/-- What holds in every state. -/
structure Good (s : State α) : Prop where
  /-- Each item is in one place, and in its order. -/
  conserved : s.pushed = s.handed ++ s.handler.items ++ s.queue
  /-- Somebody will see to the queue. -/
  awake : s.queue ≠ [] → s.signal = true ∨ s.handler = .started ∨ s.sending ≠ []

/-! ### The invariant -/

theorem good_initial : Good ({} : State α) := ⟨rfl, fun h => absurd rfl h⟩

/-- What a step does, case by case. -/
inductive Step (s : State α) : Act α → State α → Prop
  | push {producer : Nat} {item : α} : producer ∉ s.sending →
      Step s (.push producer item)
        { s with
          queue := s.queue ++ [item]
          sending := producer :: s.sending
          pushed := s.pushed ++ [item] }
  | send {producer : Nat} : producer ∈ s.sending →
      Step s (.send producer) { s with signal := true, sending := s.sending.erase producer }
  | start : s.handler = .idle → s.signal = true →
      Step s .start { s with signal := false, handler := .started }
  | swap : s.handler = .started →
      Step s .swap { s with queue := [], handler := .draining s.queue }
  | hand {item : α} {items : List α} : s.handler = .draining (item :: items) →
      Step s .hand { s with handler := .draining items, handed := s.handed ++ [item] }
  | finish : s.handler = .draining [] → Step s .finish { s with handler := .idle }

theorem step_iff {s t : State α} {a : Act α} : step s a = some t ↔ Step s a t := by
  constructor
  · intro h
    cases a with
    | push producer item =>
        obtain ⟨hguard, rfl⟩ := Runs.when_eq_some.mp h
        exact .push hguard
    | send producer =>
        obtain ⟨hguard, rfl⟩ := Runs.when_eq_some.mp h
        exact .send hguard
    | start =>
        simp only [step] at h
        split at h
        · rename_i hhandler
          obtain ⟨hsignal, rfl⟩ := Runs.when_eq_some.mp h
          exact .start hhandler hsignal
        · exact absurd h (by simp)
    | swap =>
        simp only [step] at h
        split at h
        · rename_i hhandler
          obtain rfl := Option.some.inj h
          exact .swap hhandler
        · exact absurd h (by simp)
    | hand =>
        simp only [step] at h
        split at h
        · rename_i item items hhandler
          obtain rfl := Option.some.inj h
          exact .hand hhandler
        · exact absurd h (by simp)
    | finish =>
        simp only [step] at h
        split at h
        · rename_i hhandler
          obtain rfl := Option.some.inj h
          exact .finish hhandler
        · exact absurd h (by simp)
  · intro h
    cases h with
    | push hguard => exact Runs.when_eq_some.mpr ⟨hguard, rfl⟩
    | send hguard => exact Runs.when_eq_some.mpr ⟨hguard, rfl⟩
    | start hhandler hsignal =>
        simp only [step, hhandler]
        exact Runs.when_eq_some.mpr ⟨hsignal, rfl⟩
    | swap hhandler => simp only [step, hhandler]
    | hand hhandler => simp only [step, hhandler]
    | finish hhandler => simp only [step, hhandler]

theorem Good.next {s t : State α} {a : Act α} (h : Good s) (hstep : step s a = some t) : Good t := by
  -- A handler that is draining is not what watches over the queue.
  have hother : ∀ {items : List α}, s.handler = .draining items → s.queue ≠ [] →
      s.signal = true ∨ s.sending ≠ [] := by
    intro items hhandler hne
    rcases h.awake hne with hsignal | hstarted | hsending
    · exact .inl hsignal
    · exact absurd (hhandler.symm.trans hstarted) (by simp)
    · exact .inr hsending
  have hconserved := h.conserved
  cases step_iff.mp hstep with
  | push => exact ⟨by simp [hconserved], fun _ => .inr (.inr (by simp))⟩
  | send => exact ⟨hconserved, fun _ => .inl rfl⟩
  | start hhandler =>
      refine ⟨?_, fun _ => .inr (.inl rfl)⟩
      simpa [hhandler, Handler.items] using hconserved
  | swap hhandler =>
      refine ⟨?_, fun hne => absurd rfl hne⟩
      simpa [hhandler, Handler.items] using hconserved
  | hand hhandler =>
      refine ⟨?_, fun hne => (hother hhandler hne).imp_right .inr⟩
      simpa [hhandler, Handler.items] using hconserved
  | finish hhandler =>
      refine ⟨?_, fun hne => (hother hhandler hne).imp_right .inr⟩
      simpa [hhandler, Handler.items] using hconserved

/-- The items that are handed on are the first ones, in their order. -/
theorem Good.handed_prefix {s : State α} (h : Good s) : s.handed <+: s.pushed :=
  ⟨s.handler.items ++ s.queue, by rw [h.conserved, List.append_assoc]⟩

/-- Nothing is left when nobody can act. -/
theorem Good.handed_of_quiescent {s : State α} (h : Good s) (hsignal : s.signal = false)
    (hhandler : s.handler = .idle) (hsending : s.sending = []) : s.handed = s.pushed := by
  have hqueue : s.queue = [] := by
    by_contra hne
    rcases h.awake hne with hawake | hawake | hawake
    · exact absurd (hawake.symm.trans hsignal) (by simp)
    · exact absurd (hawake.symm.trans hhandler) (by simp)
    · exact hawake hsending
  rw [h.conserved, hhandler, hqueue]
  simp [Handler.items]

/-! ### The way there -/

/-- The handler hands on what it has, and returns. -/
theorem exec_hand {s : State α} {items : List α} (h : s.handler = .draining items) :
    Runs.exec step s (List.replicate items.length .hand ++ [.finish]) =
      some { s with handler := .idle, handed := s.handed ++ items } := by
  induction items generalizing s with
  | nil =>
      rw [List.length_nil, List.replicate_zero, List.nil_append,
        Runs.exec_cons_of_step (step_iff.mpr (.finish h)), Runs.exec_nil]
      simp
  | cons item items ih =>
      rw [List.length_cons, List.replicate_succ, List.cons_append,
        Runs.exec_cons_of_step (step_iff.mpr (.hand h)), ih rfl]
      simp

/-- A run of the handler, from the signal on. -/
theorem exec_run {s : State α} (hhandler : s.handler = .idle) (hsignal : s.signal = true) :
    Runs.exec step s
        ([.start, .swap] ++ (List.replicate s.queue.length .hand ++ [.finish])) =
      some { s with
        queue := []
        signal := false
        handler := .idle
        handed := s.handed ++ s.queue } := by
  rw [List.cons_append, List.cons_append, List.nil_append,
    Runs.exec_cons_of_step (step_iff.mpr (.start hhandler hsignal)),
    Runs.exec_cons_of_step (step_iff.mpr (.swap rfl)), exec_hand rfl]

/-- The producers send their signals. -/
theorem exec_send (s : State α) :
    Runs.exec step s (s.sending.map .send) =
      some { s with sending := [], signal := s.signal || s.sending ≠ [] } := by
  obtain ⟨queue, signal, handler, sending, pushed, handed⟩ := s
  induction sending generalizing signal with
  | nil => simp
  | cons producer sending ih =>
      rw [List.map_cons, Runs.exec_cons_of_step (step_iff.mpr (.send (.head _)))]
      dsimp only
      rw [List.erase_cons_head, ih]
      simp

/-- No item is appended by some actions. -/
def Pushless (acts : List (Act α)) : Prop := ∀ producer item, Act.push producer item ∉ acts

theorem Pushless.append {acts acts' : List (Act α)} (h : Pushless acts) (h' : Pushless acts') :
    Pushless (acts ++ acts') := by
  intro producer item hmem
  rcases List.mem_append.mp hmem with hmem | hmem
  · exact h producer item hmem
  · exact h' producer item hmem

/-- The handler returns, from wherever it is. -/
theorem exists_return (s : State α) : ∃ acts t, Runs.exec step s acts = some t ∧ Pushless acts ∧
    t.handler = .idle ∧ t.pushed = s.pushed := by
  cases hhandler : s.handler with
  | idle => exact ⟨[], s, rfl, by simp [Pushless], hhandler, rfl⟩
  | started =>
      have hrun := Runs.exec_cons_of_step (step_iff.mpr (.swap hhandler))
        (List.replicate s.queue.length .hand ++ [.finish])
      rw [exec_hand rfl] at hrun
      exact ⟨_, _, hrun, by simp [Pushless], rfl, rfl⟩
  | draining items =>
      have hrun := exec_hand hhandler
      exact ⟨_, _, hrun, by simp [Pushless], rfl, rfl⟩

/-- One more run of the handler is enough when all signals have been sent. -/
theorem Good.exists_last_run {s : State α} (h : Good s) (hhandler : s.handler = .idle)
    (hsending : s.sending = []) : ∃ acts t, Runs.exec step s acts = some t ∧ Pushless acts ∧
      t.pushed = s.pushed ∧ t.handed = s.pushed := by
  cases hsignal : s.signal with
  | false =>
      exact ⟨[], s, rfl, by simp [Pushless], rfl, h.handed_of_quiescent hsignal hhandler hsending⟩
  | true =>
      have hrun := exec_run hhandler hsignal
      have hgood := Runs.exec_invariant (fun _ _ _ => Good.next) h hrun
      exact ⟨_, _, hrun, by simp [Pushless], rfl, hgood.handed_of_quiescent rfl rfl hsending⟩

/-- From any good state, the threads hand on every item without another one being appended. -/
theorem Good.exists_drain {s : State α} (h : Good s) : ∃ acts t, Runs.exec step s acts = some t ∧
    Pushless acts ∧ t.pushed = s.pushed ∧ t.handed = s.pushed := by
  obtain ⟨first, t, hfirst, hnone, hidle, hpushed⟩ := exists_return s
  have hsend := exec_send t
  have hboth : Runs.exec step s (first ++ t.sending.map .send) =
      some { t with sending := [], signal := t.signal || t.sending ≠ [] } := by
    rw [Runs.exec_append, hfirst, Option.bind_some, hsend]
  have hgood := Runs.exec_invariant (fun _ _ _ => Good.next) h hboth
  obtain ⟨last, u, hlast, hnone', hpushed', hhanded⟩ := hgood.exists_last_run hidle rfl
  refine ⟨(first ++ t.sending.map .send) ++ last, u, ?_, ?_, hpushed'.trans hpushed,
    hhanded.trans hpushed⟩
  · rw [Runs.exec_append, hboth, Option.bind_some, hlast]
  · exact (hnone.append (by simp [Pushless])).append hnone'

end AsyncQueue
