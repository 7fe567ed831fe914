import Mathlib.Logic.Relation
import Mathlib.Tactic.Common

/-!
# GrpcNode.Lib.Teardown

A resource that is **destroyed through one of two hands**. Its owner can use it and destroy it, or
hand it over to somebody who destroys it later; either way the owner forgets it. Nobody may destroy
it before it has been announced that this can be done.

There is one hand at any time (`Good.token`), so the resource is destroyed at most once, and not
used afterwards (`Good.inOrder`).
-/

namespace Teardown

inductive Event
  | used
  | announced
  | destroyed
  deriving DecidableEq

structure State where
  /-- The owner has the resource. -/
  held : Bool := true
  /-- How many have been handed it over. -/
  handed : Nat := 0
  history : List Event := []

variable (s : State)

def State.record (e : Event) : State := { s with history := s.history ++ [e] }

inductive Step : State → State → Prop
  | use {s : State} : s.held = true → Step s (s.record .used)
  | announce {s : State} : Step s (s.record .announced)
  | handOver {s : State} : s.held = true → Step s { s with held := false, handed := s.handed + 1 }
  | destroy {s : State} : s.held = true → .announced ∈ s.history →
      Step s ({ s with held := false }.record .destroyed)
  | destroyHanded {s : State} : 0 < s.handed → .announced ∈ s.history →
      Step s ({ s with handed := s.handed - 1 }.record .destroyed)

/-- The resource is destroyed once at most, when this has been announced, and not used
afterwards. -/
structure InOrder (history : List Event) : Prop where
  once : history.count .destroyed ≤ 1
  announced : ∀ before after, history = before ++ .destroyed :: after → .announced ∈ before
  unused : ∀ before after, history = before ++ .destroyed :: after → .used ∉ after

/-- Somebody has the resource, or it has been destroyed. -/
structure Good : Prop where
  token : s.held.toNat + s.handed + s.history.count .destroyed = 1
  inOrder : InOrder s.history

variable {s} {s' : State}

theorem Good.initial : Good {} where
  token := rfl
  inOrder :=
    { once := Nat.zero_le 1
      announced := fun _ _ h =>
        absurd h.symm (List.append_ne_nil_of_right_ne_nil _ (List.cons_ne_nil _ _))
      unused := fun _ _ h =>
        absurd h.symm (List.append_ne_nil_of_right_ne_nil _ (List.cons_ne_nil _ _)) }

/-- Where the resource has been destroyed in a longer history. -/
theorem eq_append_destroyed {history before after : List Event} {e : Event}
    (h : history ++ [e] = before ++ .destroyed :: after) :
    (∃ rest, history = before ++ .destroyed :: rest ∧ after = rest ++ [e]) ∨
      e = .destroyed ∧ before = history ∧ after = [] := by
  rcases List.eq_nil_or_concat after with rfl | ⟨rest, last, rfl⟩
  · obtain ⟨rfl, hlast⟩ := List.append_inj' h rfl
    exact .inr ⟨(List.cons.inj hlast).1, rfl, rfl⟩
  · rw [List.concat_eq_append, ← List.cons_append, ← List.append_assoc] at h
    obtain ⟨hhistory, hlast⟩ := List.append_inj' h rfl
    refine .inl ⟨rest, hhistory, ?_⟩
    rw [List.concat_eq_append, (List.cons.inj hlast).1]

/-- Something other than the end happens. -/
theorem InOrder.append {history : List Event} {e : Event} (h : InOrder history)
    (he : e ≠ .destroyed) (hused : e = .used → .destroyed ∉ history) : InOrder (history ++ [e]) where
  once := by
    rw [List.count_append, List.count_singleton, if_neg (by simpa using he)]
    exact h.once
  announced before after heq := by
    rcases eq_append_destroyed heq with ⟨rest, hhistory, -⟩ | ⟨hdestroyed, -⟩
    · exact h.announced before rest hhistory
    · exact absurd hdestroyed he
  unused before after heq := by
    rcases eq_append_destroyed heq with ⟨rest, hhistory, rfl⟩ | ⟨hdestroyed, -⟩
    · rw [List.mem_append, List.mem_singleton, not_or]
      refine ⟨h.unused before rest hhistory, fun hlast => hused hlast.symm ?_⟩
      rw [hhistory]
      exact List.mem_append_right before List.mem_cons_self
    · exact absurd hdestroyed he

/-- The end comes once. -/
theorem InOrder.destroyed {history : List Event} (h : InOrder history)
    (hannounced : .announced ∈ history) (hnone : .destroyed ∉ history) :
    InOrder (history ++ [.destroyed]) where
  once := by
    rw [List.count_append, List.count_eq_zero_of_not_mem hnone]
    exact Nat.le_refl 1
  announced before after heq := by
    rcases eq_append_destroyed heq with ⟨rest, hhistory, -⟩ | ⟨-, rfl, -⟩
    · exact h.announced before rest hhistory
    · exact hannounced
  unused before after heq := by
    rcases eq_append_destroyed heq with ⟨rest, hhistory, -⟩ | ⟨-, -, rfl⟩
    · refine absurd ?_ hnone
      rw [hhistory]
      exact List.mem_append_right before List.mem_cons_self
    · exact List.not_mem_nil

/-- Who has the resource can rely on it. -/
theorem Good.not_mem_destroyed (h : Good s) (hheld : s.held = true ∨ 0 < s.handed) :
    .destroyed ∉ s.history := by
  have htoken := h.token
  rw [← List.count_eq_zero]
  rcases hheld with hheld | hhanded
  · rw [hheld, Bool.toNat_true] at htoken
    omega
  · omega

theorem Good.step (h : Good s) (hstep : Step s s') : Good s' := by
  have htoken := h.token
  cases hstep with
  | use hheld =>
      refine ⟨?_, h.inOrder.append nofun fun _ => h.not_mem_destroyed (.inl hheld)⟩
      simpa [State.record, List.count_append] using htoken
  | announce =>
      refine ⟨?_, h.inOrder.append nofun nofun⟩
      simpa [State.record, List.count_append] using htoken
  | handOver hheld =>
      refine ⟨?_, h.inOrder⟩
      simp only [hheld, Bool.toNat_true] at htoken
      simp only [Bool.toNat_false]
      omega
  | destroy hheld hannounced =>
      refine ⟨?_, h.inOrder.destroyed hannounced (h.not_mem_destroyed (.inl hheld))⟩
      simp only [hheld, Bool.toNat_true] at htoken
      simp only [State.record, List.count_append, List.count_singleton_self, Bool.toNat_false]
      omega
  | destroyHanded hhanded hannounced =>
      refine ⟨?_, h.inOrder.destroyed hannounced (h.not_mem_destroyed (.inr hhanded))⟩
      simp only [State.record, List.count_append, List.count_singleton_self]
      omega

theorem Good.steps (h : Good s) (hsteps : Relation.ReflTransGen Step s s') : Good s' := by
  induction hsteps with
  | refl => exact h
  | tail _ hstep ih => exact ih.step hstep

end Teardown
