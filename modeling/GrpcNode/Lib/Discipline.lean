import Mathlib.Data.List.Basic
import Mathlib.Data.List.Nodup
import Mathlib.Data.List.Perm.Basic
import Mathlib.Tactic.Common

/-!
# GrpcNode.Lib.Discipline

Interfaces that are used through **batches of operations**, that accept some operations only once,
and none while another one of its kind is in progress.

A history says which batches have been started and which kinds have been completed. `Allowed` is
what the rules demand of a batch after a history, and `Obeys` that every batch of a history was
allowed when it was started. A user of the interface that knows what is outstanding keeps it up
with `Outstanding.start` and `Outstanding.complete`, and obeys by `Obeys.start`.
-/

namespace Discipline

variable {α κ : Type*}

/-- What happens to operations of type `α`, whose kinds are of type `κ`. -/
inductive Event (α κ : Type*)
  | start (batch : List α)
  | complete (kinds : List κ)

/-- The rules of an interface, besides that nothing is started twice at a time. -/
structure Rules (κ : Type*) where
  /-- Such an operation is started once at most. -/
  once : κ → Prop
  /-- After an operation of the first kind there is none of the second. -/
  ends : κ → κ → Prop

/-- The operations that have been started. -/
def operations (history : List (Event α κ)) : List α :=
  history.flatMap fun e => match e with
    | .start batch => batch
    | .complete _ => []

/-- The kinds that have been completed. -/
def completed (history : List (Event α κ)) : List κ :=
  history.flatMap fun e => match e with
    | .start _ => []
    | .complete kinds => kinds

theorem operations_append (h k : List (Event α κ)) :
    operations (h ++ k) = operations h ++ operations k := List.flatMap_append

theorem completed_append (h k : List (Event α κ)) :
    completed (h ++ k) = completed h ++ completed k := List.flatMap_append

theorem operations_start (batch : List α) : operations [(.start batch : Event α κ)] = batch :=
  List.flatMap_singleton ..

theorem completed_complete (kinds : List κ) : completed [(.complete kinds : Event α κ)] = kinds :=
  List.flatMap_singleton ..

variable (kind : α → κ) (rules : Rules κ)

/-- The kinds that have been started. -/
def started (history : List (Event α κ)) : List κ := (operations history).map kind

theorem started_start (history : List (Event α κ)) (batch : List α) :
    started kind (history ++ [.start batch]) = started kind history ++ batch.map kind := by
  rw [started, operations_append, operations_start, List.map_append, started]

theorem started_complete (history : List (Event α κ)) (kinds : List κ) :
    started kind (history ++ [.complete kinds]) = started kind history := by
  rw [started, operations_append]
  exact congrArg (List.map kind) (List.append_nil _)

/-- What has been started has been completed or is still outstanding. -/
def Outstanding (history : List (Event α κ)) (outstanding : List κ) : Prop :=
  (started kind history).Perm (completed history ++ outstanding)

variable [DecidableEq κ]

/-- What the rules demand of a batch. -/
structure Allowed (history : List (Event α κ)) (batch : List α) : Prop where
  nodup : (batch.map kind).Nodup
  /-- All that has been started of such operations has been completed. -/
  idle : ∀ k ∈ batch.map kind, (started kind history).count k = (completed history).count k
  once : ∀ k ∈ batch.map kind, rules.once k → k ∉ started kind history
  notEnded : ∀ k ∈ batch.map kind, ∀ k' ∈ started kind history, ¬ rules.ends k' k

/-- Every batch was allowed when it was started. -/
def Obeys (history : List (Event α κ)) : Prop :=
  ∀ before batch after, history = before ++ .start batch :: after →
    Allowed kind rules before batch

variable {kind rules} {history : List (Event α κ)}

/-! ### What is outstanding -/

omit [DecidableEq κ] in
theorem outstanding_nil : Outstanding kind ([] : List (Event α κ)) [] := .refl _

omit [DecidableEq κ] in
theorem Outstanding.perm {outstanding outstanding' : List κ}
    (h : Outstanding kind history outstanding) (hperm : outstanding.Perm outstanding') :
    Outstanding kind history outstanding' := List.Perm.trans h (hperm.append_left _)

omit [DecidableEq κ] in
theorem Outstanding.start {outstanding : List κ} (h : Outstanding kind history outstanding)
    (batch : List α) :
    Outstanding kind (history ++ [.start batch]) (outstanding ++ batch.map kind) := by
  have hcompleted : completed (history ++ [(.start batch : Event α κ)]) = completed history := by
    rw [completed_append]
    exact List.append_nil _
  rw [Outstanding, started_start, hcompleted, ← List.append_assoc]
  exact h.append_right _

omit [DecidableEq κ] in
theorem Outstanding.complete {outstanding kinds : List κ}
    (h : Outstanding kind history (kinds ++ outstanding)) :
    Outstanding kind (history ++ [.complete kinds]) outstanding := by
  rw [Outstanding, started_complete, completed_append, completed_complete, List.append_assoc]
  exact h

theorem Outstanding.idle {outstanding : List κ} (h : Outstanding kind history outstanding) {k : κ}
    (hk : k ∉ outstanding) : (started kind history).count k = (completed history).count k := by
  rw [List.Perm.count_eq h, List.count_append, List.count_eq_zero_of_not_mem hk, Nat.add_zero]

/-! ### Obedience -/

theorem obeys_nil : Obeys kind rules ([] : List (Event α κ)) := by
  intro before batch after h
  exact absurd h.symm (List.append_ne_nil_of_right_ne_nil _ (List.cons_ne_nil _ _))

/-- One more batch is started, and it is allowed. -/
theorem Obeys.start (h : Obeys kind rules history) {batch : List α}
    (hallowed : Allowed kind rules history batch) :
    Obeys kind rules (history ++ [.start batch]) := by
  intro before batch' after heq
  rcases List.eq_nil_or_concat after with rfl | ⟨after, e, rfl⟩
  · obtain ⟨rfl, hlast⟩ := List.append_inj' heq rfl
    obtain rfl := Event.start.inj (List.cons.inj hlast).1
    exact hallowed
  · rw [List.concat_eq_append, ← List.cons_append, ← List.append_assoc] at heq
    exact h before batch' after (List.append_inj' heq rfl).1

theorem Obeys.complete (h : Obeys kind rules history) (kinds : List κ) :
    Obeys kind rules (history ++ [.complete kinds]) := by
  intro before batch after heq
  rcases List.eq_nil_or_concat after with rfl | ⟨after, e, rfl⟩
  · obtain ⟨-, hlast⟩ := List.append_inj' heq rfl
    cases (List.cons.inj hlast).1
  · rw [List.concat_eq_append, ← List.cons_append, ← List.append_assoc] at heq
    exact h before batch after (List.append_inj' heq rfl).1

/-- A single operation, of a kind that is not outstanding. -/
theorem Outstanding.allowed {outstanding : List κ} (h : Outstanding kind history outstanding)
    {a : α} (hidle : kind a ∉ outstanding)
    (honce : rules.once (kind a) → kind a ∉ started kind history)
    (hends : ∀ k ∈ started kind history, ¬ rules.ends k (kind a)) :
    Allowed kind rules history [a] := by
  have hall : ∀ {P : κ → Prop}, P (kind a) → ∀ k ∈ [a].map kind, P k := by
    intro P hP k hk
    rw [List.map_singleton, List.mem_singleton] at hk
    exact hk ▸ hP
  exact ⟨List.nodup_singleton _, hall (h.idle hidle), hall honce, hall hends⟩

/-- Operations of kinds that have never been started. -/
theorem Outstanding.allowed_new {outstanding : List κ} (h : Outstanding kind history outstanding)
    {batch : List α} (hnodup : (batch.map kind).Nodup)
    (hnew : ∀ k ∈ batch.map kind, k ∉ started kind history)
    (hends : ∀ k ∈ batch.map kind, ∀ k' ∈ started kind history, ¬ rules.ends k' k) :
    Allowed kind rules history batch where
  nodup := hnodup
  idle k hk := by
    have hall : k ∉ completed history ++ outstanding := fun hmem =>
      hnew k hk (List.Perm.mem_iff h |>.mpr hmem)
    rw [List.mem_append, not_or] at hall
    exact h.idle hall.2
  once k hk _ := hnew k hk
  notEnded := hends

end Discipline
