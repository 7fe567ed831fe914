import Mathlib.Data.List.Basic
import Mathlib.Tactic.Common

/-!
# GrpcNode.Lib.Runs

Runs of a **guarded, executable** step function. A model in this style is one
function `step : σ → α → Option σ`: `step s a = some s'` when action `a` is
enabled in state `s`, and `none` otherwise. The same definition replays a
concrete action list (`exec`) and carries the invariants.

Two predicates speak about whole runs:

* `Always step P s as` — `P` holds in every state the actions `as` visit from `s`;
* `Guarded step C s as` — every enabled step on the way meets `C` in the state
  *before* it.

Both follow the run as far as it is enabled, so neither needs the run to be
complete. `always_of_guarded` is the invariant rule; `always_iff_guarded` is the
exact form, for a condition that fails precisely when the step leaves the good
states.
-/

namespace Runs

/-- A step with a guard. -/
def when {σ : Type*} (p : Prop) [Decidable p] (s : σ) : Option σ := if p then some s else none

@[simp] theorem when_eq_some {σ : Type*} {p : Prop} [Decidable p] {s t : σ} :
    when p s = some t ↔ p ∧ s = t := by
  unfold when
  by_cases h : p <;> simp [h]

variable {σ α : Type*} (step : σ → α → Option σ)

/-- Replay a list of actions; `none` if one of them is disabled. -/
def exec : σ → List α → Option σ
  | s, [] => some s
  | s, a :: as => (step s a).bind (exec · as)

/-- `P` holds in every state that the actions visit, the first one included. -/
def Always (P : σ → Prop) : σ → List α → Prop
  | s, [] => P s
  | s, a :: as => P s ∧ ∀ s', step s a = some s' → Always P s' as

/-- Every enabled step of the run meets `C` in the state before it. -/
def Guarded (C : σ → α → Prop) : σ → List α → Prop
  | _, [] => True
  | s, a :: as => ∀ s', step s a = some s' → C s a ∧ Guarded C s' as

variable {step}

/-! ### Replaying -/

@[simp] theorem exec_nil (s : σ) : exec step s [] = some s := rfl

theorem exec_cons (s : σ) (a : α) (as : List α) :
    exec step s (a :: as) = (step s a).bind (exec step · as) := rfl

theorem exec_cons_of_step {s s' : σ} {a : α} (h : step s a = some s') (as : List α) :
    exec step s (a :: as) = exec step s' as := by
  rw [exec_cons, h, Option.bind_some]

theorem exec_append (s : σ) (as bs : List α) :
    exec step s (as ++ bs) = (exec step s as).bind (exec step · bs) := by
  induction as generalizing s with
  | nil => rfl
  | cons a as ih =>
      rw [List.cons_append, exec_cons, exec_cons]
      cases step s a with
      | none => rfl
      | some s' => exact ih s'

/-- The invariant rule for the last state of a run. -/
theorem exec_invariant {P : σ → Prop}
    (hstep : ∀ s a s', P s → step s a = some s' → P s') :
    ∀ {as : List α} {s t : σ}, P s → exec step s as = some t → P t := by
  intro as
  induction as with
  | nil =>
      intro s t hs h
      obtain rfl : s = t := by simpa using h
      exact hs
  | cons a as ih =>
      intro s t hs h
      cases hsa : step s a with
      | none => simp [exec_cons, hsa] at h
      | some s' =>
          rw [exec_cons_of_step hsa] at h
          exact ih (hstep s a s' hs hsa) h

/-! ### Every state of a run -/

/-- `Always` says what it should: `P` holds after every prefix of the actions
that can be replayed. -/
theorem always_iff_replay {P : σ → Prop} {as : List α} {s : σ} :
    Always step P s as ↔ ∀ pre t, pre <+: as → exec step s pre = some t → P t := by
  induction as generalizing s with
  | nil =>
      constructor
      · intro h pre t hpre ht
        obtain rfl := List.prefix_nil.mp hpre
        obtain rfl : s = t := by simpa using ht
        exact h
      · intro h
        exact h [] s (List.prefix_refl _) rfl
  | cons a as ih =>
      constructor
      · rintro ⟨hs, hnext⟩ pre t hpre ht
        cases pre with
        | nil =>
            obtain rfl : s = t := by simpa using ht
            exact hs
        | cons b pre =>
            obtain ⟨rfl, htail⟩ := List.cons_prefix_cons.mp hpre
            cases hsb : step s b with
            | none => simp [exec_cons, hsb] at ht
            | some s' =>
                rw [exec_cons_of_step hsb] at ht
                exact ih.mp (hnext s' hsb) pre t htail ht
      · intro h
        refine ⟨h [] s ⟨a :: as, rfl⟩ rfl, fun s' hs' => ih.mpr ?_⟩
        intro pre t hpre ht
        refine h (a :: pre) t (List.cons_prefix_cons.mpr ⟨rfl, hpre⟩) ?_
        rw [exec_cons_of_step hs', ht]

theorem Always.last {P : σ → Prop} {as : List α} {s t : σ} (h : Always step P s as)
    (ht : exec step s as = some t) : P t :=
  always_iff_replay.mp h as t (List.prefix_refl _) ht

theorem Always.mono {P Q : σ → Prop} (hPQ : ∀ s, P s → Q s) {as : List α} {s : σ}
    (h : Always step P s as) : Always step Q s as :=
  always_iff_replay.mpr fun pre t hpre ht =>
    hPQ t (always_iff_replay.mp h pre t hpre ht)

theorem always_of_invariant {P : σ → Prop}
    (hstep : ∀ s a s', P s → step s a = some s' → P s') {s : σ} (hs : P s)
    (as : List α) : Always step P s as :=
  always_iff_replay.mpr fun _ _ _ ht => exec_invariant hstep hs ht

/-! ### Conditions on the steps -/

/-- A condition on the actions alone. -/
theorem guarded_of_forall {C : α → Prop} {as : List α} (h : ∀ a ∈ as, C a) (s : σ) :
    Guarded step (fun _ a => C a) s as := by
  induction as generalizing s with
  | nil => trivial
  | cons a as ih =>
      exact fun s' _ => ⟨h a (.head as), ih (fun b hb => h b (.tail a hb)) s'⟩

/-- The invariant rule under a condition on the steps. -/
theorem always_of_guarded {C : σ → α → Prop} {P : σ → Prop}
    (hstep : ∀ s a s', P s → C s a → step s a = some s' → P s') :
    ∀ {as : List α} {s : σ}, P s → Guarded step C s as → Always step P s as := by
  intro as
  induction as with
  | nil => intro s hs _; exact hs
  | cons a as ih =>
      intro s hs hC
      refine ⟨hs, fun s' hs' => ?_⟩
      obtain ⟨hCa, hCas⟩ := hC s' hs'
      exact ih (hstep s a s' hs hCa hs') hCas

/-- The exact rule: if, from a good state, a step leads to a good state precisely
when it meets `C`, then a run stays good precisely when all its steps meet `C`.
`J` is what else holds along a run of good states, and `D` what is known of its steps. -/
theorem always_iff_guarded_of {C D : σ → α → Prop} {J P : σ → Prop}
    (hiff : ∀ s a s', J s → P s → D s a → step s a = some s' → (P s' ↔ C s a))
    (hJ : ∀ s a s', J s → P s → P s' → D s a → step s a = some s' → J s') :
    ∀ {as : List α} {s : σ}, J s → P s → Guarded step D s as →
      (Always step P s as ↔ Guarded step C s as) := by
  intro as
  induction as with
  | nil => intro s _ hs _; exact iff_of_true hs trivial
  | cons a as ih =>
      intro s hJs hs hDs
      have hnext : ∀ s', step s a = some s' →
          (Always step P s' as ↔ C s a ∧ Guarded step C s' as) := by
        intro s' hs'
        obtain ⟨hDa, hDas⟩ := hDs s' hs'
        have hC := hiff s a s' hJs hs hDa hs'
        -- From left to right the head of the run already says that `P` holds of `s'`.
        constructor
        · intro h
          have hPs' : P s' := by
            cases as with
            | nil => exact h
            | cons _ _ => exact h.1
          exact ⟨hC.mp hPs', (ih (hJ s a s' hJs hs hPs' hDa hs') hPs' hDas).mp h⟩
        · rintro ⟨hCa, hG⟩
          have hPs' := hC.mpr hCa
          exact (ih (hJ s a s' hJs hs hPs' hDa hs') hPs' hDas).mpr hG
      constructor
      · intro h s' hs'
        exact (hnext s' hs').mp (h.2 s' hs')
      · intro h
        exact ⟨hs, fun s' hs' => (hnext s' hs').mpr (h s' hs')⟩

/-- The exact rule for all runs. -/
theorem always_iff_guarded {C : σ → α → Prop} {J P : σ → Prop}
    (hiff : ∀ s a s', J s → P s → step s a = some s' → (P s' ↔ C s a))
    (hJ : ∀ s a s', J s → P s → P s' → step s a = some s' → J s')
    {as : List α} {s : σ} (hs : J s) (hP : P s) : Always step P s as ↔ Guarded step C s as :=
  always_iff_guarded_of (fun s a s' hs hP _ h => hiff s a s' hs hP h)
    (fun s a s' hs hP hP' _ h => hJ s a s' hs hP hP' h) hs hP
    (guarded_of_forall (C := fun _ => True) (fun _ _ => trivial) s)

end Runs
