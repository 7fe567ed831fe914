import GrpcNode.Lib.Runs
import Mathlib.Algebra.Order.Ring.Rat

/-!
# GrpcNode.Lib.Timer

A state machine with a clock and a **one-shot timer**.

The clock never goes back, and the timer runs once, at any time that is not before it is due. The
machine around it is a parameter: what its actions do, and what the function of the timer does.
What the timer may break, it may break at the time when it is due, and not before
(`always_iff_of_due`).
-/

namespace Timer

structure State (σ : Type*) where
  clock : ℚ
  /-- Before when the timer does not run; `none` if it has run, or there is none. -/
  due : Option ℚ
  inner : σ

inductive Act (β : Type*)
  | other (time : ℚ) (act : β)
  | fire (time : ℚ)

variable {σ β : Type*}

/-- One step, where `next` is a step of the machine, and `run` the function of the timer. -/
def step (next : ℚ → σ → β → Option σ) (run : ℚ → σ → Option σ) (s : State σ) :
    Act β → Option (State σ)
  | .other time act =>
      if s.clock ≤ time then
        (next time s.inner act).map fun inner => { s with clock := time, inner := inner }
      else none
  | .fire time =>
      match s.due with
      | some due =>
          if s.clock ≤ time ∧ due ≤ time then
            (run time s.inner).map fun inner => { clock := time, due := none, inner := inner }
          else none
      | none => none

variable {next : ℚ → σ → β → Option σ} {run : ℚ → σ → Option σ} {P : σ → Prop}

theorem step_other {s s' : State σ} {time : ℚ} {act : β}
    (h : step next run s (.other time act) = some s') :
    ∃ inner, next time s.inner act = some inner ∧ s' = { s with clock := time, inner := inner } := by
  simp only [step] at h
  split at h
  · obtain ⟨inner, hinner, rfl⟩ := Option.map_eq_some_iff.mp h
    exact ⟨inner, hinner, rfl⟩
  · exact absurd h nofun

theorem step_fire {s s' : State σ} {time : ℚ} (h : step next run s (.fire time) = some s') :
    ∃ due inner, s.due = some due ∧ due ≤ time ∧ run time s.inner = some inner ∧
      s' = { clock := time, due := none, inner := inner } := by
  simp only [step] at h
  split at h
  · rename_i due hdue
    split at h
    · rename_i hle
      obtain ⟨inner, hinner, rfl⟩ := Option.map_eq_some_iff.mp h
      exact ⟨due, inner, hdue, hle.2, hinner, rfl⟩
    · exact absurd h nofun
  · exact absurd h nofun

/-- What the machine keeps, and the timer keeps from when it is due, holds always. -/
theorem always_of_due {started due : ℚ} {s : σ} (hs : P s)
    (hnext : ∀ time s act s', P s → next time s act = some s' → P s')
    (hrun : ∀ time s s', due ≤ time → P s → run time s = some s' → P s') (acts : List (Act β)) :
    Runs.Always (step next run) (fun s => P s.inner) ⟨started, some due, s⟩ acts := by
  refine (Runs.always_of_invariant
    (P := fun s : State σ => P s.inner ∧ (s.due = some due ∨ s.due = none)) ?_
    ⟨hs, .inl rfl⟩ acts).mono fun _ h => h.1
  rintro s a s' ⟨hP, hdue⟩ h
  cases a with
  | other time act =>
      obtain ⟨inner, hinner, rfl⟩ := step_other h
      exact ⟨hnext time s.inner act inner hP hinner, hdue⟩
  | fire time =>
      obtain ⟨due', inner, hdue', hle, hinner, rfl⟩ := step_fire h
      have hsame : due' = due := by
        rcases hdue with hdue | hdue
        · exact Option.some.inj (hdue'.symm.trans hdue)
        · exact absurd (hdue'.symm.trans hdue) nofun
      rw [hsame] at hle
      exact ⟨hrun time s.inner inner hle hP hinner, .inr rfl⟩

/-- The timer can run when it is due. -/
theorem step_fire_due {started due : ℚ} (hdue : started ≤ due) {s s' : σ}
    (h : run due s = some s') :
    step next run ⟨started, some due, s⟩ (.fire due) = some ⟨due, none, s'⟩ := by
  simp only [step]
  rw [if_pos ⟨hdue, le_rfl⟩, h]
  rfl

/-- **The exact rule**: if the function of the timer keeps `P` from some time on, and breaks it
before, then `P` holds in all runs if and only if the timer is not due before that time. -/
theorem always_iff_of_due {started due limit : ℚ} (hdue : started ≤ due) {s : σ} (hs : P s)
    (hnext : ∀ time s act s', P s → next time s act = some s' → P s')
    (hrun : ∀ time s s', limit ≤ time → P s → run time s = some s' → P s')
    (hbreaks : due < limit → ∃ s', run due s = some s' ∧ ¬ P s') :
    (∀ acts, Runs.Always (step next run) (fun s => P s.inner) ⟨started, some due, s⟩ acts) ↔
      limit ≤ due := by
  constructor
  · intro h
    by_contra hlt
    obtain ⟨s', hs', hP⟩ := hbreaks (not_le.mp hlt)
    have hrest := (h [.fire due]).2 _ (step_fire_due hdue hs')
    exact hP hrest
  · intro hle acts
    exact always_of_due hs hnext (fun time s s' htime => hrun time s s' (hle.trans htime)) acts

end Timer
