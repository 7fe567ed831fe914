import Mathlib.Data.List.Basic
import Mathlib.Tactic.Common

/-!
# GrpcNode.Lib.Transducer

Transducers that consume a list one element at a time and emit outputs on the
way (`run`), and handlers that consume it a **chunk** at a time and carry their
state across the cuts (`runChunks`).

The point of the module is `runChunks_refines`: when a chunk handler, seen
through an abstraction of its state, does to every chunk what a transducer does
to the chunk's elements, then feeding it any chunks is running the transducer on
their concatenation. How the input was cut is then invisible, both in the
outputs and in the abstracted state (`runChunks_congr`).
-/

namespace Transducer

variable {σ τ α β : Type*}

/-- Run a one-element step over a list, collecting the outputs. -/
def run (step : σ → α → σ × List β) : σ → List α → σ × List β
  | s, [] => (s, [])
  | s, a :: as =>
      let r := step s a
      let t := run step r.1 as
      (t.1, r.2 ++ t.2)

/-- Run a chunk handler over a list of chunks, collecting the outputs. -/
def runChunks (handler : τ → List α → τ × List β) : τ → List (List α) → τ × List β
  | t, [] => (t, [])
  | t, c :: cs =>
      let r := handler t c
      let u := runChunks handler r.1 cs
      (u.1, r.2 ++ u.2)

@[simp] theorem run_nil (step : σ → α → σ × List β) (s : σ) : run step s [] = (s, []) := rfl

theorem run_cons (step : σ → α → σ × List β) (s : σ) (a : α) (as : List α) :
    run step s (a :: as) =
      ((run step (step s a).1 as).1, (step s a).2 ++ (run step (step s a).1 as).2) := rfl

/-- Running over a concatenation is running over the first part, then over the
second from the state reached. -/
theorem run_append (step : σ → α → σ × List β) (s : σ) (as bs : List α) :
    run step s (as ++ bs) =
      ((run step (run step s as).1 bs).1,
        (run step s as).2 ++ (run step (run step s as).1 bs).2) := by
  induction as generalizing s with
  | nil => rfl
  | cons a as ih => simp only [List.cons_append, run_cons, ih, List.append_assoc]

section Refinement

variable {step : σ → α → σ × List β} {handler : τ → List α → τ × List β}
  {view : τ → σ} {W : τ → Prop}

/-- A chunk handler that agrees with a transducer on every single chunk agrees
with it on every sequence of chunks. -/
theorem runChunks_refines
    (hW : ∀ t c, W t → W (handler t c).1)
    (hview : ∀ t c, W t → run step (view t) c = (view (handler t c).1, (handler t c).2)) :
    ∀ {t : τ} (cs : List (List α)), W t →
      run step (view t) cs.flatten =
        (view (runChunks handler t cs).1, (runChunks handler t cs).2) := by
  intro t cs
  induction cs generalizing t with
  | nil => intro _; rfl
  | cons c cs ih =>
      intro ht
      rw [List.flatten_cons, run_append, hview t c ht, ih (hW t c ht)]
      rfl

/-- Two ways of cutting the same input lead to the same outputs and to the same
abstract state. -/
theorem runChunks_congr
    (hW : ∀ t c, W t → W (handler t c).1)
    (hview : ∀ t c, W t → run step (view t) c = (view (handler t c).1, (handler t c).2))
    {t : τ} {cs cs' : List (List α)} (ht : W t) (h : cs.flatten = cs'.flatten) :
    (runChunks handler t cs).2 = (runChunks handler t cs').2 ∧
      view (runChunks handler t cs).1 = view (runChunks handler t cs').1 := by
  have h₁ := runChunks_refines hW hview cs ht
  have h₂ := runChunks_refines hW hview cs' ht
  rw [h, h₂, Prod.mk.injEq] at h₁
  exact ⟨h₁.2.symm, h₁.1.symm⟩

end Refinement

end Transducer
