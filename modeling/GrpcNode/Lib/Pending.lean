import Mathlib.Tactic.Common

/-!
# GrpcNode.Lib.Pending

Operations that are **outstanding**: they are accepted, and complete later, in any order. Two
things that a counter of them is good for:

* `Watch` — a handle that is active while there are some;
* `Lease` — a resource that is given back when a final operation has completed and there are
  none left.

In both the fields that the program has stand beside those that say what it has done, and `Good`
says that they agree.
-/

namespace Pending

/-! ### A handle that watches -/

structure Watch where
  pending : Int := 0
  active : Bool := false
  /-- The number of operations that are outstanding. -/
  outstanding : Nat := 0
  /-- The handle was started while it was active. -/
  startedTwice : Bool := false

namespace Watch

variable (w : Watch)

/-- An operation is accepted. -/
def accept : Watch := { w with outstanding := w.outstanding + 1 }

/-- The counter goes up, and the handle is started with the first operation. -/
def next : Watch where
  pending := w.pending + 1
  active := if w.pending = 0 then true else w.active
  outstanding := w.outstanding
  startedTwice := w.startedTwice || decide (w.pending = 0) && w.active

/-- An operation completes, and the handle is stopped after the last one. -/
def complete : Watch where
  pending := w.pending - 1
  active := if w.pending - 1 = 0 then false else w.active
  outstanding := w.outstanding - 1
  startedTwice := w.startedTwice

inductive Step : Watch → Prop
  | idle : Step w
  | accept : Step w.accept.next
  | complete : 0 < w.outstanding → Step w.complete

/-- The counter is right, and the handle is active while operations are outstanding. -/
structure Good : Prop where
  pending : w.pending = w.outstanding
  active : w.active = true ↔ 0 < w.outstanding
  once : w.startedTwice = false

variable {w} {w' : Watch}

theorem Good.initial : Good {} := ⟨rfl, by decide, rfl⟩

theorem Good.step (h : w.Good) (hstep : w.Step w') : w'.Good := by
  obtain ⟨hpending, hactive, honce⟩ := h
  cases hstep with
  | idle => exact ⟨hpending, hactive, honce⟩
  | accept =>
      by_cases hzero : w.pending = 0
      · have hidle : w.active = false := eq_false_of_ne_true fun h => by
          have := hactive.mp h
          omega
        refine ⟨?_, ?_, ?_⟩
        · simp only [next, accept]
          omega
        · simp only [next, accept, hzero, if_true, true_iff]
          omega
        · simp only [next, accept, honce, hidle, Bool.and_false, Bool.or_false]
      · refine ⟨?_, ?_, ?_⟩
        · simp only [next, accept]
          omega
        · simp only [next, accept, hzero, if_false, hactive]
          omega
        · simp only [next, accept, honce, hzero, decide_false, Bool.false_and, Bool.or_false]
  | complete hpos =>
      refine ⟨?_, ?_, honce⟩
      · simp only [complete]
        omega
      · by_cases hzero : w.pending - 1 = 0
        · simp only [complete, hzero, if_true, false_iff, Bool.false_eq_true]
          omega
        · simp only [complete, hzero, if_false, hactive]
          omega

end Watch

/-! ### A resource that is given back -/

structure Lease where
  held : Bool := true
  pending : Int := 0
  finalDone : Bool := false
  /-- The number of operations that are outstanding. -/
  outstanding : Nat := 0
  /-- A final operation has completed. -/
  final : Bool := false
  /-- How often the resource has been given back. -/
  released : Nat := 0

namespace Lease

variable (l : Lease)

/-- An operation is accepted. -/
def accept : Lease :=
  { l with pending := l.pending + 1, outstanding := l.outstanding + 1 }

def release : Lease :=
  if l.held then { l with held := false, released := l.released + 1 } else l

/-- The counter goes down, and the resource is given back with the last operation. -/
def settle (isFinal : Bool) : Lease :=
  let l := { l with pending := l.pending - 1, finalDone := isFinal || l.finalDone }
  if l.finalDone = true ∧ l.pending = 0 then l.release else l

/-- An operation completes. -/
def complete (isFinal : Bool) : Lease :=
  { l with outstanding := l.outstanding - 1, final := isFinal || l.final }.settle isFinal

inductive Step : Lease → Prop
  | idle : Step l
  | accept : l.held = true → Step l.accept
  | complete (isFinal : Bool) : 0 < l.outstanding → Step (l.complete isFinal)

/-- The counter is right, and the resource has been given back, once, exactly if a final operation
has completed and nothing is outstanding. -/
structure Good : Prop where
  pending : l.pending = l.outstanding
  finalDone : l.finalDone = l.final
  released : l.released = if l.held then 0 else 1
  held : l.held = false ↔ l.final = true ∧ l.outstanding = 0

variable {l} {l' : Lease}

theorem Good.initial : Good {} := ⟨rfl, rfl, rfl, by decide⟩

theorem Good.step (h : l.Good) (hstep : l.Step l') : l'.Good := by
  obtain ⟨hpending, hfinalDone, hreleased, hheld⟩ := h
  cases hstep with
  | idle => exact ⟨hpending, hfinalDone, hreleased, hheld⟩
  | accept hheld' =>
      refine ⟨?_, hfinalDone, hreleased, ?_⟩
      · simp only [accept]
        omega
      · simp only [accept, hheld', Nat.add_one_ne_zero, and_false, Bool.true_eq_false]
  | complete isFinal hpos =>
      -- The resource is held, since something is outstanding.
      have hheld' : l.held = true := eq_true_of_ne_false fun h => by
        have := (hheld.mp h).2
        omega
      rw [hheld', if_pos rfl] at hreleased
      by_cases hdone : (isFinal || l.finalDone) = true ∧ l.pending - 1 = 0
      · have hcomplete : l.complete isFinal = { l with
            held := false, pending := l.pending - 1, finalDone := isFinal || l.finalDone,
            outstanding := l.outstanding - 1, final := isFinal || l.final,
            released := l.released + 1 } := by
          simp only [complete, settle, if_pos hdone, release, hheld', if_true]
        rw [hcomplete]
        refine ⟨?_, by rw [hfinalDone], ?_, iff_of_true rfl ⟨hfinalDone ▸ hdone.1, ?_⟩⟩
        · dsimp only
          omega
        · rw [hreleased]
          rfl
        · have := hdone.2
          dsimp only
          omega
      · have hcomplete : l.complete isFinal = { l with
            pending := l.pending - 1, finalDone := isFinal || l.finalDone,
            outstanding := l.outstanding - 1, final := isFinal || l.final } := by
          simp only [complete, settle, if_neg hdone]
        rw [hcomplete]
        refine ⟨?_, by rw [hfinalDone], ?_, iff_of_false ?_ ?_⟩
        · dsimp only
          omega
        · simp only [hreleased, hheld', if_true]
        · simp only [hheld', Bool.true_eq_false, not_false_eq_true]
        · rintro ⟨hfinal, hnone⟩
          refine hdone ⟨hfinalDone ▸ hfinal, ?_⟩
          dsimp only at hnone
          omega

end Lease

end Pending
