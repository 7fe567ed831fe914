import Mathlib.Data.List.Nodup
import Mathlib.Data.List.Perm.Subperm
import Mathlib.Tactic.Common

/-!
# GrpcNode.Lib.Once

Callbacks that are **called once**. Each is given the next number; it is called at once, or waits
until it is due, or is given up. `Good` says that no number is called twice, and that those that
have been due have been called.
-/

namespace Once

structure State where
  /-- The next number -/
  next : Nat := 0
  waiting : List Nat := []
  called : List Nat := []
  /-- Those that have waited and have become due. -/
  due : List Nat := []

inductive Step (s : State) : State → Prop
  | idle : Step s s
  | skip : Step s { s with next := s.next + 1 }
  | wait : Step s { s with next := s.next + 1, waiting := s.waiting ++ [s.next] }
  | call : Step s { s with next := s.next + 1, called := s.called ++ [s.next] }
  | settle {n : Nat} {rest : List Nat} : s.waiting.Perm (n :: rest) →
      Step s { s with waiting := rest, called := s.called ++ [n], due := s.due ++ [n] }
  /-- Some numbers wait no longer; the others may wait in another order. -/
  | giveUp {rest : List Nat} : rest.Subperm s.waiting → Step s { s with waiting := rest }

structure Good (s : State) : Prop where
  nodup : (s.waiting ++ s.called).Nodup
  fresh : ∀ n ∈ s.waiting ++ s.called, n < s.next
  due : s.due ⊆ s.called

theorem Good.initial : Good {} := ⟨List.nodup_nil, fun _ h => absurd h List.not_mem_nil, fun _ h => h⟩

/-- One more number is passed, and it waits or is called. -/
theorem Good.pass {s s' : State} (h : Good s) (hnext : s'.next = s.next + 1)
    (hperm : (s'.waiting ++ s'.called).Perm (s.next :: (s.waiting ++ s.called)))
    (hdue : s'.due ⊆ s'.called) : Good s' where
  nodup := by
    rw [hperm.nodup_iff, List.nodup_cons]
    exact ⟨fun hmem => Nat.lt_irrefl _ (h.fresh _ hmem), h.nodup⟩
  fresh n hmem := by
    rw [hnext]
    rcases List.mem_cons.mp (hperm.mem_iff.mp hmem) with rfl | hmem
    · exact Nat.lt_succ_self _
    · exact Nat.lt_succ_of_lt (h.fresh n hmem)
  due := hdue

theorem Good.step {s s' : State} (h : Good s) (hstep : Step s s') : Good s' := by
  cases hstep with
  | idle => exact h
  | skip => exact ⟨h.nodup, fun n hmem => Nat.lt_succ_of_lt (h.fresh n hmem), h.due⟩
  | wait =>
      refine h.pass rfl ?_ h.due
      rw [List.append_assoc]
      exact List.perm_middle
  | call =>
      refine h.pass rfl ?_ fun n hmem => List.mem_append_left _ (h.due hmem)
      rw [← List.append_assoc]
      exact List.perm_append_singleton _ _
  | @settle n rest hperm =>
      have hall : (rest ++ (s.called ++ [n])).Perm (s.waiting ++ s.called) := by
        rw [← List.append_assoc]
        exact (List.perm_append_singleton _ _).trans (hperm.symm.append_right s.called)
      refine ⟨hall.nodup_iff.mpr h.nodup, fun m hmem => h.fresh m (hall.mem_iff.mp hmem), ?_⟩
      exact fun m hmem => (List.mem_append.mp hmem).elim
        (fun hdue => List.mem_append_left _ (h.due hdue)) (List.mem_append_right _)
  | @giveUp rest hrest =>
      have hleft : (rest ++ s.called).Subperm (s.waiting ++ s.called) := hrest.append (.refl _)
      have hmem := hleft.subset
      obtain ⟨left, hperm, hsublist⟩ := hleft
      exact ⟨hperm.nodup_iff.mp (hsublist.nodup h.nodup), fun n hn => h.fresh n (hmem hn), h.due⟩

/-- No number is called twice. -/
theorem Good.count_called {s : State} (h : Good s) (n : Nat) : s.called.count n ≤ 1 :=
  List.nodup_iff_count_le_one.mp (List.nodup_append.mp h.nodup).2.1 n

/-- What has been due has been called, once. -/
theorem Good.count_due {s : State} (h : Good s) {n : Nat} (hdue : n ∈ s.due) : s.called.count n = 1 :=
  Nat.le_antisymm (h.count_called n) (List.count_pos_iff.mpr (h.due hdue))

end Once
