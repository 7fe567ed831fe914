import Mathlib.Data.List.Basic
import Mathlib.Tactic.Common

/-!
# GrpcNode.Lib.Link

A **link** between two programs: one sends messages and closes its end, the other takes them in
order, one at a time, until it is told that there are no more. The link itself may fail at any time.

`Step` is all that may happen to a link. `Inv` is what it is good for: what has been taken is an
initial part of what has been sent, and who has been told that there is no more has taken all of it,
unless the link has failed.
-/

namespace Link

variable {M : Type*}

/-- The state of a link, as both of its ends see it -/
structure State (M : Type*) where
  sent : List M
  /-- The sender has closed its end. -/
  closed : Prop
  taken : List M
  failed : Prop
  /-- The receiver has been told that there are no more messages. -/
  ended : Prop

/-- What may happen to a link. -/
inductive Step (s : State M) : State M → Prop
  /-- After the end has been closed nothing is sent. -/
  | send (more : List M) (open_ : ¬ s.closed ∨ more = []) : Step s { s with sent := s.sent ++ more }
  /-- The last messages may go with the end. -/
  | close (more : List M) (open_ : ¬ s.closed) :
      Step s { s with sent := s.sent ++ more, closed := True }
  | take (m : M) (next : s.sent[s.taken.length]? = some m) :
      Step s { s with taken := s.taken ++ [m] }
  | fail : Step s { s with failed := True }
  /-- The link may fail while the receiver is told. -/
  | end_ (failed : Prop) (keeps : s.failed → failed)
      (all : failed ∨ s.closed ∧ s.sent.length ≤ s.taken.length) :
      Step s { s with failed, ended := True }

/-- Nothing is sent. -/
theorem Step.idle (s : State M) : Step s s := by
  have hsend : Step s { s with sent := s.sent ++ [] } := .send [] (.inr rfl)
  rwa [List.append_nil] at hsend

/-- What holds of a link at any time. -/
structure Inv (s : State M) : Prop where
  inOrder : s.taken <+: s.sent
  ended : s.ended → s.failed ∨ s.closed ∧ s.taken = s.sent

theorem inv_initial : Inv ({
    sent := []
    closed := False
    taken := []
    failed := False
    ended := False } : State M) where
  inOrder := List.prefix_refl []
  ended h := h.elim

/-- The next message makes the part that has been taken longer. -/
theorem prefix_take {taken sent : List M} {m : M} (h : taken <+: sent)
    (hnext : sent[taken.length]? = some m) : taken ++ [m] <+: sent := by
  obtain ⟨rest, rfl⟩ := h
  rw [List.getElem?_append_right (Nat.le_refl _), Nat.sub_self] at hnext
  cases rest with
  | nil => cases hnext
  | cons first rest =>
      obtain rfl := Option.some.inj hnext
      exact ⟨rest, List.append_assoc taken [first] rest⟩

/-- Nothing can be taken when all has been. -/
theorem ne_of_take {taken sent : List M} {m : M} (hnext : sent[taken.length]? = some m) :
    taken ≠ sent := by
  rintro rfl
  rw [List.getElem?_eq_none (Nat.le_refl _)] at hnext
  cases hnext

/-- **One step of a link.** -/
theorem Inv.step {s s' : State M} (h : Inv s) (hstep : Step s s') : Inv s' := by
  cases hstep with
  | send more hopen =>
      refine ⟨h.inOrder.trans (List.prefix_append _ _), fun hended => ?_⟩
      refine (h.ended hended).imp_right fun ⟨hclosed, hall⟩ => ⟨hclosed, ?_⟩
      -- After the end there is nothing more to be sent.
      obtain rfl := hopen.resolve_left fun hnot => hnot hclosed
      rw [List.append_nil]
      exact hall
  | close more hopen =>
      refine ⟨h.inOrder.trans (List.prefix_append _ _), fun hended => ?_⟩
      exact (h.ended hended).imp_right fun ⟨hclosed, _⟩ => absurd hclosed hopen
  | take m hnext =>
      refine ⟨prefix_take h.inOrder hnext, fun hended => ?_⟩
      exact (h.ended hended).imp_right fun ⟨_, hall⟩ => absurd hall (ne_of_take hnext)
  | fail => exact ⟨h.inOrder, fun _ => .inl trivial⟩
  | end_ failed _ hall =>
      refine ⟨h.inOrder, fun _ => hall.imp_right fun ⟨hclosed, hlength⟩ => ⟨hclosed, ?_⟩⟩
      exact h.inOrder.eq_of_length_le hlength

end Link
