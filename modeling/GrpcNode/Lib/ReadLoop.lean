import Mathlib.Data.List.Basic
import Mathlib.Tactic.Common

/-!
# GrpcNode.Lib.ReadLoop

Loops that **read one item at a time** and give away what a function makes of it. There is a flag
`reading`: a loop that is not reading may be started, and a loop that is goes on by itself, asks
for the next item when the last one is given away, and ends or pauses.

`Step` is all that such a loop may do. `Inv.step` is the invariant: at most one item is asked for
or being given away. `InOrder` is what it is good for: the loop gives away the images of an
initial part of what it got, in this order, and nothing after an item that has no image.
-/

namespace ReadLoop

variable {α β : Type*}

/-- What becomes of the items. -/
inductive Event (α β : Type*)
  | got (item : α)
  | gave (image : β)

/-- The items of a history. -/
def items (history : List (Event α β)) : List α :=
  history.filterMap fun e => match e with
    | .got item => some item
    | .gave _ => none

/-- What a history gives away. -/
def images (history : List (Event α β)) : List β :=
  history.filterMap fun e => match e with
    | .got _ => none
    | .gave image => some image

structure State (α β : Type*) where
  reading : Bool
  /-- The items that are asked for and have not come. -/
  outstanding : Nat
  /-- The calls that give away something and have not returned. -/
  giving : Nat
  history : List (Event α β)

/-- What a loop may do, besides nothing. -/
inductive Step (f : α → Option β) (s : State α β) : State α β → Prop
  | idle : Step f s s
  | start (h : s.reading = false) :
      Step f s { s with reading := true, outstanding := s.outstanding + 1 }
  /-- There is nothing to be asked for, and this loop will not be started again. -/
  | startFails (h : s.reading = false) : Step f s { s with reading := true }
  | give {n : Nat} (item : α) (image : β) (h : s.outstanding = n + 1) (himage : f item = some image) :
      Step f s { s with
        outstanding := n
        giving := s.giving + 1
        history := s.history ++ [.got item, .gave image] }
  | drop {n : Nat} (item : α) (h : s.outstanding = n + 1) :
      Step f s { s with outstanding := n, history := s.history ++ [.got item] }
  /-- An error comes instead of an item. -/
  | fail {n : Nat} (h : s.outstanding = n + 1) : Step f s { s with outstanding := n }
  /-- The end comes instead of an item, and is given away. -/
  | giveEnd {n : Nat} (h : s.outstanding = n + 1) :
      Step f s { s with outstanding := n, giving := s.giving + 1 }
  | goOn {n : Nat} (h : s.giving = n + 1) :
      Step f s { s with giving := n, outstanding := s.outstanding + 1 }
  | goOnFails {n : Nat} (h : s.giving = n + 1) : Step f s { s with giving := n }
  | pause {n : Nat} (h : s.giving = n + 1) : Step f s { s with giving := n, reading := false }

/-! ### Histories in order -/

/-- The images of an initial part of the items are given away, and nothing after an item that has
no image. -/
structure InOrder (f : α → Option β) (history : List (Event α β)) : Prop where
  initialPart : ∃ initial, initial <+: items history ∧ initial.map f = (images history).map some
  afterFailure : ∀ {before after : List (Event α β)} {item : α},
    history = before ++ .got item :: after → f item = none → images after = []

/-- Each item is given away before the next one comes, up to one that is not. -/
def alternating (pairs : List (α × β)) (last : Option α) : List (Event α β) :=
  pairs.flatMap (fun p => [.got p.1, .gave p.2]) ++ last.toList.map .got

@[simp] theorem items_append (h k : List (Event α β)) : items (h ++ k) = items h ++ items k :=
  List.filterMap_append

@[simp] theorem images_append (h k : List (Event α β)) :
    images (h ++ k) = images h ++ images k := List.filterMap_append

theorem items_alternating (pairs : List (α × β)) (last : Option α) :
    items (alternating pairs last) = pairs.map Prod.fst ++ last.toList := by
  induction pairs with
  | nil => cases last <;> rfl
  | cons p pairs ih => exact congrArg (p.1 :: ·) ih

theorem images_alternating (pairs : List (α × β)) (last : Option α) :
    images (alternating pairs last) = pairs.map Prod.snd := by
  induction pairs with
  | nil => cases last <;> rfl
  | cons p pairs ih => exact congrArg (p.2 :: ·) ih

/-- An item that has no image can only be the last one. -/
theorem after_of_alternating {f : α → Option β} {pairs : List (α × β)} {last : Option α}
    (hpairs : ∀ p ∈ pairs, f p.1 = some p.2) {before after : List (Event α β)} {item : α}
    (h : alternating pairs last = before ++ .got item :: after) (hitem : f item = none) :
    after = [] := by
  induction pairs generalizing before with
  | nil =>
      cases last with
      | none => exact absurd h.symm (List.append_ne_nil_of_right_ne_nil _ (List.cons_ne_nil _ _))
      | some a =>
          cases before with
          | nil => exact (List.cons.inj h).2.symm
          | cons e before =>
              exact absurd (List.cons.inj h).2.symm
                (List.append_ne_nil_of_right_ne_nil _ (List.cons_ne_nil _ _))
  | cons p pairs ih =>
      have himage := hpairs p (.head pairs)
      rcases before with _ | ⟨e, _ | ⟨e', before⟩⟩
      · obtain ⟨hgot, -⟩ := List.cons.inj h
        rw [Event.got.inj hgot, hitem] at himage
        exact absurd himage nofun
      · obtain ⟨hgave, -⟩ := List.cons.inj (List.cons.inj h).2
        exact absurd hgave nofun
      · exact ih (fun q hq => hpairs q (.tail p hq)) (List.cons.inj (List.cons.inj h).2).2

theorem inOrder_of_alternating {f : α → Option β} {pairs : List (α × β)} {last : Option α}
    (hpairs : ∀ p ∈ pairs, f p.1 = some p.2) : InOrder f (alternating pairs last) where
  initialPart := by
    refine ⟨pairs.map Prod.fst, ?_, ?_⟩
    · rw [items_alternating]
      exact List.prefix_append _ _
    · rw [images_alternating, List.map_map, List.map_map]
      exact List.map_congr_left hpairs
  afterFailure := by
    intro before after item h hitem
    rw [after_of_alternating hpairs h hitem]
    rfl

/-! ### The invariant -/

structure Inv (f : α → Option β) (s : State α β) : Prop where
  atMostOne : s.outstanding + s.giving ≤ 1
  stopped : s.reading = false → s.outstanding + s.giving = 0
  /-- An item that was not given away is the last: the loop has ended. -/
  history : ∃ pairs last, s.history = alternating pairs last ∧
    (∀ p ∈ pairs, f p.1 = some p.2) ∧
    (last ≠ none → s.reading = true ∧ s.outstanding + s.giving = 0)

theorem Inv.inOrder {f : α → Option β} {s : State α β} (h : Inv f s) : InOrder f s.history := by
  obtain ⟨pairs, last, heq, hpairs, -⟩ := h.history
  rw [heq]
  exact inOrder_of_alternating hpairs

theorem inv_initial {f : α → Option β} : Inv f ⟨false, 0, 0, []⟩ where
  atMostOne := Nat.zero_le 1
  stopped _ := rfl
  history := ⟨[], none, rfl, nofun, fun h => absurd rfl h⟩

/-- A step that leaves the history alone. A loop that has ended takes none but the idle one. -/
theorem Inv.of_history_eq {f : α → Option β} {s s' : State α β} (hs : Inv f s)
    (hhistory : s'.history = s.history) (hone : s'.outstanding + s'.giving ≤ 1)
    (hstopped : s'.reading = false → s'.outstanding + s'.giving = 0)
    (hmoves : s.reading = false ∨ 0 < s.outstanding + s.giving) : Inv f s' where
  atMostOne := hone
  stopped := hstopped
  history := by
    obtain ⟨pairs, last, heq, hpairs, hlast⟩ := hs.history
    refine ⟨pairs, last, hhistory.trans heq, hpairs, fun hne => ?_⟩
    obtain ⟨hreading, hzero⟩ := hlast hne
    rcases hmoves with hidle | hpos
    · exact absurd (hreading.symm.trans hidle) nofun
    · exact absurd hzero (Nat.ne_of_gt hpos)

theorem Inv.reading {f : α → Option β} {s : State α β} (hs : Inv f s)
    (hpos : 0 < s.outstanding + s.giving) : s.reading = true := by
  by_contra hne
  exact absurd (hs.stopped (eq_false_of_ne_true hne)) (Nat.ne_of_gt hpos)

/-- What comes while something is asked for comes after pairs. -/
theorem Inv.pairs {f : α → Option β} {s : State α β} (hs : Inv f s)
    (hpos : 0 < s.outstanding + s.giving) :
    ∃ pairs, s.history = alternating pairs none ∧ ∀ p ∈ pairs, f p.1 = some p.2 := by
  obtain ⟨pairs, last, heq, hpairs, hlast⟩ := hs.history
  cases last with
  | none => exact ⟨pairs, heq, hpairs⟩
  | some a => exact absurd (hlast nofun).2 (Nat.ne_of_gt hpos)

theorem alternating_append_pair (pairs : List (α × β)) (item : α) (image : β) :
    alternating pairs none ++ [.got item, .gave image] =
      alternating (pairs ++ [(item, image)]) none := by
  simp [alternating]

theorem alternating_append_item (pairs : List (α × β)) (item : α) :
    alternating pairs none ++ [.got item] = alternating pairs (some item) := by
  simp [alternating]

/-- **One step of a loop.** -/
theorem Inv.step {f : α → Option β} {s s' : State α β} (hs : Inv f s) (h : Step f s s') :
    Inv f s' := by
  have hone := hs.atMostOne
  have busy : 0 < s.outstanding + s.giving → ∀ {n : Nat}, s.reading = false → n = 0 :=
    fun hpos _ hidle => absurd ((hs.reading hpos).symm.trans hidle) nofun
  cases h with
  | idle => exact hs
  | start hidle =>
      have hzero := hs.stopped hidle
      exact hs.of_history_eq rfl (by simp; omega) nofun (.inl hidle)
  | startFails hidle => exact hs.of_history_eq rfl hone nofun (.inl hidle)
  | @give n item image hout himage =>
      obtain ⟨pairs, heq, hpairs⟩ := hs.pairs (by omega)
      have hreading := hs.reading (by omega)
      refine ⟨by simp; omega, fun hidle => absurd (hreading.symm.trans hidle) nofun,
        pairs ++ [(item, image)], none, ?_, ?_, fun hne => absurd rfl hne⟩
      · rw [heq, alternating_append_pair]
      · intro p hp
        rcases List.mem_append.mp hp with hp | hp
        · exact hpairs p hp
        · rw [List.mem_singleton.mp hp]
          exact himage
  | @drop n item hout =>
      obtain ⟨pairs, heq, hpairs⟩ := hs.pairs (by omega)
      have hreading := hs.reading (by omega)
      refine ⟨by simp; omega, fun hidle => absurd (hreading.symm.trans hidle) nofun,
        pairs, some item, ?_, hpairs, fun _ => ⟨hreading, by simp; omega⟩⟩
      rw [heq, alternating_append_item]
  | fail hout =>
      have hpos : 0 < s.outstanding + s.giving := by omega
      exact hs.of_history_eq rfl (by simp; omega) (busy hpos) (.inr hpos)
  | giveEnd hout =>
      have hpos : 0 < s.outstanding + s.giving := by omega
      exact hs.of_history_eq rfl (by simp; omega) (busy hpos) (.inr hpos)
  | goOn hgiving =>
      have hpos : 0 < s.outstanding + s.giving := by omega
      exact hs.of_history_eq rfl (by simp; omega) (busy hpos) (.inr hpos)
  | goOnFails hgiving =>
      have hpos : 0 < s.outstanding + s.giving := by omega
      exact hs.of_history_eq rfl (by simp; omega) (busy hpos) (.inr hpos)
  | pause hgiving =>
      have hpos : 0 < s.outstanding + s.giving := by omega
      exact hs.of_history_eq rfl (by simp; omega) (by simp; omega) (.inr hpos)

end ReadLoop
