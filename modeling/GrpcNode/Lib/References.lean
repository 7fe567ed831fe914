/-!
# GrpcNode.Lib.References

References to objects that **somebody else keeps**, and counts the references to. A holder of
references may rely on what an object contains as long as it has a reference to it; and it owes one
release for each reference that it has taken. `Since r r' as` says that `r'` is `r` with one more
reference for each element of `as`, so that giving these back leaves what was there before.
-/

/-- What a holder of references can see: how many it has to each object, and the contents of the
objects, which mean something as long as there is a reference. -/
structure References (η β : Type) where
  count : η → Nat
  content : η → β

namespace References

variable {η β : Type} [DecidableEq η]

/-- A reference to an object is taken. -/
structure Takes (r r' : References η β) (x : η) : Prop where
  count : ∀ y, r'.count y = r.count y + if x = y then 1 else 0
  content : ∀ y, 0 < r.count y → r'.content y = r.content y

/-- A reference to an object is given back. -/
structure Gives (r r' : References η β) (x : η) : Prop where
  count : ∀ y, r'.count y + (if x = y then 1 else 0) = r.count y
  content : ∀ y, 0 < r'.count y → r'.content y = r.content y

/-- The references in `xs` have been taken since `r`, and nothing else has changed. -/
structure Since (r r' : References η β) (xs : List η) : Prop where
  count : ∀ x, r'.count x = r.count x + xs.count x
  content : ∀ x, 0 < r.count x → r'.content x = r.content x

namespace Since

variable {r r' r'' : References η β} {x : η} {xs ys : List η}

theorem refl (r : References η β) : Since r r [] :=
  ⟨fun _ => rfl, fun _ _ => rfl⟩

theorem perm (h : Since r r' xs) (hperm : xs.Perm ys) : Since r r' ys where
  count y := by rw [h.count, hperm.count_eq]
  content := h.content

/-- There is a reference to what has been taken. -/
theorem pos (h : Since r r' xs) (hx : x ∈ xs) : 0 < r'.count x := by
  have hcount : 0 < xs.count x := List.count_pos_iff.mpr hx
  rw [h.count]
  omega

/-- The references that there have been are still there. -/
theorem pos_of_pos (h : Since r r' xs) (hx : 0 < r.count x) : 0 < r'.count x := by
  rw [h.count]
  omega

theorem count_cons (x y : η) (xs : List η) :
    (x :: xs).count y = xs.count y + if x = y then 1 else 0 := by
  rw [List.count_cons]
  simp only [beq_iff_eq]

theorem take (h : Since r r' xs) (htake : Takes r' r'' x) : Since r r'' (x :: xs) where
  count y := by
    rw [htake.count, h.count, count_cons]
    omega
  content y hy := (htake.content y (h.pos_of_pos hy)).trans (h.content y hy)

theorem give (h : Since r r' (x :: xs)) (hgive : Gives r' r'' x) : Since r r'' xs := by
  have hcount (y : η) : r''.count y = r.count y + xs.count y := by
    have hbefore := h.count y
    have hafter := hgive.count y
    rw [count_cons] at hbefore
    omega
  refine ⟨hcount, fun y hy => ?_⟩
  have hpos : 0 < r''.count y := by
    rw [hcount]
    omega
  exact (hgive.content y hpos).trans (h.content y hy)

theorem trans (h : Since r r' xs) (h' : Since r' r'' ys) : Since r r'' (ys ++ xs) where
  count x := by
    rw [h'.count, h.count, List.count_append]
    omega
  content x hx := (h'.content x (h.pos_of_pos hx)).trans (h.content x hx)

end Since

end References
