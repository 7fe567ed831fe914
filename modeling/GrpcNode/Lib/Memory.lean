import Mathlib.Data.List.Nodup
import Mathlib.Logic.Function.Basic
import Mathlib.Tactic.Common

/-!
# GrpcNode.Lib.Memory

Blocks of memory that are **allocated and freed**. Freeing a block that is not there, for instance
one that has been freed already, is an error, and so is writing to one. `Since m m' as` says that
`m'` is `m` with the blocks at `as`, so that freeing these leaves what was there before.
-/

/-- Blocks of memory. The address of a block that has been freed is not given out again, so that a
pointer to the block does not become one to another block. -/
structure Memory (β : Type) where
  next : Nat
  block : Nat → Option β
  fresh : ∀ a, next ≤ a → block a = none

namespace Memory

variable {β : Type}

def empty : Memory β := ⟨0, fun _ => none, fun _ _ => rfl⟩

/-- A new block, with its address -/
def alloc (m : Memory β) (b : β) : Nat × Memory β :=
  (m.next, ⟨m.next + 1, Function.update m.block m.next (some b), fun a ha => by
    rw [Function.update_of_ne (Nat.ne_of_gt ha)]
    exact m.fresh a (Nat.le_of_succ_le ha)⟩)

/-- The memory with another content at an address that has been given out -/
def put (m : Memory β) (a : Nat) (b : Option β) (h : m.block a ≠ none) : Memory β where
  next := m.next
  block := Function.update m.block a b
  fresh a' ha' := by
    rw [Function.update_of_ne]
    · exact m.fresh a' ha'
    · rintro rfl
      exact h (m.fresh _ ha')

def write (m : Memory β) (a : Nat) (b : β) : Option (Memory β) :=
  if h : m.block a = none then none else some (m.put a (some b) h)

def free (m : Memory β) (a : Nat) : Option (Memory β) :=
  if h : m.block a = none then none else some (m.put a none h)

section Arrays

variable {α : Type} (array : List α → β) (elements? : β → Option (List α))

/-- An element of an array, whose block is at an address -/
def getElement (m : Memory β) (a i : Nat) : Option α :=
  ((m.block a).bind elements?).bind (·[i]?)

/-- An assignment to an element of an array. There is no such element behind its end. -/
def setElement (m : Memory β) (a i : Nat) (f : α → α) : Option (Memory β) :=
  ((m.block a).bind elements?).bind fun elements =>
    if i < elements.length then m.write a (array (elements.modify i f)) else none

end Arrays

/-! ### Single blocks -/

@[simp] theorem alloc_block_self (m : Memory β) (b : β) :
    (m.alloc b).2.block (m.alloc b).1 = some b := Function.update_self ..

theorem alloc_block_of_ne (m : Memory β) (b : β) {a : Nat} (h : m.block a ≠ none) :
    (m.alloc b).2.block a = m.block a := by
  refine Function.update_of_ne ?_ _ _
  rintro rfl
  exact h (m.fresh _ (Nat.le_refl _))

theorem exists_write {m : Memory β} {a : Nat} (h : m.block a ≠ none) (b : β) :
    ∃ m', m.write a b = some m' ∧ m'.next = m.next ∧
      m'.block = Function.update m.block a (some b) :=
  ⟨m.put a (some b) h, dif_neg h, rfl, rfl⟩

theorem exists_free {m : Memory β} {a : Nat} (h : m.block a ≠ none) :
    ∃ m', m.free a = some m' ∧ m'.next = m.next ∧ m'.block = Function.update m.block a none :=
  ⟨m.put a none h, dif_neg h, rfl, rfl⟩

/-! ### What has been allocated since -/

/-- The blocks at `as` have been allocated since `m`, and nothing else has changed. -/
structure Since (m m' : Memory β) (as : List Nat) : Prop where
  nodup : as.Nodup
  live : ∀ a ∈ as, m'.block a ≠ none
  new : ∀ a ∈ as, m.block a = none
  others : ∀ a, a ∉ as → m'.block a = m.block a
  next : m.next ≤ m'.next

namespace Since

variable {m m' : Memory β} {as : List Nat}

theorem refl (m : Memory β) : Since m m [] :=
  ⟨List.nodup_nil, List.forall_mem_nil _, List.forall_mem_nil _, fun _ _ => rfl, Nat.le_refl _⟩

/-- When nothing is left, the memory is as it was. -/
theorem block_eq (h : Since m m' []) : m'.block = m.block :=
  funext fun a => h.others a List.not_mem_nil

theorem perm {bs : List Nat} (h : Since m m' as) (hperm : as.Perm bs) : Since m m' bs where
  nodup := hperm.nodup_iff.mp h.nodup
  live a ha := h.live a (hperm.mem_iff.mpr ha)
  new a ha := h.new a (hperm.mem_iff.mpr ha)
  others a ha := h.others a (mt hperm.mem_iff.mp ha)
  next := h.next

theorem alloc (h : Since m m' as) (b : β) : Since m (m'.alloc b).2 ((m'.alloc b).1 :: as) where
  nodup := List.nodup_cons.mpr ⟨fun hmem => h.live _ hmem (m'.fresh _ (Nat.le_refl _)), h.nodup⟩
  live a ha := by
    rcases List.mem_cons.mp ha with rfl | ha
    · rw [alloc_block_self]
      exact Option.some_ne_none b
    · rw [alloc_block_of_ne _ _ (h.live a ha)]
      exact h.live a ha
  new a ha := by
    rcases List.mem_cons.mp ha with rfl | ha
    · exact m.fresh _ h.next
    · exact h.new a ha
  others a ha := by
    rw [List.mem_cons, not_or] at ha
    exact (Function.update_of_ne ha.1 _ _).trans (h.others a ha.2)
  next := Nat.le_trans h.next (Nat.le_succ _)

theorem of_alloc {m'' : Memory β} {a : Nat} {b : β} (h : Since m m' as)
    (halloc : m'.alloc b = (a, m'')) : Since m m'' (a :: as) ∧ m''.block a = some b ∧
      ∀ a', m'.block a' ≠ none → m''.block a' = m'.block a' := by
  obtain rfl : (m'.alloc b).1 = a := congrArg Prod.fst halloc
  obtain rfl : (m'.alloc b).2 = m'' := congrArg Prod.snd halloc
  exact ⟨h.alloc b, m'.alloc_block_self b, fun _ ha => m'.alloc_block_of_ne b ha⟩

theorem write (h : Since m m' as) {a : Nat} (ha : a ∈ as) (b : β) :
    ∃ m'', m'.write a b = some m'' ∧ Since m m'' as ∧
      m''.block = Function.update m'.block a (some b) := by
  obtain ⟨m'', hwrite, hnext, hblock⟩ := exists_write (h.live a ha) b
  refine ⟨m'', hwrite, ⟨h.nodup, fun a' ha' => ?_, h.new, fun a' ha' => ?_, ?_⟩, hblock⟩
  · rw [hblock]
    by_cases heq : a' = a
    · rw [heq, Function.update_self]
      exact Option.some_ne_none b
    · rw [Function.update_of_ne heq]
      exact h.live a' ha'
  · rw [hblock, Function.update_of_ne fun heq : a' = a => ha' (heq ▸ ha)]
    exact h.others a' ha'
  · rw [hnext]
    exact h.next

/-- The block in front can be freed, and then the others have been allocated. -/
theorem free {a : Nat} (h : Since m m' (a :: as)) :
    ∃ m'', m'.free a = some m'' ∧ Since m m'' as ∧ ∀ a' ≠ a, m''.block a' = m'.block a' := by
  obtain ⟨hnot, hnodup⟩ := List.nodup_cons.mp h.nodup
  obtain ⟨m'', hfree, hnext, hblock⟩ := exists_free (h.live a List.mem_cons_self)
  have hsame : ∀ a' ≠ a, m''.block a' = m'.block a' := fun a' hne => by
    rw [hblock, Function.update_of_ne hne]
  refine ⟨m'', hfree, ⟨hnodup, fun a' ha' => ?_, fun a' ha' => ?_, fun a' ha' => ?_, ?_⟩, hsame⟩
  · rw [hsame a' fun heq => hnot (heq ▸ ha')]
    exact h.live a' (List.mem_cons_of_mem a ha')
  · exact h.new a' (List.mem_cons_of_mem a ha')
  · by_cases heq : a' = a
    · rw [heq, hblock, Function.update_self, h.new a List.mem_cons_self]
    · rw [hsame a' heq]
      exact h.others a' fun hmem => (List.mem_cons.mp hmem).elim heq ha'
  · rw [hnext]
    exact h.next

/-- What has been there is still there. -/
theorem old (h : Since m m' as) {a : Nat} (ha : m.block a ≠ none) : m'.block a = m.block a :=
  h.others a fun hmem => ha (h.new a hmem)

/-- The block in front is not among the others. -/
theorem ne_of_mem {a b : Nat} (h : Since m m' (a :: as)) (hb : b ∈ as) : b ≠ a := fun heq =>
  (List.nodup_cons.mp h.nodup).1 (heq ▸ hb)

theorem trans {m'' : Memory β} {bs : List Nat} (h : Since m m' as) (h' : Since m' m'' bs) :
    Since m m'' (bs ++ as) where
  nodup := List.nodup_append.mpr ⟨h'.nodup, h.nodup, fun b hb a ha heq =>
    h.live a ha (heq ▸ h'.new b hb)⟩
  live a ha := by
    rcases List.mem_append.mp ha with ha | ha
    · exact h'.live a ha
    · rw [h'.old (h.live a ha)]
      exact h.live a ha
  new a ha := by
    rcases List.mem_append.mp ha with ha | ha
    · by_contra hne
      exact hne ((h.old hne).symm.trans (h'.new a ha))
    · exact h.new a ha
  others a ha := by
    rw [List.mem_append, not_or] at ha
    exact (h'.others a ha.1).trans (h.others a ha.2)
  next := Nat.le_trans h.next h'.next

/-- The element behind some others is set. -/
theorem setElement {α : Type} (array : List α → β) {elements? : β → Option (List α)}
    (harray : ∀ elements, elements? (array elements) = some elements) (h : Since m m' as)
    {a : Nat} (ha : a ∈ as) {before after : List α} {x : α}
    (hblock : m'.block a = some (array (before ++ x :: after))) (f : α → α) :
    ∃ m'', m'.setElement array elements? a before.length f = some m'' ∧ Since m m'' as ∧
      m''.block = Function.update m'.block a (some (array (before ++ f x :: after))) := by
  have hlt : before.length < (before ++ x :: after).length := by simp
  have hmodify : (before ++ x :: after).modify before.length f = before ++ f x :: after := by
    simp [List.modify_eq_take_cons_drop hlt]
  obtain ⟨m'', hwrite, hsince, hupdate⟩ := h.write ha (array (before ++ f x :: after))
  refine ⟨m'', ?_, hsince, hupdate⟩
  simp only [Memory.setElement, hblock, Option.bind_some, harray, if_pos hlt, hmodify]
  exact hwrite

end Since

theorem getElement_eq {α : Type} (array : List α → β) {elements? : β → Option (List α)}
    (harray : ∀ elements, elements? (array elements) = some elements) {m : Memory β} {a : Nat}
    {before after : List α} {x : α} (hblock : m.block a = some (array (before ++ x :: after))) :
    m.getElement elements? a before.length = some x := by
  simp [getElement, hblock, harray]

end Memory
