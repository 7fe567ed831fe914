import GrpcNode.Lib.Memory
import GrpcNode.NativeCore.Slices
import Mathlib.Data.List.Perm.Basic

/-!
# GrpcNode.NativeCore.Heap

The memory that the addon uses: blocks of its own, which are allocated and freed, and slices and
byte buffers of the core, to which it has references. A step that uses what is not allocated, or
what there is no reference to, is `none`.

`Since h h' held` says that `h'` is `h` with the blocks and references in `held`, and with the
references to the keys that have been interned in between, which are never given back. `Keeps` is
what goes with each step: everything that is held by somebody else can be read as before.
-/

namespace GrpcNode.NativeCore

open GrpcNode.Js

/-- The blocks of the addon, with contents `β`, and the state of the core -/
structure Heap (κ β : Type) where
  memory : Memory β
  core : κ
  /-- What `grpc_slice_intern` has returned -/
  interned : List Nat := []

/-- Something that has to be freed, or given back. -/
inductive Resource
  | block (a : Nat)
  | handle (x : Handle)
  deriving Repr, DecidableEq

namespace Resource

def block? : Resource → Option Nat
  | block a => some a
  | handle _ => none

def handle? : Resource → Option Handle
  | block _ => none
  | handle x => some x

theorem block_mem {held : List Resource} {a : Nat} :
    a ∈ held.filterMap block? ↔ block a ∈ held := by
  rw [List.mem_filterMap]
  constructor
  · rintro ⟨r, hr, hblock⟩
    cases r with
    | block a' =>
        obtain rfl := Option.some.inj hblock
        exact hr
    | handle _ => cases hblock
  · exact fun h => ⟨_, h, rfl⟩

theorem handle_mem {held : List Resource} {x : Handle} :
    x ∈ held.filterMap handle? ↔ handle x ∈ held := by
  rw [List.mem_filterMap]
  constructor
  · rintro ⟨r, hr, hhandle⟩
    cases r with
    | block _ => cases hhandle
    | handle y =>
        obtain rfl := Option.some.inj hhandle
        exact hr
  · exact fun h => ⟨_, h, rfl⟩

end Resource

namespace Heap

variable {κ ι β : Type} (api : Slices κ ι)

/-! ### What the addon does -/

/-- `new`, or `gpr_zalloc` -/
def alloc (h : Heap κ β) (b : β) : Nat × Heap κ β :=
  ((h.memory.alloc b).1, { h with memory := (h.memory.alloc b).2 })

/-- `delete`, or `gpr_free` -/
def free (h : Heap κ β) (a : Nat) : Option (Heap κ β) :=
  (h.memory.free a).map fun memory => { h with memory }

/-- The references to something -/
def count (h : Heap κ β) (x : Handle) : Nat := (api.references h.core).count x

/-- What is read of something -/
def read (h : Heap κ β) (x : Handle) : Option Buffer :=
  if 0 < h.count api x then some ((api.references h.core).content x) else none

/-- `grpc_slice_new_with_user_data` -/
def newSlice (h : Heap κ β) (bytes : Buffer) : Nat × Heap κ β :=
  ((api.new h.core bytes).1, { h with core := (api.new h.core bytes).2 })

/-- `grpc_slice_unref` -/
def unref (h : Heap κ β) (a : Nat) : Option (Heap κ β) :=
  if a = api.empty ∨ 0 < h.count api (.slice a) then some { h with core := api.unref h.core a }
  else none

/-- `grpc_slice_intern` -/
def intern (h : Heap κ β) (a : Nat) : Option (Nat × Heap κ β) :=
  if 0 < h.count api (.slice a) then
    let (key, core) := api.intern h.core a
    some (key, { h with core, interned := h.interned ++ [key] })
  else none

/-- `grpc_raw_byte_buffer_create` -/
def createByteBuffer (h : Heap κ β) (a : Nat) : Option (Nat × Heap κ β) :=
  if 0 < h.count api (.slice a) then
    let (byteBuffer, core) := api.createByteBuffer h.core a
    some (byteBuffer, { h with core })
  else none

/-- `grpc_byte_buffer_destroy` -/
def destroyByteBuffer (h : Heap κ β) (a : Nat) : Option (Heap κ β) :=
  if 0 < h.count api (.byteBuffer a) then
    some { h with core := api.destroyByteBuffer h.core a }
  else none

/-! ### What is held since -/

/-- The references to the keys that have been interned are there. -/
def Counted (h : Heap κ β) : Prop := ∀ a ∈ h.interned, 0 < h.count api (.slice a)

/-- Since `h` the blocks in `held` have been allocated, and the references in it have been taken.
Some keys have been interned, too. -/
structure Since (h h' : Heap κ β) (held : List Resource) : Prop where
  counted : h.Counted api
  memory : Memory.Since h.memory h'.memory (held.filterMap Resource.block?)
  references : ∃ keys, h'.interned = h.interned ++ keys ∧
    (api.references h.core).Since (api.references h'.core)
      (held.filterMap Resource.handle? ++ keys.map Handle.slice)

/-- What is in `held` can be read as before, and so can the keys. -/
structure Keeps (h h' : Heap κ β) (held : List Resource) : Prop where
  block : ∀ a, .block a ∈ held → h'.memory.block a = h.memory.block a
  read : ∀ x, .handle x ∈ held → h'.read api x = h.read api x
  interned : h.interned ⊆ h'.interned
  key : ∀ a ∈ h.interned, h'.read api (.slice a) = h.read api (.slice a)

variable {api} {h₀ h h' h'' : Heap κ β} {held others : List Resource} {a : Nat} {x : Handle}

namespace Keeps

theorem refl (h : Heap κ β) (held : List Resource) : Keeps api h h held :=
  ⟨fun _ _ => rfl, fun _ _ => rfl, List.Subset.refl _, fun _ _ => rfl⟩

theorem trans (hkeeps : Keeps api h h' held) (hkeeps' : Keeps api h' h'' held) :
    Keeps api h h'' held where
  block a ha := (hkeeps'.block a ha).trans (hkeeps.block a ha)
  read x hx := (hkeeps'.read x hx).trans (hkeeps.read x hx)
  interned := List.Subset.trans hkeeps.interned hkeeps'.interned
  key a ha := (hkeeps'.key a (hkeeps.interned ha)).trans (hkeeps.key a ha)

theorem mono (hkeeps : Keeps api h h' held) (hsub : others ⊆ held) : Keeps api h h' others where
  block a ha := hkeeps.block a (hsub ha)
  read x hx := hkeeps.read x (hsub hx)
  interned := hkeeps.interned
  key := hkeeps.key

theorem left (hkeeps : Keeps api h h' (held ++ others)) : Keeps api h h' held :=
  hkeeps.mono (List.subset_append_left _ _)

theorem right (hkeeps : Keeps api h h' (held ++ others)) : Keeps api h h' others :=
  hkeeps.mono (List.subset_append_right _ _)

end Keeps

/-- What there is a reference to before and after is read as before, if its content is the same. -/
theorem read_eq (hpos : 0 < h.count api x) (hpos' : 0 < h'.count api x)
    (hcontent : (api.references h'.core).content x = (api.references h.core).content x) :
    h'.read api x = h.read api x := by
  rw [Heap.read, Heap.read, if_pos hpos, if_pos hpos', hcontent]

theorem read_eq_some (hpos : 0 < h.count api x) :
    h.read api x = some ((api.references h.core).content x) := if_pos hpos

namespace Since

theorem refl (hcounted : h.Counted api) : Since api h h [] :=
  ⟨hcounted, .refl _, [], (List.append_nil _).symm, .refl _⟩

theorem perm (hsince : Since api h h' held) (hperm : held.Perm others) : Since api h h' others where
  counted := hsince.counted
  memory := hsince.memory.perm (hperm.filterMap _)
  references := by
    obtain ⟨keys, hkeys, hreferences⟩ := hsince.references
    exact ⟨keys, hkeys, hreferences.perm ((hperm.filterMap _).append_right _)⟩

/-- There is a reference to everything that is held. -/
theorem pos (hsince : Since api h h' held) (hx : .handle x ∈ held) : 0 < h'.count api x := by
  obtain ⟨keys, -, hreferences⟩ := hsince.references
  exact hreferences.pos (List.mem_append_left _ (Resource.handle_mem.mpr hx))

/-- There is a reference to every key. -/
theorem counted' (hsince : Since api h h' held) : h'.Counted api := by
  obtain ⟨keys, hkeys, hreferences⟩ := hsince.references
  intro a ha
  rw [hkeys] at ha
  rcases List.mem_append.mp ha with ha | ha
  · exact hreferences.pos_of_pos (hsince.counted a ha)
  · exact hreferences.pos (List.mem_append_right _ (List.mem_map_of_mem ha))

/-- What has been there is still there. -/
theorem keeps (hbefore : Since api h₀ h held) (hsince : Since api h h' others) :
    Keeps api h h' held := by
  obtain ⟨keys, hkeys, hreferences⟩ := hsince.references
  have hread {x : Handle} (hx : 0 < h.count api x) : h'.read api x = h.read api x :=
    read_eq hx (hreferences.pos_of_pos hx) (hreferences.content x hx)
  refine ⟨fun a ha => ?_, fun x hx => hread (hbefore.pos hx), ?_, fun a ha => ?_⟩
  · exact hsince.memory.old (hbefore.memory.live a (Resource.block_mem.mpr ha))
  · rw [hkeys]
    exact List.subset_append_left _ _
  · exact hread (hbefore.counted' a ha)

theorem trans (hsince : Since api h h' held) (hsince' : Since api h' h'' others) :
    Since api h h'' (others ++ held) where
  counted := hsince.counted
  memory := by
    rw [List.filterMap_append]
    exact hsince.memory.trans hsince'.memory
  references := by
    obtain ⟨keys, hkeys, hreferences⟩ := hsince.references
    obtain ⟨keys', hkeys', hreferences'⟩ := hsince'.references
    refine ⟨keys ++ keys', by rw [hkeys', hkeys, List.append_assoc], ?_⟩
    refine (hreferences.trans hreferences').perm (List.perm_iff_count.mpr fun x => ?_)
    simp only [List.filterMap_append, List.map_append, List.count_append]
    omega

/-! ### One step -/

/-- A block is allocated. -/
theorem alloc (hsince : Since api h₀ h held) (b : β) :
    Since api h₀ (h.alloc b).2 (.block (h.alloc b).1 :: held) ∧ Keeps api h (h.alloc b).2 held := by
  refine ⟨⟨hsince.counted, hsince.memory.alloc b, hsince.references⟩, ?_⟩
  refine ⟨fun a ha => ?_, fun _ _ => rfl, List.Subset.refl _, fun _ _ => rfl⟩
  exact h.memory.alloc_block_of_ne b (hsince.memory.live a (Resource.block_mem.mpr ha))

/-- A block is freed. -/
theorem free (hsince : Since api h₀ h (.block a :: held)) :
    ∃ h', h.free a = some h' ∧ Since api h₀ h' held ∧ Keeps api h h' held := by
  obtain ⟨memory, hfree, hmemory, hsame⟩ := hsince.memory.free
  refine ⟨{ h with memory }, by rw [Heap.free, hfree]; rfl,
    ⟨hsince.counted, hmemory, hsince.references⟩, ?_⟩
  refine ⟨fun b hb => ?_, fun _ _ => rfl, List.Subset.refl _, fun _ _ => rfl⟩
  exact hsame b (hsince.memory.ne_of_mem (Resource.block_mem.mpr hb))

/-- An element of an array is set. -/
theorem setElement {α : Type} (array : List α → β) {elements? : β → Option (List α)}
    (harray : ∀ elements, elements? (array elements) = some elements)
    (hsince : Since api h₀ h held) (ha : .block a ∈ held) {before after : List α} {y : α}
    (hblock : h.memory.block a = some (array (before ++ y :: after))) (f : α → α) :
    ∃ memory, h.memory.setElement array elements? a before.length f = some memory ∧
      Since api h₀ { h with memory } held ∧
      memory.block = Function.update h.memory.block a (some (array (before ++ f y :: after))) := by
  obtain ⟨memory, hset, hmemory, hupdate⟩ :=
    hsince.memory.setElement array harray (Resource.block_mem.mpr ha) hblock f
  exact ⟨memory, hset, ⟨hsince.counted, hmemory, hsince.references⟩, hupdate⟩

/-- A reference is taken. -/
theorem take (hsince : Since api h₀ h held) {core : κ}
    (htake : (api.references h.core).Takes (api.references core) x) :
    Since api h₀ { h with core } (.handle x :: held) ∧ Keeps api h { h with core } held := by
  obtain ⟨keys, hkeys, hreferences⟩ := hsince.references
  have htaken : Since api h₀ { h with core } (.handle x :: held) :=
    ⟨hsince.counted, hsince.memory, keys, hkeys, hreferences.take htake⟩
  have hread {y : Handle} (hy : 0 < h.count api y) :
      Heap.read api { h with core } y = h.read api y := by
    have hpos : 0 < (api.references core).count y := by
      rw [htake.count]
      exact Nat.lt_of_lt_of_le hy (Nat.le_add_right _ _)
    exact read_eq hy hpos (htake.content y hy)
  exact ⟨htaken, fun _ _ => rfl, fun y hy => hread (hsince.pos hy), List.Subset.refl _,
    fun a ha => hread (hsince.counted' a ha)⟩

/-- A key is interned. -/
theorem intern (hsince : Since api h₀ h held) {core : κ}
    (htake : (api.references h.core).Takes (api.references core) (.slice a)) :
    Since api h₀ { h with core, interned := h.interned ++ [a] } held ∧
      Keeps api h { h with core, interned := h.interned ++ [a] } held := by
  obtain ⟨keys, hkeys, hreferences⟩ := hsince.references
  have hsince' : Since api h₀ { h with core, interned := h.interned ++ [a] } held := by
    refine ⟨hsince.counted, hsince.memory, keys ++ [a], by rw [hkeys, List.append_assoc], ?_⟩
    refine (hreferences.take htake).perm (List.perm_iff_count.mpr fun y => ?_)
    simp only [List.map_append, List.map_cons, List.map_nil, List.count_append, List.count_cons,
      List.count_nil]
    omega
  obtain ⟨-, hkeeps⟩ := hsince.take htake
  exact ⟨hsince', hkeeps.block, hkeeps.read, List.subset_append_left _ _, hkeeps.key⟩

/-- A reference is given back. -/
theorem give (hsince : Since api h₀ h (.handle x :: held)) {core : κ}
    (hgive : (api.references h.core).Gives (api.references core) x) :
    Since api h₀ { h with core } held ∧ Keeps api h { h with core } held := by
  obtain ⟨keys, hkeys, hreferences⟩ := hsince.references
  have hgiven : Since api h₀ { h with core } held :=
    ⟨hsince.counted, hsince.memory, keys, hkeys, hreferences.give hgive⟩
  have hread {y : Handle} (hy : 0 < h.count api y) (hy' : 0 < (api.references core).count y) :
      Heap.read api { h with core } y = h.read api y :=
    read_eq hy hy' (hgive.content y hy')
  refine ⟨hgiven, fun _ _ => rfl, fun y hy => ?_, List.Subset.refl _, fun a ha => ?_⟩
  · exact hread (hsince.pos (List.mem_cons_of_mem _ hy)) (hgiven.pos hy)
  · exact hread (hsince.counted' a ha) (hgiven.counted' a ha)

/-! ### The functions of the core -/

/-- A slice is made. -/
theorem newSlice (hapi : api.Documented) (hsince : Since api h₀ h held) (bytes : Buffer) :
    Since api h₀ (h.newSlice api bytes).2 (.handle (.slice (h.newSlice api bytes).1) :: held) ∧
      Keeps api h (h.newSlice api bytes).2 held ∧
      (h.newSlice api bytes).2.read api (.slice (h.newSlice api bytes).1) = some bytes := by
  obtain ⟨htaken, hkeeps⟩ := hsince.take (hapi.new h.core bytes)
  exact ⟨htaken, hkeeps, (read_eq_some (htaken.pos List.mem_cons_self)).trans
    (congrArg some (hapi.content_new h.core bytes))⟩

/-- A slice is given back. -/
theorem unref (hapi : api.Documented) (hsince : Since api h₀ h (.handle (.slice a) :: held)) :
    ∃ h', h.unref api a = some h' ∧ Since api h₀ h' held ∧ Keeps api h h' held := by
  have hpos := hsince.pos List.mem_cons_self
  exact ⟨_, if_pos (.inr hpos), hsince.give (hapi.unref hpos)⟩

/-- Giving back the empty slice changes nothing. -/
theorem unref_empty (hapi : api.Documented) (hsince : Since api h₀ h held) :
    ∃ h', h.unref api api.empty = some h' ∧ Since api h₀ h' held ∧ Keeps api h h' held := by
  have hsame := hapi.unref_empty h.core
  refine ⟨_, if_pos (.inl rfl), ⟨hsince.counted, hsince.memory, ?_⟩, fun _ _ => rfl, fun y _ => ?_,
    List.Subset.refl _, fun a _ => ?_⟩
  · rw [hsame]
    exact hsince.references
  · rw [Heap.read, Heap.read, Heap.count, Heap.count, hsame]
  · rw [Heap.read, Heap.read, Heap.count, Heap.count, hsame]

/-- A key is interned, and can be read from then on. -/
theorem internSlice (hapi : api.Documented) (hsince : Since api h₀ h held) {bytes : Buffer}
    (hread : h.read api (.slice a) = some bytes) :
    ∃ key h', h.intern api a = some (key, h') ∧ Since api h₀ h' held ∧ Keeps api h h' held ∧
      key ∈ h'.interned ∧ h'.read api (.slice key) = some bytes := by
  have hpos : 0 < h.count api (.slice a) := by
    by_contra hnot
    rw [Heap.read, if_neg hnot] at hread
    cases hread
  obtain ⟨hsince', hkeeps⟩ := hsince.intern (hapi.intern hpos)
  have hmem : (api.intern h.core a).1 ∈ h.interned ++ [(api.intern h.core a).1] :=
    List.mem_append_right _ List.mem_cons_self
  refine ⟨_, _, if_pos hpos, hsince', hkeeps, hmem, ?_⟩
  rw [read_eq_some (hsince'.counted' _ hmem), ← hread, read_eq_some hpos]
  exact congrArg some (hapi.content_intern hpos)

/-- A byte buffer is made of a slice. -/
theorem createByteBuffer (hapi : api.Documented) (hsince : Since api h₀ h held) {bytes : Buffer}
    (hread : h.read api (.slice a) = some bytes) :
    ∃ byteBuffer h', h.createByteBuffer api a = some (byteBuffer, h') ∧
      Since api h₀ h' (.handle (.byteBuffer byteBuffer) :: held) ∧ Keeps api h h' held ∧
      h'.read api (.byteBuffer byteBuffer) = some bytes := by
  have hpos : 0 < h.count api (.slice a) := by
    by_contra hnot
    rw [Heap.read, if_neg hnot] at hread
    cases hread
  obtain ⟨hsince', hkeeps⟩ := hsince.take (hapi.createByteBuffer hpos)
  refine ⟨_, _, if_pos hpos, hsince', hkeeps, ?_⟩
  rw [read_eq_some (hsince'.pos List.mem_cons_self), ← hread, read_eq_some hpos]
  exact congrArg some (hapi.content_createByteBuffer hpos)

/-- A byte buffer is destroyed. -/
theorem destroyByteBuffer (hapi : api.Documented)
    (hsince : Since api h₀ h (.handle (.byteBuffer a) :: held)) :
    ∃ h', h.destroyByteBuffer api a = some h' ∧ Since api h₀ h' held ∧ Keeps api h h' held := by
  have hpos := hsince.pos List.mem_cons_self
  exact ⟨_, if_pos hpos, hsince.give (hapi.destroyByteBuffer hpos)⟩

/-- The core goes on. -/
theorem goOn (hapi : api.Documented) (hsince : Since api h₀ h held) (e : ι) :
    Since api h₀ { h with core := api.goOn h.core e } held ∧
      Keeps api h { h with core := api.goOn h.core e } held := by
  have hone : Since api h { h with core := api.goOn h.core e } [] :=
    ⟨hsince.counted', .refl _, [], (List.append_nil _).symm, hapi.goOn h.core e⟩
  exact ⟨hsince.trans hone, hsince.keeps hone⟩

end Since

end Heap

end GrpcNode.NativeCore
