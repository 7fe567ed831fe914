import GrpcNode.Js.Buffer
import GrpcNode.Lib.References
import Mathlib.Tactic.Common

/-!
# GrpcNode.NativeCore.Slices

The slices and byte buffers of the gRPC core, which is not in the repository. `Slices` is what the
addon can observe of them, and `Slices.Documented` is what gRPC documents: references to slices are
counted, and a byte buffer has references of its own to the slices that it is made of, until it is
destroyed.

`SliceStore` is a core that does what it is documented to do.
-/

namespace GrpcNode.NativeCore

open GrpcNode.Js

/-- What the addon has references to: a slice, or a byte buffer, to which there is one until it is
destroyed -/
inductive Handle
  | slice (a : Nat)
  | byteBuffer (a : Nat)
  deriving Repr, DecidableEq

/-- The functions of the core for slices and byte buffers. Its states are `κ`, and what it does on
its own is `ι`. -/
structure Slices (κ ι : Type) where
  /-- `grpc_empty_slice` -/
  empty : Nat
  /-- `grpc_slice_new_with_user_data` -/
  new : κ → Buffer → Nat × κ
  /-- `grpc_slice_unref` -/
  unref : κ → Nat → κ
  /-- `grpc_slice_intern` -/
  intern : κ → Nat → Nat × κ
  /-- `grpc_raw_byte_buffer_create`, with one slice -/
  createByteBuffer : κ → Nat → Nat × κ
  /-- `grpc_byte_buffer_destroy` -/
  destroyByteBuffer : κ → Nat → κ
  /-- The core reads and sends what it has been given. -/
  goOn : κ → ι → κ
  /-- The references that the addon has, and what they are to -/
  references : κ → References Handle Buffer

/-- What gRPC documents. The functions may be called with what there is a reference to. -/
structure Slices.Documented {κ ι : Type} (api : Slices κ ι) : Prop where
  /-- A new slice is one with these bytes, and the caller has a reference to it. -/
  new (k : κ) (bytes : Buffer) :
    (api.references k).Takes (api.references (api.new k bytes).2) (.slice (api.new k bytes).1)
  content_new (k : κ) (bytes : Buffer) :
    (api.references (api.new k bytes).2).content (.slice (api.new k bytes).1) = bytes
  unref {k : κ} {a : Nat} (h : 0 < (api.references k).count (.slice a)) :
    (api.references k).Gives (api.references (api.unref k a)) (.slice a)
  /-- References to the empty slice are not counted. -/
  unref_empty (k : κ) : api.references (api.unref k api.empty) = api.references k
  /-- The interned slice is one with the same bytes, and the caller has a reference to it. -/
  intern {k : κ} {a : Nat} (h : 0 < (api.references k).count (.slice a)) :
    (api.references k).Takes (api.references (api.intern k a).2) (.slice (api.intern k a).1)
  content_intern {k : κ} {a : Nat} (h : 0 < (api.references k).count (.slice a)) :
    (api.references (api.intern k a).2).content (.slice (api.intern k a).1) =
      (api.references k).content (.slice a)
  /-- The byte buffer takes its own reference to the slice. -/
  createByteBuffer {k : κ} {a : Nat} (h : 0 < (api.references k).count (.slice a)) :
    (api.references k).Takes (api.references (api.createByteBuffer k a).2)
      (.byteBuffer (api.createByteBuffer k a).1)
  content_createByteBuffer {k : κ} {a : Nat} (h : 0 < (api.references k).count (.slice a)) :
    (api.references (api.createByteBuffer k a).2).content
      (.byteBuffer (api.createByteBuffer k a).1) = (api.references k).content (.slice a)
  destroyByteBuffer {k : κ} {a : Nat} (h : 0 < (api.references k).count (.byteBuffer a)) :
    (api.references k).Gives (api.references (api.destroyByteBuffer k a)) (.byteBuffer a)
  /-- What the core does on its own is not seen in what the addon has references to. -/
  goOn (k : κ) (e : ι) : (api.references k).Since (api.references (api.goOn k e)) []

/-! ### A core -/

/-- The address of what a handle is to -/
def Handle.address : Handle → Nat
  | slice a | byteBuffer a => a

/-- Slices and byte buffers, in the order in which they have been made, from address 1 on. Nothing
is made in place of another one. -/
structure SliceStore where
  contents : List Buffer
  count : Handle → Nat
  /-- The slices that `intern` has returned -/
  interned : List Nat
  made : ∀ x, count x ≠ 0 → 1 ≤ x.address ∧ x.address ≤ contents.length

namespace SliceStore

/-- What is at an address -/
def bytes (k : SliceStore) (a : Nat) : Buffer := k.contents.getD (a - 1) []

def references (k : SliceStore) : References Handle Buffer := ⟨k.count, fun x => k.bytes x.address⟩

/-- One more reference to something that is there -/
def take (k : SliceStore) (x : Handle) (h : 1 ≤ x.address ∧ x.address ≤ k.contents.length) :
    SliceStore where
  contents := k.contents
  count y := k.count y + if x = y then 1 else 0
  interned := k.interned
  made y hy := by
    by_cases heq : x = y
    · exact heq ▸ h
    · rw [if_neg heq] at hy
      exact k.made y hy

/-- One reference less -/
def give (k : SliceStore) (x : Handle) : SliceStore where
  contents := k.contents
  count y := k.count y - if x = y then 1 else 0
  interned := k.interned
  made y hy := k.made y (by omega)

/-- Something is made. -/
def make (k : SliceStore) (bytes : Buffer) : SliceStore where
  contents := k.contents ++ [bytes]
  count := k.count
  interned := k.interned
  made x hx := by
    have hmade := k.made x hx
    rw [List.length_append]
    omega

/-- Something is made, with a reference to it. -/
def makeHandle (k : SliceStore) (bytes : Buffer) (x : Handle)
    (h : x.address = k.contents.length + 1) : SliceStore :=
  (k.make bytes).take x (by
    show 1 ≤ x.address ∧ x.address ≤ (k.contents ++ [bytes]).length
    rw [h, List.length_append, List.length_singleton]
    omega)

/-- A slice with the same bytes that has been interned -/
def findInterned (k : SliceStore) (a : Nat) : Option (Fin k.contents.length) :=
  (List.finRange k.contents.length).find? fun i =>
    decide (i.1 + 1 ∈ k.interned ∧ k.bytes (i.1 + 1) = k.bytes a)

def intern (k : SliceStore) (a : Nat) : Nat × SliceStore :=
  match k.findInterned a with
  | some i => (i.1 + 1, k.take (.slice (i.1 + 1)) ⟨Nat.succ_pos _, i.2⟩)
  | none =>
      let key := k.contents.length + 1
      (key, { k.makeHandle (k.bytes a) (.slice key) rfl with interned := key :: k.interned })

theorem take_takes (k : SliceStore) (x : Handle)
    (h : 1 ≤ x.address ∧ x.address ≤ k.contents.length) :
    k.references.Takes (k.take x h).references x :=
  ⟨fun _ => rfl, fun _ _ => rfl⟩

theorem give_gives {k : SliceStore} {x : Handle} (h : 0 < k.count x) :
    k.references.Gives (k.give x).references x := by
  refine ⟨fun y => ?_, fun _ _ => rfl⟩
  show k.count y - (if x = y then 1 else 0) + (if x = y then 1 else 0) = k.count y
  by_cases heq : x = y
  · rw [if_pos heq, ← heq]
    omega
  · rw [if_neg heq]
    rfl

/-- What is made is not made in place of another one. -/
theorem makeHandle_takes (k : SliceStore) (bytes : Buffer) (x : Handle)
    (h : x.address = k.contents.length + 1) :
    k.references.Takes (k.makeHandle bytes x h).references x := by
  refine ⟨fun _ => rfl, fun y hy => ?_⟩
  have hmade := k.made y (Nat.ne_of_gt hy)
  show (k.contents ++ [bytes]).getD (y.address - 1) [] = k.contents.getD (y.address - 1) []
  have hlt : y.address - 1 < k.contents.length := by omega
  rw [List.getD_eq_getElem?_getD, List.getElem?_append_left hlt, List.getD_eq_getElem?_getD]

theorem makeHandle_content (k : SliceStore) (bytes : Buffer) (x : Handle)
    (h : x.address = k.contents.length + 1) :
    (k.makeHandle bytes x h).references.content x = bytes := by
  show (k.contents ++ [bytes]).getD (x.address - 1) [] = bytes
  rw [h, Nat.add_sub_cancel, List.getD_eq_getElem?_getD, List.getElem?_concat_length]
  rfl

theorem intern_spec (k : SliceStore) (a : Nat) :
    k.references.Takes (k.intern a).2.references (.slice (k.intern a).1) ∧
      (k.intern a).2.references.content (.slice (k.intern a).1) =
        k.references.content (.slice a) := by
  unfold intern
  cases hfind : k.findInterned a with
  | some i =>
      unfold findInterned at hfind
      have hfound : i.1 + 1 ∈ k.interned ∧ k.bytes (i.1 + 1) = k.bytes a :=
        of_decide_eq_true (List.find?_some hfind :)
      exact ⟨k.take_takes (.slice (i.1 + 1)) ⟨Nat.succ_pos _, i.2⟩, hfound.2⟩
  | none => exact ⟨k.makeHandle_takes _ _ rfl, k.makeHandle_content _ _ rfl⟩

/-- Nothing has been made. -/
def initial : SliceStore where
  contents := []
  count _ := 0
  interned := []
  made _ h := absurd rfl h

/-- The functions. The address of the empty slice is 0. The core does nothing on its own. -/
def api : Slices SliceStore Unit where
  empty := 0
  new k bytes :=
    (k.contents.length + 1, k.makeHandle bytes (.slice (k.contents.length + 1)) rfl)
  unref k a := k.give (.slice a)
  intern := intern
  createByteBuffer k a :=
    (k.contents.length + 1, k.makeHandle (k.bytes a) (.byteBuffer (k.contents.length + 1)) rfl)
  destroyByteBuffer k a := k.give (.byteBuffer a)
  goOn k _ := k
  references := references

theorem api_documented : api.Documented where
  new k bytes := k.makeHandle_takes bytes _ rfl
  content_new k bytes := k.makeHandle_content bytes _ rfl
  unref := give_gives
  unref_empty k := by
    have hzero : k.count (.slice 0) = 0 := by
      by_contra hne
      exact absurd (k.made _ hne).1 (Nat.not_succ_le_zero 0)
    show References.mk (fun y => k.count y - if Handle.slice 0 = y then 1 else 0) _ = k.references
    refine congrArg (References.mk · _) (funext fun y => ?_)
    by_cases heq : Handle.slice 0 = y
    · rw [if_pos heq, ← heq, hzero]
    · rw [if_neg heq, Nat.sub_zero]
  intern _ := (intern_spec _ _).1
  content_intern _ := (intern_spec _ _).2
  createByteBuffer _ := makeHandle_takes _ _ _ rfl
  content_createByteBuffer _ := makeHandle_content _ _ _ rfl
  destroyByteBuffer := give_gives
  goOn k _ := .refl k.references

end SliceStore

end GrpcNode.NativeCore
