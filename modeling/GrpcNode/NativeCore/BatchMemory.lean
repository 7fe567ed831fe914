import GrpcNode.Lib.Runs
import GrpcNode.NativeCore.Heap
import GrpcNode.NativeCore.MetadataArray

/-!
# GrpcNode.NativeCore.BatchMemory

The memory of the operations in `call.cc`: what `ParseOp` allocates, and the references that it
takes, for the core to read; and what the destructors free and give back, when an operation is
refused or when the tag of a batch is destroyed. A step that uses what is not allocated, or what
there is no reference to, is `none`.

An operation is a part of its tag; allocations do not fail. The keys of metadata are interned, and
`DestroyMetadataArray` does not give the references to them back. What the core allocates for the
operations that receive something is not here.
-/

namespace GrpcNode.NativeCore

open GrpcNode.Js

namespace BatchMemory

/-! ### Blocks -/

/-- A `grpc_metadata` in an array: the interned key, and the slice of the value -/
structure Slot where
  key : Option Nat := none
  value : Option Nat := none

/-- A `grpc_metadata_array` -/
structure GrpcArray where
  metadata : Option Nat := none
  count : Nat := 0
  capacity : Nat := 0

/-- An `Op`, as far as it points to something. For the others, it is what the core gets. -/
inductive Op
  | sendMetadata (array : GrpcArray)
  | sendMessage (message : Option Nat) (flags : Nat)
  | sendStatus (details : Nat) (array : GrpcArray) (code : Nat)
  | plain (op : CoreOp)

/-- What is in a block -/
inductive Block
  | metadata (slots : List Slot)
  | tag (ops : List Op)

variable {κ ι : Type} (core : Core) (api : Slices κ ι)

/-- `BufferToByteBuffer` -/
def bufferToByteBuffer (h : Heap κ Block) (bytes : Buffer) : Option (Nat × Heap κ Block) := do
  let (slice, h) := h.newSlice api bytes
  let (byteBuffer, h) ← h.createByteBuffer api slice
  let h ← h.unref api slice
  return (byteBuffer, h)

/-! ### Metadata -/

def Block.slots? : Block → Option (List Slot)
  | .metadata slots => some slots
  | .tag _ => none

theorem Block.slots?_metadata (slots : List Slot) : slots? (.metadata slots) = some slots := rfl

/-- `array->metadata[i]` -/
def getSlot (h : Heap κ Block) (metadata i : Nat) : Option Slot :=
  h.memory.getElement Block.slots? metadata i

/-- An assignment to members of `array->metadata[i]` -/
def setSlot (h : Heap κ Block) (metadata i : Nat) (f : Slot → Slot) : Option (Heap κ Block) :=
  (h.memory.setElement .metadata Block.slots? metadata i f).map fun memory => { h with memory }

/-- The inner loop of `CreateMetadataArray`, with `array->count` -/
def fillValues (metadata key : Nat) :
    List JsValue → Nat → Heap κ Block → Option (Bool × Nat × Heap κ Block)
  | [], count, h => some (true, count, h)
  | value :: values, count, h => do
      let h ← setSlot h metadata count fun slot => { slot with key := some key }
      match createMetadata core (← h.read api (.slice key)) value with
      | none => return (false, count, h)
      | some (_, bytes) =>
          let (value, h) := h.newSlice api bytes
          let h ← setSlot h metadata count fun slot => { slot with value := some value }
          fillValues metadata key values (count + 1) h

/-- The second loop of `CreateMetadataArray` -/
def fillEntries (metadata : Nat) :
    List (String × JsValue) → Nat → Heap κ Block → Option (Bool × Nat × Heap κ Block)
  | [], count, h => some (true, count, h)
  | (key, values) :: properties, count, h => do
      let (slice, h) := h.newSlice api (createSliceFromString key)
      let (key, h) ← h.intern api slice
      let h ← h.unref api slice
      let (filled, count, h) ← fillValues core api metadata key (elementsOf values) count h
      if filled then fillEntries metadata properties count h else return (false, count, h)

/-- `CreateMetadataArray`, of an array after `grpc_metadata_array_init` -/
def createMetadataArray (metadata : JsValue) (h : Heap κ Block) :
    Option (Bool × GrpcArray × Heap κ Block) :=
  match countEntries {} metadata.ownProperties with
  | (false, array) => some (false, { capacity := array.capacity }, h)
  | (true, array) => do
      let capacity := array.capacity
      let (pointer, h) := h.alloc (.metadata (List.replicate capacity {}))
      let (filled, count, h) ← fillEntries core api pointer metadata.ownProperties 0 h
      return (filled, { metadata := some pointer, count, capacity }, h)

/-- The loop of `DestroyMetadataArray`. `remaining` is `array->count - i`. -/
def unrefValues (metadata i : Nat) :
    (remaining : Nat) → Heap κ Block → Option (Heap κ Block)
  | 0, h => some h
  | remaining + 1, h => do
      let slot ← getSlot h metadata i
      let h ← h.unref api (← slot.value)
      unrefValues metadata (i + 1) remaining h

/-- `DestroyMetadataArray` -/
def destroyMetadataArray (h : Heap κ Block) (array : GrpcArray) : Option (Heap κ Block) :=
  match array.metadata with
  | none => if array.count = 0 then some h else none
  | some metadata => do
      let h ← unrefValues api metadata 0 array.count h
      h.free metadata

/-! ### Operations -/

/-- What `SendServerStatusOp::ParseOp` reads of its object: the metadata, the code and the
details -/
def statusMembers (value : JsValue) : Option (JsValue × Nat × String) := do
  if !value.isObject then none
  let metadata := value.get "metadata"
  if !metadata.isObject then none
  let code ← (value.get "code").uint32?
  let details ← (value.get "details").string?
  return (metadata, code, details)

/-- `ParseOp` of a new operation, with what it makes of it -/
def parseOp (h : Heap κ Block) : OpType → JsValue → Option (Bool × Op × Heap κ Block)
  | .sendInitialMetadata, value =>
      if value.isObject then do
        let (created, array, h) ← createMetadataArray core api value h
        return (created, .sendMetadata array, h)
      else some (false, .sendMetadata {}, h)
  | .sendMessage, value =>
      match value with
      | .buffer bytes _ => do
          let flags := (value.get "grpcWriteFlags").uint32?.getD 0 &&& core.writeUsedMask
          let (message, h) ← bufferToByteBuffer api h bytes
          return (true, .sendMessage (some message) flags, h)
      | _ => some (false, .sendMessage none 0, h)
  | .sendStatusFromServer, value =>
      match statusMembers value with
      | none => some (false, .sendStatus api.empty {} 0, h)
      | some (metadata, code, details) => do
          let (created, array, h) ← createMetadataArray core api metadata h
          if created then
            let (details, h) := h.newSlice api (createSliceFromString details)
            return (true, .sendStatus details array code, h)
          else return (false, .sendStatus api.empty array 0, h)
  | .sendCloseFromClient, _ => some (true, .plain .sendCloseFromClient, h)
  | .recvInitialMetadata, _ => some (true, .plain .recvInitialMetadata, h)
  | .recvMessage, _ => some (true, .plain .recvMessage, h)
  | .recvStatusOnClient, _ => some (true, .plain .recvStatusOnClient, h)
  | .recvCloseOnServer, _ => some (true, .plain .recvCloseOnServer, h)

/-- The destructor of an operation -/
def destroyOp (h : Heap κ Block) : Op → Option (Heap κ Block)
  | .sendMetadata array => destroyMetadataArray api h array
  | .sendMessage none _ => some h
  | .sendMessage (some message) _ => h.destroyByteBuffer api message
  | .sendStatus details array _ => do
      let h ← h.unref api details
      destroyMetadataArray api h array
  | .plain _ => some h

/-- The destructor of an `OpVec` -/
def destroyOps : List Op → Heap κ Block → Option (Heap κ Block)
  | [], h => some h
  | op :: ops, h => do
      let h ← destroyOp api h op
      destroyOps ops h

/-- The loop of `Call::StartBatch`, with the operations so far. All are destroyed when one is
refused. -/
def parseOps : Batch → List Op → Heap κ Block → Option (Except JsError (List Op) × Heap κ Block)
  | [], ops, h => some (.ok ops, h)
  | (type, value) :: batch, ops, h => do
      let (parsed, op, h) ← parseOp core api h type value
      if parsed then parseOps batch (ops ++ [op]) h
      else
        let h ← destroyOp api h op
        let h ← destroyOps api ops h
        return (.error (.typeError "Incorrectly typed arguments to startBatch"), h)

/-- `Call::StartBatch`, up to the call of the core: the tag, or the exception -/
def startBatch (batch : Batch) (h : Heap κ Block) :
    Option (Except JsError Nat × Heap κ Block) := do
  let (result, h) ← parseOps core api batch [] h
  match result with
  | .error e => return (.error e, h)
  | .ok ops =>
      let (tag, h) := h.alloc (.tag ops)
      return (.ok tag, h)

/-- `DestroyTag` -/
def destroyTag (h : Heap κ Block) (tag : Nat) : Option (Heap κ Block) :=
  match h.memory.block tag with
  | some (.tag ops) => do
      let h ← destroyOps api ops h
      h.free tag
  | _ => none

/-! ### What the core reads -/

/-- The key and the value of an element -/
def readSlot (h : Heap κ Block) (slot : Slot) : Option (Buffer × Buffer) := do
  let key ← h.read api (.slice (← slot.key))
  let value ← h.read api (.slice (← slot.value))
  return (key, value)

/-- The elements of an array that count -/
def readArray (h : Heap κ Block) (array : GrpcArray) : Option MetadataArray :=
  match array.metadata with
  | none => if array.count = 0 then some [] else none
  | some metadata =>
      (List.range array.count).mapM fun i => do readSlot api h (← getSlot h metadata i)

/-- The `grpc_op` of an operation -/
def readOp (h : Heap κ Block) : Op → Option CoreOp
  | .sendMetadata array => (readArray api h array).map .sendInitialMetadata
  | .sendMessage none _ => none
  | .sendMessage (some message) flags =>
      (h.read api (.byteBuffer message)).map fun bytes => .sendMessage bytes flags
  | .sendStatus details array code => do
      let trailingMetadata ← readArray api h array
      let statusDetails ← h.read api (.slice details)
      return .sendStatusFromServer ⟨trailingMetadata, code, statusDetails⟩
  | .plain op => some op

/-- The operations of a batch, at the tag -/
def readTag (h : Heap κ Block) (tag : Nat) : Option (List CoreOp) :=
  match h.memory.block tag with
  | some (.tag ops) => ops.mapM (readOp api h)
  | _ => none

/-! ### What operations hold -/

/-- A `grpc_metadata` with a value, with what is read of it -/
structure Element where
  key : Nat
  name : Buffer
  pointer : Nat
  bytes : Buffer

def Element.slot (e : Element) : Slot := { key := some e.key, value := some e.pointer }

def Element.entry (e : Element) : Buffer × Buffer := (e.name, e.bytes)

/-- The value is held. The key is not, it is interned. -/
def Element.resource (e : Element) : Resource := .handle (.slice e.pointer)

/-- The key and the value of an element can be read. -/
structure Element.Reads (h : Heap κ Block) (e : Element) : Prop where
  interned : e.key ∈ h.interned
  key : h.read api (.slice e.key) = some e.name
  value : h.read api (.slice e.pointer) = some e.bytes

/-- An array has some entries, and holds its block and their values. -/
inductive GrpcArray.Holds (h : Heap κ Block) : GrpcArray → MetadataArray → List Resource → Prop
  | null {capacity : Nat} : Holds h { capacity } [] []
  | filled {a capacity : Nat} {elements : List Element} {rest : List Slot}
      (hslots : h.memory.block a = some (.metadata (elements.map Element.slot ++ rest)))
      (hvalues : ∀ e ∈ elements, e.Reads api h) :
      Holds h { metadata := some a, count := elements.length, capacity }
        (elements.map Element.entry) (elements.map Element.resource ++ [.block a])

/-- An operation holds something. What the core reads of it is `none` if it is not complete. -/
inductive Op.Holds (h : Heap κ Block) : Op → Option CoreOp → List Resource → Prop
  | sendMetadata {array : GrpcArray} {entries : MetadataArray} {held : List Resource}
      (harray : array.Holds api h entries held) :
      Holds h (.sendMetadata array) (some (.sendInitialMetadata entries)) held
  | noMessage {flags : Nat} : Holds h (.sendMessage none flags) none []
  | sendMessage {message flags : Nat} {bytes : Buffer}
      (hmessage : h.read api (.byteBuffer message) = some bytes) :
      Holds h (.sendMessage (some message) flags) (some (.sendMessage bytes flags))
        [.handle (.byteBuffer message)]
  | noDetails {array : GrpcArray} {code : Nat} {entries : MetadataArray} {held : List Resource}
      (harray : array.Holds api h entries held) :
      Holds h (.sendStatus api.empty array code) none held
  | sendStatus {details code : Nat} {array : GrpcArray} {bytes : Buffer} {entries : MetadataArray}
      {held : List Resource} (hdetails : h.read api (.slice details) = some bytes)
      (harray : array.Holds api h entries held) :
      Holds h (.sendStatus details array code)
        (some (.sendStatusFromServer ⟨entries, code, bytes⟩)) (.handle (.slice details) :: held)
  | plain {op : CoreOp} : Holds h (.plain op) (some op) []

/-! ### What else there is does not matter -/

variable {core api} {h₀ h h' : Heap κ Block} {held others : List Resource}

theorem Element.Reads.mono {e : Element} (he : e.Reads api h)
    (hkeeps : Heap.Keeps api h h' held) (hmem : e.resource ∈ held) : e.Reads api h' where
  interned := hkeeps.interned he.interned
  key := (hkeeps.key e.key he.interned).trans he.key
  value := (hkeeps.read _ hmem).trans he.value

theorem GrpcArray.Holds.mono {array : GrpcArray} {entries : MetadataArray}
    (harray : array.Holds api h entries held) (hkeeps : Heap.Keeps api h h' held) :
    array.Holds api h' entries held := by
  cases harray with
  | null => exact .null
  | @filled a _ _ _ hslots hvalues =>
      have hblock := hkeeps.block a (List.mem_append_right _ List.mem_cons_self)
      refine .filled (hblock.trans hslots) fun e he => ?_
      exact (hvalues e he).mono hkeeps (List.mem_append_left _ (List.mem_map_of_mem he))

theorem Op.Holds.mono {op : Op} {result : Option CoreOp} (hop : op.Holds api h result held)
    (hkeeps : Heap.Keeps api h h' held) : op.Holds api h' result held := by
  cases hop with
  | sendMetadata harray => exact .sendMetadata (harray.mono hkeeps)
  | noMessage => exact .noMessage
  | sendMessage hmessage =>
      exact .sendMessage ((hkeeps.read _ List.mem_cons_self).trans hmessage)
  | noDetails harray => exact .noDetails (harray.mono hkeeps)
  | sendStatus hdetails harray =>
      have hkeeps' := hkeeps.mono (List.subset_cons_self _ _)
      exact .sendStatus ((hkeeps.read _ List.mem_cons_self).trans hdetails) (harray.mono hkeeps')
  | plain => exact .plain

/-! ### Destructors -/

/-- The values of an array are given back, one after the other. -/
theorem unrefValues_since (hapi : api.Documented) {metadata : Nat} (before : List Slot)
    {elements : List Element} {rest : List Slot}
    (hsince : Heap.Since api h₀ h (elements.map Element.resource ++ others))
    (hmem : .block metadata ∈ others) (hslots : h.memory.block metadata =
      some (.metadata (before ++ (elements.map Element.slot ++ rest)))) :
    ∃ h', unrefValues api metadata before.length elements.length h = some h' ∧
      Heap.Since api h₀ h' others ∧ Heap.Keeps api h h' others := by
  induction elements generalizing h before with
  | nil => exact ⟨h, rfl, hsince, .refl h others⟩
  | cons e elements ih =>
      obtain ⟨h₁, hunref, hsince₁, hkeeps₁⟩ := Heap.Since.unref hapi hsince
      have hslots₁ : h₁.memory.block metadata = some (.metadata ((before ++ [e.slot]) ++
          (elements.map Element.slot ++ rest))) := by
        rw [hkeeps₁.block metadata (List.mem_append_right _ hmem), hslots, List.append_assoc]
        rfl
      obtain ⟨h', hloop, hsince', hkeeps'⟩ := ih _ hsince₁ hslots₁
      refine ⟨h', ?_, hsince', hkeeps₁.right.trans hkeeps'⟩
      have hslot : getSlot h metadata before.length = some e.slot :=
        Memory.getElement_eq .metadata Block.slots?_metadata hslots
      rw [List.length_append, List.length_singleton] at hloop
      simp only [List.length_cons, unrefValues, hslot, Element.slot, hunref, Option.bind_eq_bind,
        Option.bind_some]
      exact hloop

theorem destroyMetadataArray_since (hapi : api.Documented) {array : GrpcArray}
    {entries : MetadataArray}
    (hsince : Heap.Since api h₀ h (held ++ others)) (harray : array.Holds api h entries held) :
    ∃ h', destroyMetadataArray api h array = some h' ∧ Heap.Since api h₀ h' others ∧
      Heap.Keeps api h h' others := by
  cases harray with
  | null => exact ⟨h, rfl, hsince, .refl h others⟩
  | @filled a capacity elements rest hslots hvalues =>
      rw [List.append_assoc] at hsince
      obtain ⟨h₁, hloop, hsince₁, hkeeps₁⟩ := unrefValues_since hapi [] hsince
        List.mem_cons_self hslots
      obtain ⟨h', hfree, hsince', hkeeps'⟩ := hsince₁.free
      refine ⟨h', ?_, hsince', (hkeeps₁.mono (List.subset_cons_self _ _)).trans hkeeps'⟩
      rw [List.length_nil] at hloop
      simp only [destroyMetadataArray, hloop, Option.bind_eq_bind, Option.bind_some]
      exact hfree

/-- A destructor gives back what the operation holds. -/
theorem destroyOp_since (hapi : api.Documented) {op : Op} {result : Option CoreOp}
    (hsince : Heap.Since api h₀ h (held ++ others)) (hop : op.Holds api h result held) :
    ∃ h', destroyOp api h op = some h' ∧ Heap.Since api h₀ h' others ∧
      Heap.Keeps api h h' others := by
  cases hop with
  | sendMetadata harray => exact destroyMetadataArray_since hapi hsince harray
  | noMessage | plain => exact ⟨h, rfl, hsince, .refl h others⟩
  | sendMessage hmessage => exact Heap.Since.destroyByteBuffer hapi hsince
  | noDetails harray =>
      obtain ⟨h₁, hunref, hsince₁, hkeeps₁⟩ := Heap.Since.unref_empty hapi hsince
      obtain ⟨h', hdestroy, hsince', hkeeps'⟩ := destroyMetadataArray_since hapi hsince₁
        (harray.mono hkeeps₁.left)
      refine ⟨h', ?_, hsince', hkeeps₁.right.trans hkeeps'⟩
      simp only [destroyOp, hunref, Option.bind_eq_bind, Option.bind_some]
      exact hdestroy
  | sendStatus hdetails harray =>
      obtain ⟨h₁, hunref, hsince₁, hkeeps₁⟩ := Heap.Since.unref hapi hsince
      obtain ⟨h', hdestroy, hsince', hkeeps'⟩ := destroyMetadataArray_since hapi hsince₁
        (harray.mono hkeeps₁.left)
      refine ⟨h', ?_, hsince', hkeeps₁.right.trans hkeeps'⟩
      simp only [destroyOp, hunref, Option.bind_eq_bind, Option.bind_some]
      exact hdestroy

/-! ### `CreateMetadataArray` -/

/-- An array that is being filled: some elements, and slots that do not count. What is held since
`h₀` are some other things, the values of the elements, and the array. -/
structure Filling (api : Slices κ ι) (h₀ h : Heap κ Block) (metadata : Nat)
    (elements : List Element) (rest : List Slot) (others : List Resource) : Prop where
  since : Heap.Since api h₀ h (others ++ (elements.map Element.resource ++ [.block metadata]))
  slots : h.memory.block metadata = some (.metadata (elements.map Element.slot ++ rest))
  values : ∀ e ∈ elements, e.Reads api h

namespace Filling

variable {metadata : Nat} {elements : List Element} {slot : Slot} {rest : List Slot}

/-- A slot is set, and nothing else changes. -/
theorem setSlot (hfilling : Filling api h₀ h metadata elements (slot :: rest) others)
    (f : Slot → Slot) : ∃ memory, BatchMemory.setSlot h metadata elements.length f =
        some { h with memory } ∧
      Filling api h₀ { h with memory } metadata elements (f slot :: rest) others := by
  obtain ⟨memory, hset, hsince, hblock⟩ := hfilling.since.setElement .metadata
    Block.slots?_metadata (by simp) hfilling.slots f
  rw [List.length_map] at hset
  refine ⟨memory, by rw [BatchMemory.setSlot, hset]; rfl, hsince, ?_, fun e he => ?_⟩
  · rw [hblock, Function.update_self]
  · obtain ⟨hinterned, hkey, hvalue⟩ := hfilling.values e he
    exact ⟨hinterned, hkey, hvalue⟩

/-- The array is not affected by what happens to other things. -/
theorem keeps (hfilling : Filling api h₀ h metadata elements rest held)
    (hsince : Heap.Since api h₀ h'
      (others ++ (elements.map Element.resource ++ [.block metadata])))
    (hkeeps : Heap.Keeps api h h' (elements.map Element.resource ++ [.block metadata])) :
    Filling api h₀ h' metadata elements rest others where
  since := hsince
  slots := (hkeeps.block metadata (List.mem_append_right _ List.mem_cons_self)).trans hfilling.slots
  values e he := (hfilling.values e he).mono hkeeps
    (List.mem_append_left _ (List.mem_map_of_mem he))

/-- A value that is accepted -/
theorem push (hapi : api.Documented)
    (hfilling : Filling api h₀ h metadata elements (slot :: rest) []) {key : Nat}
    {name : Buffer} (hinterned : key ∈ h.interned)
    (hkey : h.read api (.slice key) = some name) (bytes : Buffer) :
    ∃ h₁ h₂, BatchMemory.setSlot h metadata elements.length
        (fun slot => { slot with key := some key }) = some h₁ ∧
      h₁.read api (.slice key) = some name ∧
      BatchMemory.setSlot (h₁.newSlice api bytes).2 metadata elements.length
        (fun slot => { slot with value := some (h₁.newSlice api bytes).1 }) = some h₂ ∧
      Filling api h₀ h₂ metadata
        (elements ++ [⟨key, name, (h₁.newSlice api bytes).1, bytes⟩]) rest [] := by
  obtain ⟨memory₁, hset₁, hfilling₁⟩ := hfilling.setSlot fun slot => { slot with key := some key }
  obtain ⟨hsince, hkeeps, hvalue⟩ := Heap.Since.newSlice hapi hfilling₁.since bytes
  have hgrown : Filling api h₀ (Heap.newSlice api { h with memory := memory₁ } bytes).2 metadata
      elements ({ slot with key := some key } :: rest)
      [.handle (.slice (Heap.newSlice api { h with memory := memory₁ } bytes).1)] :=
    hfilling₁.keeps hsince hkeeps
  obtain ⟨memory₂, hset₂, hfilling₂⟩ := hgrown.setSlot fun slot =>
    { slot with value := some (Heap.newSlice api { h with memory := memory₁ } bytes).1 }
  refine ⟨_, _, hset₁, hkey, hset₂, ?_, ?_, ?_⟩
  · refine hfilling₂.since.perm ?_
    rw [List.map_append, List.append_assoc, List.nil_append, List.singleton_append]
    exact List.perm_middle.symm
  · rw [hfilling₂.slots, List.map_append, List.append_assoc]
    rfl
  · intro e he
    rcases List.mem_append.mp he with he | he
    · exact hfilling₂.values e he
    · obtain rfl := List.mem_singleton.mp he
      exact ⟨hkeeps.interned hinterned, (hkeeps.key key hinterned).trans hkey, hvalue⟩

end Filling

theorem createMetadata_key {key : Buffer} {value : JsValue} {entry : Buffer × Buffer}
    (hentry : createMetadata core key value = some entry) : entry.1 = key := by
  unfold createMetadata at hentry
  split at hentry
  · split at hentry
    · rw [← Option.some.inj hentry]
    · cases hentry
  · split at hentry
    · rw [← Option.some.inj hentry]
    · cases hentry

/-- The inner loop fills the array with the values of a key, up to one of a wrong type. -/
theorem fillValues_filling (hapi : api.Documented) (core : Core) {metadata key : Nat}
    {name : Buffer} {elements : List Element} {rest after : List Slot} (values : List JsValue)
    (hfilling : Filling api h₀ h metadata elements (rest ++ after) [])
    (hlength : rest.length = values.length) (hinterned : key ∈ h.interned)
    (hkey : h.read api (.slice key) = some name) :
    ∃ filled elements' rest' h',
      fillValues core api metadata key values elements.length h =
        some (filled, elements'.length, h') ∧
      Filling api h₀ h' metadata elements' rest' [] ∧
      match createValues core name values with
      | some entries => filled = true ∧ rest' = after ∧
          elements'.map Element.entry = elements.map Element.entry ++ entries
      | none => filled = false := by
  induction values generalizing h elements rest with
  | nil =>
      obtain rfl := List.eq_nil_of_length_eq_zero hlength
      exact ⟨true, elements, after, h, rfl, hfilling, rfl, rfl, (List.append_nil _).symm⟩
  | cons value values ih =>
      obtain ⟨slot, rest, rfl⟩ := List.exists_cons_of_length_eq_add_one hlength
      rw [fillValues]
      cases hentry : createMetadata core name value with
      | none =>
          obtain ⟨memory, hset, hfilling'⟩ :=
            hfilling.setSlot fun slot => { slot with key := some key }
          have hkey' : Heap.read api { h with memory } (.slice key) = some name := hkey
          refine ⟨false, elements, _, _, ?_, hfilling', ?_⟩
          · simp only [hset, hkey', hentry, Option.bind_eq_bind, Option.bind_some]
            rfl
          · simp [createValues, hentry]
      | some entry =>
          obtain ⟨name', bytes⟩ := entry
          obtain rfl : name' = name := createMetadata_key hentry
          obtain ⟨h₁, h₂, hset₁, hkey₁, hset₂, hfilling₂⟩ :=
            hfilling.push hapi hinterned hkey bytes
          have hreads := hfilling₂.values _ (List.mem_append_right _ List.mem_cons_self)
          obtain ⟨filled, elements', rest', h', hfill, hfilling', hresult⟩ :=
            ih hfilling₂ (Nat.succ.inj hlength) hreads.interned hreads.key
          refine ⟨filled, elements', rest', h', ?_, hfilling', ?_⟩
          · rw [List.length_append, List.length_singleton] at hfill
            simp only [hset₁, hkey₁, hentry, hset₂, Option.bind_eq_bind, Option.bind_some]
            exact hfill
          · cases hrest : createValues core name' values with
            | none =>
                rw [hrest] at hresult
                simpa [createValues, hentry, hrest] using hresult
            | some entries =>
                rw [hrest] at hresult
                simpa [createValues, hentry, hrest, Element.entry] using hresult

/-- The key of a property is interned, and the slice that it is made of is given back. -/
theorem internKey (hapi : api.Documented) {metadata : Nat} {elements : List Element}
    {rest : List Slot} (hfilling : Filling api h₀ h metadata elements rest []) (name : Buffer) :
    ∃ key h₁ h₂, (h.newSlice api name).2.intern api (h.newSlice api name).1 = some (key, h₁) ∧
      h₁.unref api (h.newSlice api name).1 = some h₂ ∧
      Filling api h₀ h₂ metadata elements rest [] ∧ key ∈ h₂.interned ∧
      h₂.read api (.slice key) = some name := by
  obtain ⟨hsince, hkeeps, hname⟩ := Heap.Since.newSlice hapi hfilling.since name
  obtain ⟨key, h₁, hintern, hsince₁, hkeeps₁, hmem, hkey⟩ :=
    Heap.Since.internSlice hapi hsince hname
  obtain ⟨h₂, hunref, hsince₂, hkeeps₂⟩ := Heap.Since.unref hapi hsince₁
  have hkept := (hkeeps.trans (hkeeps₁.mono (List.subset_cons_self _ _))).trans hkeeps₂
  exact ⟨key, h₁, h₂, hintern, hunref, hfilling.keeps hsince₂ hkept, hkeeps₂.interned hmem,
    (hkeeps₂.key key hmem).trans hkey⟩

/-- The second loop fills the array with the values of all keys, up to one of a wrong type. -/
theorem fillEntries_filling (hapi : api.Documented) (core : Core) {metadata : Nat}
    {elements : List Element} {rest : List Slot} {properties : List (String × JsValue)}
    {arrays : List (String × List JsValue)} (harrays : arrayProperties properties = some arrays)
    (hfilling : Filling api h₀ h metadata elements rest [])
    (hlength : rest.length = valueCount arrays) :
    ∃ filled elements' rest' h',
      fillEntries core api metadata properties elements.length h =
        some (filled, elements'.length, h') ∧
      Filling api h₀ h' metadata elements' rest' [] ∧
      match createEntries core arrays with
      | some entries => filled = true ∧
          elements'.map Element.entry = elements.map Element.entry ++ entries
      | none => filled = false := by
  induction properties generalizing h elements rest arrays with
  | nil =>
      obtain rfl := Option.some.inj harrays
      exact ⟨true, elements, rest, h, rfl, hfilling, rfl, (List.append_nil _).symm⟩
  | cons e properties ih =>
      obtain ⟨key, v⟩ := e
      cases v with
      | array values =>
          obtain ⟨arrays, hrest, rfl⟩ : ∃ arrays', arrayProperties properties = some arrays' ∧
              (key, values) :: arrays' = arrays := by
            simpa [arrayProperties, Option.bind_eq_some_iff] using harrays
          obtain ⟨interned, h₁, h₂, hintern, hunref, hfilling₂, hmem, hkey⟩ :=
            internKey hapi hfilling (createSliceFromString key)
          have hsplit : rest = rest.take values.length ++ rest.drop values.length :=
            (List.take_append_drop _ _).symm
          have hcount : rest.length = values.length + valueCount arrays := by
            simpa [valueCount] using hlength
          have htake : (rest.take values.length).length = values.length := by
            rw [List.length_take, hcount]
            omega
          obtain ⟨filled, elements₃, rest₃, h₃, hfill, hfilling₃, hresult⟩ :=
            fillValues_filling hapi core values (hsplit ▸ hfilling₂) htake hmem hkey
          rw [fillEntries]
          simp only [hintern, hunref, hfill, elementsOf, Option.bind_eq_bind, Option.bind_some]
          cases hvalues : createValues core (createSliceFromString key) values with
          | none =>
              rw [hvalues] at hresult
              obtain rfl : filled = false := hresult
              exact ⟨false, elements₃, rest₃, h₃, rfl, hfilling₃, by simp [createEntries, hvalues]⟩
          | some first =>
              rw [hvalues] at hresult
              obtain ⟨rfl, rfl, hfirst⟩ := hresult
              obtain ⟨filled, elements₄, rest₄, h₄, hloop, hfilling₄, hresult⟩ :=
                ih hrest hfilling₃ (by rw [List.length_drop, hcount, Nat.add_sub_cancel_left])
              refine ⟨filled, elements₄, rest₄, h₄, hloop, hfilling₄, ?_⟩
              cases hrest : createEntries core arrays with
              | none =>
                  rw [hrest] at hresult
                  simpa [createEntries, hvalues, hrest] using hresult
              | some entries =>
                  rw [hrest] at hresult
                  simpa [createEntries, hvalues, hrest, hfirst] using hresult
      | _ => cases harrays

/-- The array holds what has been allocated and taken, whether it has been filled or not. -/
theorem createMetadataArray_since (hapi : api.Documented) (core : Core) (metadata : JsValue)
    (hcounted : h.Counted api) :
    ∃ created array entries held h',
      createMetadataArray core api metadata h = some (created, array, h') ∧
      Heap.Since api h h' held ∧ array.Holds api h' entries held ∧
      NativeCore.createMetadataArray core metadata = if created then some entries else none := by
  have hcount := countEntries_eq metadata.ownProperties {}
  unfold createMetadataArray NativeCore.createMetadataArray
  cases harrays : arrayProperties metadata.ownProperties with
  | none =>
      rw [harrays] at hcount
      rcases hentries : countEntries {} metadata.ownProperties with ⟨counted, array⟩
      obtain rfl : counted = false := by simpa [hentries] using hcount
      exact ⟨false, _, [], [], h, rfl, .refl hcounted, .null, rfl⟩
  | some arrays =>
      rw [harrays] at hcount
      have hcounted' : countEntries {} metadata.ownProperties =
          (true, { capacity := valueCount arrays }) := by
        simpa using hcount
      obtain ⟨hsince, -⟩ := (Heap.Since.refl hcounted).alloc
        (.metadata (List.replicate (valueCount arrays) ({} : Slot)))
      have hfilling : Filling api h (h.alloc (.metadata (List.replicate (valueCount arrays) {}))).2
          (h.alloc (.metadata (List.replicate (valueCount arrays) ({} : Slot)))).1 []
          (List.replicate (valueCount arrays) {}) [] :=
        ⟨hsince, h.memory.alloc_block_self _, List.forall_mem_nil _⟩
      obtain ⟨filled, elements, rest, h', hfill, hfilling', hresult⟩ :=
        fillEntries_filling hapi core harrays hfilling List.length_replicate
      refine ⟨filled, ⟨some _, elements.length, valueCount arrays⟩, elements.map Element.entry,
        _, h', ?_, hfilling'.since, .filled hfilling'.slots hfilling'.values, ?_⟩
      · rw [List.length_nil] at hfill
        simp only [hcounted', hfill, Option.bind_eq_bind, Option.bind_some]
        rfl
      · cases hentries : createEntries core arrays with
        | none =>
            rw [hentries] at hresult
            obtain rfl : filled = false := hresult
            simp [hentries]
        | some entries =>
            rw [hentries] at hresult
            obtain ⟨rfl, hentries'⟩ := hresult
            simpa [hentries] using hentries'.symm

/-! ### `ParseOp` -/

/-- The byte buffer is all that is left of making it. -/
theorem bufferToByteBuffer_since (hapi : api.Documented) (hcounted : h.Counted api)
    (bytes : Buffer) :
    ∃ message h', bufferToByteBuffer api h bytes = some (message, h') ∧
      Heap.Since api h h' [.handle (.byteBuffer message)] ∧
      h'.read api (.byteBuffer message) = some bytes := by
  obtain ⟨hsince₁, -, hslice⟩ := Heap.Since.newSlice hapi (.refl hcounted) bytes
  obtain ⟨message, h₂, hcreate, hsince₂, -, hmessage⟩ :=
    Heap.Since.createByteBuffer hapi hsince₁ hslice
  obtain ⟨h', hunref, hsince', hkeeps'⟩ :=
    Heap.Since.unref hapi (hsince₂.perm (List.Perm.swap ..))
  refine ⟨message, h', ?_, hsince', (hkeeps'.read _ List.mem_cons_self).trans hmessage⟩
  simp only [bufferToByteBuffer, hcreate, hunref, Option.bind_eq_bind, Option.bind_some]
  rfl

theorem parseOp_sendStatus (value : JsValue) :
    NativeCore.parseOp core .sendStatusFromServer value =
      (statusMembers value).bind fun (metadata, code, details) =>
        (NativeCore.createMetadataArray core metadata).map fun entries =>
          .sendStatusFromServer ⟨entries, code, createSliceFromString details⟩ := by
  rw [NativeCore.parseOp, SendServerStatusOp.parseOp, statusMembers]
  cases hvalue : value.isObject with
  | false => rfl
  | true =>
      cases hmetadata : (value.get "metadata").isObject with
      | false => simp [hmetadata]
      | true =>
          cases (value.get "code").uint32? with
          | none => simp [hmetadata]
          | some code =>
              cases (value.get "details").string? with
              | none => simp [hmetadata]
              | some details =>
                  cases hentries : NativeCore.createMetadataArray core (value.get "metadata") <;>
                    simp [hmetadata, hentries]

/-- What comes of `ParseOp`: a complete operation, or one that is refused. Either holds all that
has been allocated and taken. -/
def Parsed (api : Slices κ ι) (h : Heap κ Block) (expected : Option CoreOp) (parsed : Bool)
    (op : Op) (h' : Heap κ Block) : Prop :=
  ∃ result held, Heap.Since api h h' held ∧ op.Holds api h' result held ∧
    (parsed = true ∧ result = expected ∧ expected ≠ none ∨ parsed = false ∧ expected = none)

theorem parseOp_parsed (hapi : api.Documented) (core : Core) (type : OpType) (value : JsValue)
    (hcounted : h.Counted api) :
    ∃ parsed op h', parseOp core api h type value = some (parsed, op, h') ∧
      Parsed api h (NativeCore.parseOp core type value) parsed op h' := by
  have hrefl : Heap.Since api h h [] := .refl hcounted
  cases type with
  | sendInitialMetadata =>
      rw [parseOp, NativeCore.parseOp, SendMetadataOp.parseOp]
      cases value.isObject with
      | false => exact ⟨false, _, h, rfl, _, [], hrefl, .sendMetadata .null, .inr ⟨rfl, rfl⟩⟩
      | true =>
          obtain ⟨created, array, entries, held, h', hcreate, hsince, hholds, hexpected⟩ :=
            createMetadataArray_since hapi core value hcounted
          refine ⟨created, .sendMetadata array, h', ?_, _, held, hsince, .sendMetadata hholds, ?_⟩
          · simp [hcreate]
          · cases created <;> simp [hexpected]
  | sendMessage =>
      cases value with
      | buffer bytes own =>
          obtain ⟨message, h', hcreate, hsince, hmessage⟩ :=
            bufferToByteBuffer_since hapi hcounted bytes
          refine ⟨true, .sendMessage (some message) _, h', ?_, _, _, hsince,
            .sendMessage hmessage, .inl ⟨rfl, rfl, Option.some_ne_none _⟩⟩
          simp only [parseOp, hcreate, Option.bind_eq_bind, Option.bind_some]
          rfl
      | _ => exact ⟨false, _, h, rfl, _, [], hrefl, .noMessage, .inr ⟨rfl, rfl⟩⟩
  | sendStatusFromServer =>
      rw [parseOp, parseOp_sendStatus]
      cases hmembers : statusMembers value with
      | none => exact ⟨false, _, h, rfl, _, [], hrefl, .noDetails .null, .inr ⟨rfl, rfl⟩⟩
      | some members =>
          obtain ⟨metadata, code, details⟩ := members
          obtain ⟨created, array, entries, held, h₁, hcreate, hsince, hholds, hexpected⟩ :=
            createMetadataArray_since hapi core metadata hcounted
          simp only [hcreate, hexpected, Option.bind_eq_bind, Option.bind_some]
          cases created with
          | false =>
              exact ⟨false, _, h₁, rfl, _, held, hsince, .noDetails hholds, .inr ⟨rfl, rfl⟩⟩
          | true =>
              obtain ⟨hsince₂, hkeeps₂, hdetails⟩ :=
                Heap.Since.newSlice hapi hsince (createSliceFromString details)
              exact ⟨true, _, _, rfl, _, _, hsince₂, .sendStatus hdetails (hholds.mono hkeeps₂),
                .inl ⟨rfl, rfl, Option.some_ne_none _⟩⟩
  | sendCloseFromClient | recvInitialMetadata | recvMessage | recvStatusOnClient
  | recvCloseOnServer =>
      exact ⟨true, _, h, rfl, _, [], hrefl, .plain, .inl ⟨rfl, rfl, Option.some_ne_none _⟩⟩

/-! ### Batches -/

/-- Complete operations with what they hold -/
inductive OpsHold (api : Slices κ ι) (h : Heap κ Block) :
    List Op → List CoreOp → List Resource → Prop
  | nil : OpsHold api h [] [] []
  | cons {op : Op} {ops : List Op} {coreOp : CoreOp} {coreOps : List CoreOp}
      {held others : List Resource} (hop : op.Holds api h (some coreOp) held)
      (hops : OpsHold api h ops coreOps others) :
      OpsHold api h (op :: ops) (coreOp :: coreOps) (held ++ others)

variable {ops : List Op} {coreOps : List CoreOp}

theorem OpsHold.mono (hops : OpsHold api h ops coreOps held) (hkeeps : Heap.Keeps api h h' held) :
    OpsHold api h' ops coreOps held := by
  induction hops with
  | nil => exact .nil
  | cons hop _ ih => exact .cons (hop.mono hkeeps.left) (ih hkeeps.right)

theorem OpsHold.append (hops : OpsHold api h ops coreOps held) {op : Op} {coreOp : CoreOp}
    (hop : op.Holds api h (some coreOp) others) :
    OpsHold api h (ops ++ [op]) (coreOps ++ [coreOp]) (held ++ others) := by
  induction hops with
  | nil =>
      have hone := OpsHold.cons hop .nil
      rwa [List.append_nil] at hone
  | cons hfirst _ ih =>
      rw [List.append_assoc]
      exact .cons hfirst ih

/-- All operations are destroyed, one after the other. -/
theorem destroyOps_since (hapi : api.Documented) (hsince : Heap.Since api h₀ h (held ++ others))
    (hops : OpsHold api h ops coreOps held) :
    ∃ h', destroyOps api ops h = some h' ∧ Heap.Since api h₀ h' others ∧
      Heap.Keeps api h h' others := by
  induction ops generalizing h coreOps held with
  | nil =>
      cases hops
      exact ⟨h, rfl, hsince, .refl h others⟩
  | cons op ops ih =>
      cases hops with
      | cons hop hops =>
          rw [List.append_assoc] at hsince
          obtain ⟨h₁, hdestroy, hsince₁, hkeeps₁⟩ := destroyOp_since hapi hsince hop
          obtain ⟨h', hloop, hsince', hkeeps'⟩ := ih hsince₁ (hops.mono hkeeps₁.left)
          refine ⟨h', ?_, hsince', hkeeps₁.right.trans hkeeps'⟩
          simp only [destroyOps, hdestroy, Option.bind_eq_bind, Option.bind_some]
          exact hloop

/-- The loop either ends with complete operations, or leaves nothing behind. -/
theorem parseOps_since (hapi : api.Documented) (core : Core) (batch : Batch)
    (hsince : Heap.Since api h₀ h held) (hops : OpsHold api h ops coreOps held) :
    ∃ h', match NativeCore.startBatch core batch with
      | .error e => parseOps core api batch ops h = some (.error e, h') ∧ Heap.Since api h₀ h' []
      | .ok more => ∃ ops' held', parseOps core api batch ops h = some (.ok ops', h') ∧
          Heap.Since api h₀ h' held' ∧ OpsHold api h' ops' (coreOps ++ more) held' := by
  induction batch generalizing h ops coreOps held with
  | nil => exact ⟨h, ops, held, rfl, hsince, by rwa [List.append_nil]⟩
  | cons e batch ih =>
      obtain ⟨type, value⟩ := e
      obtain ⟨parsed, op, h₁, hparse, result, more, hsince₁, hop, hparsed⟩ :=
        parseOp_parsed hapi core type value hsince.counted'
      have hsince₁' := hsince.trans hsince₁
      have hops₁ := hops.mono (hsince.keeps hsince₁)
      rw [parseOps, NativeCore.startBatch]
      simp only [hparse, Option.bind_eq_bind, Option.bind_some]
      rcases hparsed with ⟨rfl, rfl, hne⟩ | ⟨rfl, hnone⟩
      · obtain ⟨coreOp, hcoreOp⟩ := Option.ne_none_iff_exists'.mp hne
        rw [hcoreOp] at hop
        obtain ⟨h', hresult⟩ := ih (hsince₁'.perm List.perm_append_comm) (hops₁.append hop)
        refine ⟨h', ?_⟩
        simp only [hcoreOp, if_true]
        cases hbatch : NativeCore.startBatch core batch with
        | error e =>
            rw [hbatch] at hresult
            exact hresult
        | ok rest =>
            rw [hbatch] at hresult
            obtain ⟨ops', held', hloop, hsince', hops'⟩ := hresult
            rw [List.append_assoc] at hops'
            exact ⟨ops', held', hloop, hsince', hops'⟩
      · obtain ⟨h₂, hdestroy, hsince₂, hkeeps₂⟩ := destroyOp_since hapi hsince₁' hop
        rw [← List.append_nil held] at hsince₂
        obtain ⟨h₃, hdestroyOps, hsince₃, -⟩ := destroyOps_since hapi hsince₂ (hops₁.mono hkeeps₂)
        refine ⟨h₃, ?_⟩
        simp only [hnone, hdestroy, hdestroyOps, Option.bind_some]
        exact ⟨rfl, hsince₃⟩

/-- A tag with complete operations, and what it holds -/
inductive TagHolds (api : Slices κ ι) (h : Heap κ Block) (tag : Nat) :
    List CoreOp → List Resource → Prop
  | intro {ops : List Op} {coreOps : List CoreOp} {held : List Resource}
      (htag : h.memory.block tag = some (.tag ops)) (hops : OpsHold api h ops coreOps held) :
      TagHolds api h tag coreOps (held ++ [.block tag])

variable {tag : Nat}

theorem TagHolds.mono (htag : TagHolds api h tag coreOps held)
    (hkeeps : Heap.Keeps api h h' held) : TagHolds api h' tag coreOps held := by
  cases htag with
  | intro htag hops =>
      have hblock := hkeeps.block tag (List.mem_append_right _ List.mem_cons_self)
      exact .intro (hblock.trans htag) (hops.mono hkeeps.left)

/-- A batch is refused and leaves nothing behind, or its tag holds all its operations. -/
theorem startBatch_since (hapi : api.Documented) (core : Core) (batch : Batch)
    (hcounted : h.Counted api) :
    ∃ h', match NativeCore.startBatch core batch with
      | .error e => startBatch core api batch h = some (.error e, h') ∧ Heap.Since api h h' []
      | .ok coreOps => ∃ tag held, startBatch core api batch h = some (.ok tag, h') ∧
          Heap.Since api h h' held ∧ TagHolds api h' tag coreOps held := by
  obtain ⟨h₁, hresult⟩ := parseOps_since hapi core batch (.refl hcounted) .nil
  unfold startBatch
  cases hbatch : NativeCore.startBatch core batch with
  | error e =>
      rw [hbatch] at hresult
      exact ⟨h₁, by simp [hresult.1], hresult.2⟩
  | ok coreOps =>
      rw [hbatch] at hresult
      obtain ⟨ops, held, hparse, hsince, hops⟩ := hresult
      obtain ⟨hsince', hkeeps⟩ := hsince.alloc (.tag ops)
      refine ⟨(h₁.alloc (.tag ops)).2, (h₁.alloc (.tag ops)).1, held ++ [.block _],
        by simp [hparse], hsince'.perm (List.perm_append_singleton _ held).symm, ?_⟩
      exact .intro (h₁.memory.alloc_block_self _) (hops.mono hkeeps)

/-- When a tag is destroyed, everything that it holds goes. -/
theorem destroyTag_since (hapi : api.Documented) (hsince : Heap.Since api h₀ h (held ++ others))
    (htag : TagHolds api h tag coreOps held) :
    ∃ h', destroyTag api h tag = some h' ∧ Heap.Since api h₀ h' others ∧
      Heap.Keeps api h h' others := by
  cases htag with
  | intro htag hops =>
      rw [List.append_assoc] at hsince
      obtain ⟨h₁, hdestroy, hsince₁, hkeeps₁⟩ := destroyOps_since hapi hsince hops
      obtain ⟨h', hfree, hsince', hkeeps'⟩ := hsince₁.free
      refine ⟨h', ?_, hsince', (hkeeps₁.mono (List.subset_cons_self _ _)).trans hkeeps'⟩
      simp only [destroyTag, htag, hdestroy, Option.bind_eq_bind, Option.bind_some]
      exact hfree

/-! ### What is held can be read -/

theorem Element.Reads.readSlot {e : Element} (he : e.Reads api h) :
    readSlot api h e.slot = some e.entry := by
  simp only [BatchMemory.readSlot, Element.slot, Option.bind_eq_bind, Option.bind_some, he.key,
    he.value]
  rfl

/-- The elements that count are read one after the other. -/
theorem mapM_readSlot {metadata : Nat} (before : List Slot) {rest : List Slot}
    {elements : List Element} (hslots : h.memory.block metadata =
      some (.metadata (before ++ (elements.map Element.slot ++ rest))))
    (hvalues : ∀ e ∈ elements, e.Reads api h) :
    ((List.range' before.length elements.length).mapM fun i => do
      readSlot api h (← getSlot h metadata i)) = some (elements.map Element.entry) := by
  induction elements generalizing before with
  | nil => rfl
  | cons e elements ih =>
      obtain ⟨hvalue, hvalues⟩ := List.forall_mem_cons.mp hvalues
      have hslot : getSlot h metadata before.length = some e.slot :=
        Memory.getElement_eq .metadata Block.slots?_metadata hslots
      have hrest := ih (before ++ [e.slot]) (by rw [hslots, List.append_assoc]; rfl) hvalues
      rw [List.length_append, List.length_singleton] at hrest
      rw [List.length_cons, List.range'_succ, List.mapM_cons, hrest]
      simp [hslot, hvalue.readSlot]

theorem GrpcArray.Holds.read {array : GrpcArray} {entries : MetadataArray}
    (harray : array.Holds api h entries held) : readArray api h array = some entries := by
  cases harray with
  | null => rfl
  | filled hslots hvalues =>
      have hread := mapM_readSlot [] hslots hvalues
      rw [List.length_nil, ← List.range_eq_range'] at hread
      exact hread

theorem Op.Holds.read {op : Op} {coreOp : CoreOp} (hop : op.Holds api h (some coreOp) held) :
    readOp api h op = some coreOp := by
  cases hop with
  | sendMetadata harray => simp [readOp, harray.read]
  | sendMessage hmessage => simp [readOp, hmessage]
  | sendStatus hdetails harray => simp [readOp, harray.read, hdetails]
  | plain => rfl

theorem TagHolds.read (htag : TagHolds api h tag coreOps held) :
    readTag api h tag = some coreOps := by
  cases htag with
  | intro htag hops =>
      simp only [readTag, htag]
      clear htag
      induction hops with
      | nil => rfl
      | cons hop _ ih => simp [List.mapM_cons, hop.read, ih]

/-! ### Any number of batches -/

/-- The heap, if nothing has gone wrong, and the batches that have been handed to the core, with
their tags -/
structure State (κ : Type) where
  heap : Option (Heap κ Block)
  outstanding : List (Nat × Batch) := []
  /-- The core has not taken them. -/
  refused : List (Nat × Batch) := []

/-- What happens to the heap -/
inductive Act (ι : Type)
  /-- `startBatch` on a call that has not been released -/
  | startBatch (batch : Batch) (accepted : Bool)
  /-- The callback of a batch has been called. -/
  | complete (i : Nat)
  | goOn (e : ι)

namespace State

variable (s : State κ)

/-- `Call::StartBatch`. An exception is thrown for a batch that the core refuses. -/
def startBatch (core : Core) (api : Slices κ ι) (batch : Batch) (accepted : Bool) : State κ :=
  match s.heap.bind (BatchMemory.startBatch core api batch) with
  | none => { s with heap := none }
  | some (.error _, h) => { s with heap := some h }
  | some (.ok tag, h) =>
      if accepted then { s with heap := some h, outstanding := s.outstanding ++ [(tag, batch)] }
      else { s with heap := some h, refused := s.refused ++ [(tag, batch)] }

/-- The tag of the `i`-th batch is destroyed. -/
def complete (api : Slices κ ι) (i tag : Nat) : State κ :=
  { s with
    heap := s.heap.bind fun h => destroyTag api h tag
    outstanding := s.outstanding.eraseIdx i }

/-- The core uses what it has been given. -/
def goOn (api : Slices κ ι) (e : ι) : State κ :=
  { s with heap := s.heap.map fun h => { h with core := api.goOn h.core e } }

end State

def step (core : Core) (api : Slices κ ι) (s : State κ) : Act ι → Option (State κ)
  | .startBatch batch accepted => some (s.startBatch core api batch accepted)
  | .complete i => s.outstanding[i]?.map fun e => s.complete api i e.1
  | .goOn e => some (s.goOn api e)

/-- The tag of a batch has all its operations, and holds something. -/
def HeldBy (core : Core) (api : Slices κ ι) (h : Heap κ Block) (e : Nat × Batch)
    (held : List Resource) : Prop :=
  ∃ coreOps, NativeCore.startBatch core e.2 = .ok coreOps ∧ TagHolds api h e.1 coreOps held

/-- What there is, besides what `h₀` has, is held by the tags of some batches, each thing by one of
them. -/
inductive Account (core : Core) (api : Slices κ ι) (h₀ h : Heap κ Block)
    (tags : List (Nat × Batch)) : Prop
  | intro (held : List (List Resource)) (hsince : Heap.Since api h₀ h held.flatten)
      (hheld : List.Forall₂ (HeldBy core api h) tags held)

theorem heldBy_mono {tags : List (Nat × Batch)} {held : List (List Resource)}
    (hheld : List.Forall₂ (HeldBy core api h) tags held)
    (hkeeps : Heap.Keeps api h h' held.flatten) :
    List.Forall₂ (HeldBy core api h') tags held := by
  induction hheld with
  | nil => exact .nil
  | cons hfirst _ ih =>
      obtain ⟨coreOps, hbatch, htag⟩ := hfirst
      rw [List.flatten_cons] at hkeeps
      exact .cons ⟨coreOps, hbatch, htag.mono hkeeps.left⟩ (ih hkeeps.right)

namespace Account

variable {tags : List (Nat × Batch)}

theorem initial (core : Core) (hcounted : h.Counted api) : Account core api h h [] :=
  .intro [] (.refl hcounted) .nil

theorem perm {tags' : List (Nat × Batch)} (haccount : Account core api h₀ h tags)
    (hperm : tags.Perm tags') : Account core api h₀ h tags' := by
  obtain ⟨held, hsince, hheld⟩ := haccount
  obtain ⟨held', hheld', hperm'⟩ := List.perm_comp_forall₂ hperm.symm hheld
  exact .intro held' (hsince.perm hperm'.symm.flatten) hheld'

/-- A batch is started. -/
theorem start (hapi : api.Documented) (haccount : Account core api h₀ h tags) (batch : Batch) :
    ∃ h', match NativeCore.startBatch core batch with
      | .error e => startBatch core api batch h = some (.error e, h') ∧
          Account core api h₀ h' tags
      | .ok _ => ∃ tag, startBatch core api batch h = some (.ok tag, h') ∧
          Account core api h₀ h' ((tag, batch) :: tags) := by
  obtain ⟨held, hsince, hheld⟩ := haccount
  obtain ⟨h', hresult⟩ := startBatch_since hapi core batch hsince.counted'
  refine ⟨h', ?_⟩
  cases hbatch : NativeCore.startBatch core batch with
  | error e =>
      rw [hbatch] at hresult
      obtain ⟨hstart, hsince'⟩ := hresult
      exact ⟨hstart, .intro held (hsince.trans hsince') (heldBy_mono hheld (hsince.keeps hsince'))⟩
  | ok coreOps =>
      rw [hbatch] at hresult
      obtain ⟨tag, more, hstart, hsince', htag⟩ := hresult
      refine ⟨tag, hstart, .intro (more :: held) (hsince.trans hsince') (.cons ?_ ?_)⟩
      · exact ⟨coreOps, hbatch, htag⟩
      · exact heldBy_mono hheld (hsince.keeps hsince')

/-- A batch is completed. -/
theorem complete (hapi : api.Documented) {e : Nat × Batch}
    (haccount : Account core api h₀ h (e :: tags)) :
    ∃ h', destroyTag api h e.1 = some h' ∧ Account core api h₀ h' tags := by
  obtain ⟨held, hsince, hheld⟩ := haccount
  cases hheld with
  | @cons _ more _ held hfirst hheld =>
      obtain ⟨coreOps, -, htag⟩ := hfirst
      obtain ⟨h', hdestroy, hsince', hkeeps'⟩ := destroyTag_since hapi hsince htag
      exact ⟨h', hdestroy, .intro held hsince' (heldBy_mono hheld hkeeps')⟩

theorem goOn (hapi : api.Documented) (haccount : Account core api h₀ h tags) (e : ι) :
    Account core api h₀ { h with core := api.goOn h.core e } tags := by
  obtain ⟨held, hsince, hheld⟩ := haccount
  obtain ⟨hsince', hkeeps'⟩ := Heap.Since.goOn hapi hsince e
  exact .intro held hsince' (heldBy_mono hheld hkeeps')

/-- The core can read all operations of each batch. -/
theorem read (haccount : Account core api h₀ h tags) {e : Nat × Batch} (he : e ∈ tags) :
    ∃ coreOps, NativeCore.startBatch core e.2 = .ok coreOps ∧ readTag api h e.1 = some coreOps := by
  obtain ⟨held, -, hheld⟩ := haccount
  induction hheld with
  | nil => cases he
  | cons hfirst _ ih =>
      rcases List.mem_cons.mp he with rfl | he
      · obtain ⟨coreOps, hbatch, htag⟩ := hfirst
        exact ⟨coreOps, hbatch, htag.read⟩
      · exact ih he

/-- When nothing is held, only the references to the keys that have been interned are left. -/
theorem asBefore (haccount : Account core api h₀ h []) (hinterned : h₀.interned = []) :
    h.memory.block = h₀.memory.block ∧
      ∀ x, h.count api x = h₀.count api x + (h.interned.map Handle.slice).count x := by
  obtain ⟨held, hsince, hheld⟩ := haccount
  cases hheld
  refine ⟨hsince.memory.block_eq, fun x => ?_⟩
  obtain ⟨keys, hkeys, hreferences⟩ := hsince.references
  rw [hkeys, hinterned]
  exact hreferences.count x

end Account

/-- The heap is there, and all of it is accounted for. -/
def Accounted (core : Core) (api : Slices κ ι) (h₀ : Heap κ Block) (s : State κ) : Prop :=
  ∃ h, s.heap = some h ∧ Account core api h₀ h (s.outstanding ++ s.refused)

theorem Accounted.step (hapi : api.Documented) {s s' : State κ} {a : Act ι}
    (haccounted : Accounted core api h₀ s) (hstep : step core api s a = some s') :
    Accounted core api h₀ s' := by
  obtain ⟨h, hheap, haccount⟩ := haccounted
  cases a with
  | startBatch batch accepted =>
      obtain rfl := Option.some.inj hstep
      obtain ⟨h', hresult⟩ := haccount.start hapi batch
      unfold State.startBatch
      rw [hheap, Option.bind_some]
      cases hbatch : NativeCore.startBatch core batch with
      | error e =>
          rw [hbatch] at hresult
          rw [hresult.1]
          exact ⟨h', rfl, hresult.2⟩
      | ok coreOps =>
          rw [hbatch] at hresult
          obtain ⟨tag, hstart, haccount'⟩ := hresult
          rw [hstart]
          cases accepted with
          | false =>
              refine ⟨h', rfl, haccount'.perm ?_⟩
              show List.Perm _ (s.outstanding ++ (s.refused ++ [(tag, batch)]))
              rw [← List.append_assoc]
              exact (List.perm_append_singleton _ _).symm
          | true =>
              refine ⟨h', rfl, haccount'.perm ?_⟩
              show List.Perm _ (s.outstanding ++ [(tag, batch)] ++ s.refused)
              rw [List.append_assoc]
              exact List.perm_middle.symm
  | complete i =>
      obtain ⟨e, he, rfl⟩ := Option.map_eq_some_iff.mp hstep
      obtain ⟨hi, rfl⟩ := List.getElem?_eq_some_iff.mp he
      have hperm : (s.outstanding ++ s.refused).Perm
          (s.outstanding[i] :: (s.outstanding.eraseIdx i ++ s.refused)) :=
        (List.getElem_cons_eraseIdx_perm hi).symm.append_right s.refused
      obtain ⟨h', hdestroy, haccount'⟩ := (haccount.perm hperm).complete hapi
      refine ⟨h', ?_, haccount'⟩
      rw [State.complete, hheap, Option.bind_some]
      exact hdestroy
  | goOn e =>
      obtain rfl := Option.some.inj hstep
      exact ⟨_, congrArg (Option.map _) hheap, haccount.goOn hapi e⟩

/-- **The memory of batches.** Everything is accounted for, and the core can read the operations of
the batches. When all batches have completed, and the core has refused none, all that is left is one
reference to each key that has been interned. -/
structure Balanced (core : Core) (api : Slices κ ι) (h₀ h : Heap κ Block) (s : State κ) : Prop where
  account : Account core api h₀ h (s.outstanding ++ s.refused)
  read : ∀ e ∈ s.outstanding ++ s.refused, ∃ coreOps,
    NativeCore.startBatch core e.2 = .ok coreOps ∧ readTag api h e.1 = some coreOps
  asBefore : s.outstanding = [] → s.refused = [] → h.memory.block = h₀.memory.block ∧
    ∀ x, h.count api x = h₀.count api x + (h.interned.map Handle.slice).count x

/-- **The memory of batches is accounted for.** In every run, however batches are started, refused
and completed: nothing is used, freed or given back that is not there; what there is is held by the
batches that are with the core or have been refused by it, and the core can read their operations; a
batch with a wrong type in it leaves nothing behind but the keys that have been interned. When all
batches have completed, and the core has refused none, these are all that is left. -/
theorem always_accountedMemory (core : Core) (hapi : api.Documented) (m₀ : Memory Block) (k₀ : κ)
    (acts : List (Act ι)) :
    Runs.Always (step core api)
      (fun s => ∃ h, s.heap = some h ∧ Balanced core api { memory := m₀, core := k₀ } h s)
      { heap := some { memory := m₀, core := k₀ } } acts := by
  have hinitial : Accounted core api { memory := m₀, core := k₀ }
      { heap := some { memory := m₀, core := k₀ } } :=
    ⟨_, rfl, .initial core fun _ h => absurd h List.not_mem_nil⟩
  refine (Runs.always_of_invariant (fun _ _ _ h hstep => h.step hapi hstep) hinitial acts).mono ?_
  rintro s ⟨h, hheap, haccount⟩
  refine ⟨h, hheap, haccount, fun e he => haccount.read he, fun houtstanding hrefused => ?_⟩
  rw [houtstanding, hrefused] at haccount
  exact haccount.asBefore rfl

/-- A message is sent with some metadata, and a batch with a wrong type in it comes and goes. -/
def messageWithMetadata : List (Act Unit) :=
  [.startBatch [(.sendInitialMetadata, .object [("a", .array [.string "b"])]),
      (.sendMessage, .buffer [7] [])] true,
    .startBatch [(.sendMessage, .buffer [8] []), (.sendMessage, .null)] true, .goOn (), .complete 0]

theorem always_accountedMemory_message :
    Runs.Always (step Core.ascii SliceStore.api)
      (fun s => ∃ h, s.heap = some h ∧
        Balanced Core.ascii SliceStore.api { memory := .empty, core := .initial } h s)
      { heap := some { memory := .empty, core := .initial } } messageWithMetadata :=
  always_accountedMemory Core.ascii SliceStore.api_documented .empty .initial messageWithMetadata

example : ((Runs.exec (step Core.ascii SliceStore.api)
      { heap := some { memory := .empty, core := .initial } } messageWithMetadata).bind
      State.heap).map (fun h => h.interned.map fun a => h.read SliceStore.api (.slice a)) =
    some [some [97]] := by decide

end BatchMemory

end GrpcNode.NativeCore
