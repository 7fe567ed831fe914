import GrpcNode.NativeCore.Batch

/-!
# GrpcNode.NativeCore.MetadataArray

`CreateMetadataArray` with the memory that it writes to. A first pass over the properties adds
up the lengths of their arrays, `gpr_zalloc` gives that many slots, and a second pass fills
them.

`createMetadataArray` is what has been written at the end. `fillMetadataArray_eq` says that the
two agree, and that no object makes the second pass write behind the last slot.
-/

namespace GrpcNode.NativeCore

open GrpcNode.Js

/-- `grpc_metadata_array`. A slot of its memory is `none` until it is written. -/
structure GrpcMetadataArray where
  count : Nat := 0
  capacity : Nat := 0
  metadata : List (Option (Buffer × Buffer)) := []
  deriving DecidableEq

namespace GrpcMetadataArray

/-- The elements that `count` tells of. -/
def elements (array : GrpcMetadataArray) : MetadataArray :=
  (array.metadata.take array.count).filterMap id

/-- The slot at `count` is written, and counts from now on. -/
def push (array : GrpcMetadataArray) (entry : Buffer × Buffer) : GrpcMetadataArray :=
  { array with
    metadata := array.metadata.set array.count (some entry)
    count := array.count + 1 }

/-- After some of `capacity` slots are written, and `free` are left. -/
def filled (capacity : Nat) (written : MetadataArray) (free : Nat) : GrpcMetadataArray where
  count := written.length
  capacity := capacity
  metadata := written.map some ++ List.replicate free none

/-- As many entries as slots, and all of them written. -/
def full (written : MetadataArray) : GrpcMetadataArray := filled written.length written 0

theorem elements_full (written : MetadataArray) : (full written).elements = written := by
  have htake : (written.map some).take written.length = written.map some :=
    List.take_of_length_le (by rw [List.length_map])
  simp [elements, full, filled, htake, List.filterMap_map]

theorem count_filled_lt (capacity : Nat) (written : MetadataArray) (free : Nat) :
    (filled capacity written (free + 1)).count < (filled capacity written (free + 1)).metadata.length
    := by
  simp [filled]

theorem push_filled (capacity : Nat) (written : MetadataArray) (free : Nat)
    (entry : Buffer × Buffer) :
    (filled capacity written (free + 1)).push entry = filled capacity (written ++ [entry]) free := by
  simp [push, filled, List.replicate_succ]

end GrpcMetadataArray

/-! ### The two passes -/

/-- The first pass, which leaves at a value that is no array. -/
def countEntries (array : GrpcMetadataArray) :
    List (String × JsValue) → Bool × GrpcMetadataArray
  | [] => (true, array)
  | (_, .array values) :: properties =>
      countEntries { array with capacity := array.capacity + values.length } properties
  | _ :: _ => (false, array)

variable (core : Core)

/-- The inner loop of the second pass. The result is `none` where `array->metadata[array->count]`
is no slot. A slot whose value is refused does not count. -/
def fillValues (key : Buffer) :
    List JsValue → GrpcMetadataArray → Option (Bool × GrpcMetadataArray)
  | [], array => some (true, array)
  | value :: values, array =>
      if array.count < array.metadata.length then
        match createMetadata core key value with
        | some entry => fillValues key values (array.push entry)
        | none => some (false, array)
      else none

/-- `Local<Array>::Cast` -/
def elementsOf : JsValue → List JsValue
  | .array values => values
  | _ => []

/-- The second pass. -/
def fillEntries : List (String × JsValue) → GrpcMetadataArray → Option (Bool × GrpcMetadataArray)
  | [], array => some (true, array)
  | (key, values) :: properties, array =>
      match fillValues core (createSliceFromString key) (elementsOf values) array with
      | some (true, array) => fillEntries properties array
      | stopped => stopped

/-- `CreateMetadataArray`, of an array after `grpc_metadata_array_init` -/
def fillMetadataArray (metadata : JsValue) : Option (Bool × GrpcMetadataArray) :=
  match countEntries {} metadata.ownProperties with
  | (false, array) => some (false, array)
  | (true, array) =>
      fillEntries core metadata.ownProperties
        { array with metadata := List.replicate array.capacity none }

/-! ### They agree -/

/-- How many values there are. -/
def valueCount (properties : List (String × List JsValue)) : Nat :=
  (properties.map fun e => e.2.length).sum

theorem countEntries_eq (properties : List (String × JsValue)) (array : GrpcMetadataArray) :
    match arrayProperties properties with
    | some arrays => countEntries array properties =
        (true, { array with capacity := array.capacity + valueCount arrays })
    | none => (countEntries array properties).1 = false := by
  induction properties generalizing array with
  | nil => rfl
  | cons e properties ih =>
      obtain ⟨key, v⟩ := e
      cases v with
      | array values =>
          have hrest := ih { array with capacity := array.capacity + values.length }
          rw [arrayProperties, countEntries]
          cases harrays : arrayProperties properties with
          | some arrays =>
              rw [harrays] at hrest
              simp [hrest, valueCount, Nat.add_assoc]
          | none =>
              rw [harrays] at hrest
              exact hrest
      | _ => rfl

variable {core}

theorem length_createValues {key : Buffer} {values : List JsValue} {entries : MetadataArray}
    (h : createValues core key values = some entries) : entries.length = values.length := by
  induction values generalizing entries with
  | nil =>
      obtain rfl := Option.some.inj h
      rfl
  | cons value values ih =>
      simp only [createValues, Option.bind_eq_bind, Option.bind_eq_some_iff, Option.pure_def,
        Option.some.injEq] at h
      obtain ⟨entry, -, rest, hrest, rfl⟩ := h
      rw [List.length_cons, List.length_cons, ih hrest]

theorem length_createEntries {arrays : List (String × List JsValue)} {entries : MetadataArray}
    (h : createEntries core arrays = some entries) : entries.length = valueCount arrays := by
  induction arrays generalizing entries with
  | nil =>
      obtain rfl := Option.some.inj h
      rfl
  | cons e arrays ih =>
      obtain ⟨key, values⟩ := e
      simp only [createEntries, Option.bind_eq_bind, Option.bind_eq_some_iff, Option.pure_def,
        Option.some.injEq] at h
      obtain ⟨first, hfirst, rest, hrest, rfl⟩ := h
      simp [valueCount, length_createValues hfirst, ih hrest]

/-- There is a slot for every value of the key, if there are as many as values. -/
theorem fillValues_filled (core : Core) (key : Buffer) (values : List JsValue) (capacity : Nat)
    (written : MetadataArray) (free : Nat) :
    match createValues core key values with
    | some entries =>
        fillValues core key values (.filled capacity written (values.length + free)) =
          some (true, .filled capacity (written ++ entries) free)
    | none => ∃ array,
        fillValues core key values (.filled capacity written (values.length + free)) =
          some (false, array) := by
  induction values generalizing written with
  | nil => simp [createValues, fillValues]
  | cons value values ih =>
      have hfree : (value :: values).length + free = values.length + free + 1 :=
        Nat.add_right_comm _ _ _
      rw [hfree, fillValues, if_pos (GrpcMetadataArray.count_filled_lt _ _ _), createValues]
      cases hentry : createMetadata core key value with
      | none => exact ⟨_, rfl⟩
      | some entry =>
          have hnext := ih (written ++ [entry])
          dsimp only
          rw [GrpcMetadataArray.push_filled]
          cases hrest : createValues core key values with
          | none =>
              rw [hrest] at hnext
              exact hnext
          | some entries =>
              rw [hrest] at hnext
              simpa using hnext

theorem fillEntries_filled (core : Core) {properties : List (String × JsValue)}
    {arrays : List (String × List JsValue)} (harrays : arrayProperties properties = some arrays)
    (capacity : Nat) (written : MetadataArray) :
    match createEntries core arrays with
    | some entries =>
        fillEntries core properties (.filled capacity written (valueCount arrays)) =
          some (true, .filled capacity (written ++ entries) 0)
    | none => ∃ array,
        fillEntries core properties (.filled capacity written (valueCount arrays)) =
          some (false, array) := by
  induction properties generalizing arrays written with
  | nil =>
      obtain rfl := Option.some.inj harrays
      simp [createEntries, fillEntries, valueCount]
  | cons e properties ih =>
      obtain ⟨key, v⟩ := e
      cases v with
      | array values =>
          simp only [arrayProperties, Option.bind_eq_bind, Option.bind_eq_some_iff, Option.pure_def,
            Option.some.injEq] at harrays
          obtain ⟨rest, hrest, rfl⟩ := harrays
          have hfree : valueCount ((key, values) :: rest) = values.length + valueCount rest := by
            simp [valueCount]
          have hvalues := fillValues_filled core (createSliceFromString key) values
            capacity written (valueCount rest)
          rw [hfree, fillEntries, elementsOf, createEntries]
          cases hfirst : createValues core (createSliceFromString key) values with
          | none =>
              rw [hfirst] at hvalues
              obtain ⟨array, harray⟩ := hvalues
              exact ⟨array, by rw [harray]⟩
          | some first =>
              rw [hfirst] at hvalues
              have hnext := ih hrest (written ++ first)
              rw [hvalues]
              cases hlater : createEntries core rest with
              | none =>
                  rw [hlater] at hnext
                  exact hnext
              | some later =>
                  rw [hlater] at hnext
                  simpa using hnext
      | _ => exact absurd harrays (by simp [arrayProperties])

/-- **Two passes.** No object makes `CreateMetadataArray` write behind the slots that it has
asked for, and where it succeeds, it has written all of them. -/
theorem fillMetadataArray_eq (core : Core) (metadata : JsValue) :
    match createMetadataArray core metadata with
    | some entries => fillMetadataArray core metadata = some (true, .full entries)
    | none => ∃ array, fillMetadataArray core metadata = some (false, array) := by
  have hcount := countEntries_eq metadata.ownProperties {}
  unfold createMetadataArray fillMetadataArray
  cases harrays : arrayProperties metadata.ownProperties with
  | none =>
      rw [harrays] at hcount
      dsimp only at hcount
      cases hpass : countEntries {} metadata.ownProperties with
      | mk accepted array =>
          rw [hpass] at hcount
          obtain rfl : accepted = false := hcount
          exact ⟨array, rfl⟩
  | some arrays =>
      rw [harrays] at hcount
      have hfill := fillEntries_filled core harrays (valueCount arrays) []
      rw [hcount, Nat.zero_add]
      have hempty : GrpcMetadataArray.filled (valueCount arrays) [] (valueCount arrays) =
          { capacity := valueCount arrays, metadata := List.replicate (valueCount arrays) none } :=
        rfl
      rw [hempty] at hfill
      cases hentries : createEntries core arrays with
      | none =>
          rw [hentries] at hfill
          simpa [hentries] using hfill
      | some entries =>
          rw [hentries] at hfill
          simpa [hentries, GrpcMetadataArray.full, length_createEntries hentries] using hfill

theorem fillMetadataArray_of_eq_some {metadata : JsValue} {entries : MetadataArray}
    (h : createMetadataArray core metadata = some entries) :
    fillMetadataArray core metadata = some (true, .full entries) := by
  have heq := fillMetadataArray_eq core metadata
  rw [h] at heq
  exact heq

end GrpcNode.NativeCore
