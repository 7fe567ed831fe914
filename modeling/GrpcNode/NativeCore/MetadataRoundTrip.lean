import GrpcNode.NativeCore.MetadataAgreement
import GrpcNode.NativeCore.MetadataArray

/-!
# GrpcNode.NativeCore.MetadataRoundTrip

The way of a `Metadata` object through the addon: into a `grpc_metadata_array`, and out of it
again with `ParseMetadata`.

What has passed `validate` is ASCII, so that no slice of it is too short. And whatever calls
have been made, each own property is an array with a value (`Sound`), under a key that is not
`__proto__`. So the parser finds every key again, `constructor` included: what an object inherits
under that name is no array.
-/

namespace GrpcNode.NativeCore

open GrpcNode.Js
open GrpcNode.JsCore (MetadataObject MetadataValue PropertyValue)

/-! ### Histories -/

namespace MetadataHistory

variable {core : Core}

/-- A call of the class. -/
inductive Call
  | new
  | set (i : Nat) (key : String) (value : MetadataValue)
  | add (i : Nat) (key : String) (value : MetadataValue)
  | remove (i : Nat) (key : String)
  | clone (i : Nat)

/-- The `i`-th object after a call, which an exception leaves as it is. -/
def store (objects : List (Metadata core)) (i : Nat) :
    Except JsError (Metadata core) → List (Metadata core)
  | .ok m => objects.set i m
  | .error _ => objects

def step (objects : List (Metadata core)) : Call → Option (List (Metadata core))
  | .new => some (objects ++ [Metadata.new])
  | .set i key value => objects[i]?.map fun m => store objects i (m.set key value)
  | .add i key value => objects[i]?.map fun m => store objects i (m.add key value)
  | .remove i key => objects[i]?.map fun m => store objects i (m.remove key)
  | .clone i => objects[i]?.map fun m => objects ++ [m.clone]

end MetadataHistory

/-! ### What is stored -/

variable {core : Core}

/-- What an own property holds: values that `set` and `add` take under its key, and at least
one of them. -/
def Stored (core : Core) (key : String) (v : PropertyValue) : Prop :=
  key ≠ "__proto__" ∧
    ∃ values, v = .array values ∧ values ≠ [] ∧ ∀ value ∈ values, Accepts core key value

/-- All own properties are in order. -/
def Sound (core : Core) (repr : MetadataObject) : Prop :=
  ∀ key v, repr.own.lookup key = some v → Stored core key v

namespace Sound

variable {repr r : MetadataObject} {key : String} {value : MetadataValue}

theorem put (h : Sound core repr) {values : List MetadataValue} (hne : values ≠ [])
    (hvalues : ∀ value ∈ values, Accepts core key value) :
    Sound core (repr.put key (.array values)) := by
  unfold MetadataObject.put
  by_cases hproto : key = "__proto__"
  · rw [if_pos hproto]
    exact h
  · rw [if_neg hproto]
    intro k v hv
    by_cases hk : k = key
    · rw [hk, OrderedMap.lookup_put_self, Option.some.injEq] at hv
      rw [hk, ← hv]
      exact ⟨hproto, values, rfl, hne, hvalues⟩
    · rw [OrderedMap.lookup_put_of_ne _ _ hk] at hv
      exact h k v hv

/-- The end of `set` -/
theorem put_singleton (h : Sound core repr) (hvalue : Accepts core key value) :
    Sound core (repr.put key (.array [value])) :=
  h.put (List.cons_ne_nil _ _) (List.forall_mem_singleton.mpr hvalue)

/-- The end of `add` -/
theorem pushed (h : Sound core repr) (hvalue : Accepts core key value)
    (hr : pushed? repr key value = some r) : Sound core r := by
  cases htruthy : (repr.get key).truthy with
  | false =>
      rw [pushed?_of_not_truthy value htruthy, Option.some.injEq] at hr
      exact hr ▸ h.put_singleton hvalue
  | true =>
      by_cases harray : ∃ values, repr.get key = .value (.array values)
      · obtain ⟨values, hget⟩ := harray
        rw [pushed?_of_array value hget, Option.some.injEq] at hr
        rw [← hr]
        by_cases hproto : key = "__proto__"
        · -- The array becomes longer that is the prototype already.
          rw [MetadataObject.put, if_pos hproto]
          exact h
        · obtain ⟨-, us, heq, -, hvalues⟩ := h key _ (lookup_of_get_array hproto hget)
          obtain rfl := PropertyValue.array.inj heq
          refine h.put (List.append_ne_nil_of_right_ne_nil _ (List.cons_ne_nil _ _)) ?_
          exact List.forall_mem_append.mpr ⟨hvalues, List.forall_mem_singleton.mpr hvalue⟩
      · have hthrows := pushed?_of_not_array value htruthy fun values hget =>
          harray ⟨values, hget⟩
        exact absurd (hthrows.symm.trans hr) (by simp)

/-- The end of `remove` -/
theorem removed (h : Sound core repr) (key : String) :
    Sound core (NativeCore.removed repr key) := by
  unfold NativeCore.removed
  split
  · intro k v hv
    by_cases hk : k = key
    · rw [hk, OrderedMap.lookup_erase_self] at hv
      exact absurd hv (by simp)
    · rw [OrderedMap.lookup_erase_of_ne _ hk] at hv
      exact h k v hv
  · exact h

end Sound

/-- All objects are in order. -/
def AllSound (core : Core) (objects : List (Metadata core)) : Prop :=
  ∀ m ∈ objects, Sound core m.internalRepr

namespace MetadataHistory

theorem allSound_append {objects : List (Metadata core)} (h : AllSound core objects)
    {m : Metadata core} (hm : Sound core m.internalRepr) : AllSound core (objects ++ [m]) :=
  List.forall_mem_append.mpr ⟨h, List.forall_mem_singleton.mpr hm⟩

theorem allSound_store {objects : List (Metadata core)} (h : AllSound core objects) (i : Nat)
    {x : Except JsError (Metadata core)}
    (hx : ∀ r, repr? x = some r → Sound core r) : AllSound core (store objects i x) := by
  cases x with
  | error e => exact h
  | ok m =>
      intro n hn
      rcases List.mem_or_eq_of_mem_set hn with hn | rfl
      · exact h n hn
      · exact hx _ rfl

/-- No call breaks that. -/
theorem allSound_step {objects next : List (Metadata core)} {call : Call}
    (h : AllSound core objects) (hstep : step objects call = some next) : AllSound core next := by
  have hget : ∀ {i : Nat} {m : Metadata core}, objects[i]? = some m → Sound core m.internalRepr :=
    fun hi => h _ (List.mem_of_getElem? hi)
  cases call with
  | new =>
      obtain rfl := Option.some.inj hstep
      exact allSound_append h (by simp [Sound, Metadata.new, MetadataObject.empty,
        OrderedMap.lookup, OrderedMap.empty, OrderedMap.lookupIn])
  | set i key value =>
      obtain ⟨m, hi, rfl⟩ := Option.map_eq_some_iff.mp hstep
      refine allSound_store h i fun r hr => ?_
      obtain ⟨haccepts, hput⟩ := (repr?_set m key value).mp hr
      exact Option.some.inj hput ▸ (hget hi).put_singleton haccepts
  | add i key value =>
      obtain ⟨m, hi, rfl⟩ := Option.map_eq_some_iff.mp hstep
      refine allSound_store h i fun r hr => ?_
      obtain ⟨haccepts, hpushed⟩ := (repr?_add m key value).mp hr
      exact (hget hi).pushed haccepts hpushed
  | remove i key =>
      obtain ⟨m, hi, rfl⟩ := Option.map_eq_some_iff.mp hstep
      refine allSound_store h i fun r hr => ?_
      obtain ⟨-, hremoved⟩ := (repr?_remove m key).mp hr
      exact Option.some.inj hremoved ▸ (hget hi).removed _
  | clone i =>
      obtain ⟨m, hi, rfl⟩ := Option.map_eq_some_iff.mp hstep
      have hm : Sound core m.internalRepr := hget hi
      exact allSound_append (m := m.clone) h hm

/-- So it holds after any calls. -/
theorem allSound_always (calls : List Call) :
    Runs.Always step (AllSound core) [] calls :=
  Runs.always_of_invariant (fun _ _ _ h hstep => allSound_step h hstep) (by simp [AllSound]) calls

end MetadataHistory

/-! ### On the way in -/

/-- What passes the test of the core is not cut off. -/
theorem createSliceFromString_of_nonbinValueIsLegal (hcore : core.Documented) {s : String}
    (h : core.headerNonbinValueIsLegal (createSliceFromString s) = true) :
    createSliceFromString s = toUtf8 s := by
  rw [hcore.headerNonbinValueIsLegal, sameTest_value.forall_iff] at h
  exact createSliceFromString_eq_toUtf8 fun c hc => sameTest_value.char (h c hc)

theorem isAscii_of_headerKeyIsLegal (hcore : core.Documented) {key : String}
    (h : core.headerKeyIsLegal (createSliceFromString key) = true) :
    ∀ c ∈ key.toList, IsAscii c := by
  rw [hcore.headerKeyIsLegal, sameTest_key.forall_iff] at h
  exact fun c hc => sameTest_key.char (h.2 c hc)

/-- The slot for a value. -/
def writtenEntry (key : String) : MetadataValue → Buffer × Buffer
  | .string s => (createSliceFromString key, createSliceFromString s)
  | .buffer b => (createSliceFromString key, b)

/-- The slots for the properties of an object, in some order. -/
def writtenEntries (order : List (String × PropertyValue)) : MetadataArray :=
  order.flatMap fun e =>
    match e.2 with
    | .array values => values.map (writtenEntry e.1)
    | .string _ => []

theorem createMetadata_eq {key : String} {value : MetadataValue} (h : FitsKey core key value) :
    createMetadata core (createSliceFromString key) (Metadata.valueRepresentation value) =
      some (writtenEntry key value) := by
  cases value with
  | buffer b => exact if_pos h
  | string s => exact if_neg (by rw [show core.isBinaryHeader _ = false from h]; simp)

theorem createValues_eq {key : String} {values : List MetadataValue}
    (h : ∀ value ∈ values, FitsKey core key value) :
    createValues core (createSliceFromString key) (values.map Metadata.valueRepresentation) =
      some (values.map (writtenEntry key)) := by
  induction values with
  | nil => rfl
  | cons value values ih =>
      rw [List.map_cons, createValues, createMetadata_eq (h value (.head values)),
        ih fun v hv => h v (.tail value hv)]
      rfl

theorem createEntries_eq {order : List (String × PropertyValue)}
    (h : ∀ e ∈ order, ValidEntry core e.1 e.2) :
    ∃ arrays, arrayProperties (order.map Metadata.entryRepresentation) = some arrays ∧
      createEntries core arrays = some (writtenEntries order) := by
  induction order with
  | nil => exact ⟨[], rfl, rfl⟩
  | cons e order ih =>
      obtain ⟨key, v⟩ := e
      obtain ⟨values, rfl, hvalues⟩ := h (key, v) (.head order)
      obtain ⟨arrays, harrays, hentries⟩ := ih fun e he => h e (.tail _ he)
      refine ⟨(key, values.map Metadata.valueRepresentation) :: arrays, ?_, ?_⟩
      · rw [List.map_cons, Metadata.entryRepresentation, arrayProperties, harrays]
        rfl
      · rw [createEntries, createValues_eq hvalues, hentries]
        rfl

theorem createMetadataArray_eq {order : List (String × PropertyValue)}
    (h : ∀ e ∈ order, ValidEntry core e.1 e.2) :
    createMetadataArray core (.object (order.map Metadata.entryRepresentation)) =
      some (writtenEntries order) := by
  obtain ⟨arrays, harrays, hentries⟩ := createEntries_eq h
  rw [createMetadataArray, JsValue.ownProperties, harrays]
  exact hentries

/-! ### On the way out -/

/-- What the parser appends to. -/
def arrayAt (repr : MetadataObject) (key : String) : List MetadataValue :=
  match repr.get key with
  | .value (.array values) => values
  | _ => []

theorem arrayAt_put {repr : MetadataObject} {key : String} (hproto : key ≠ "__proto__")
    (values : List MetadataValue) : arrayAt (repr.put key (.array values)) key = values := by
  rw [arrayAt, MetadataObject.get, MetadataObject.put, if_neg hproto, OrderedMap.lookup_put_self]

/-- Nothing of an ordinary object is an array. -/
theorem arrayAt_of_lookup {repr : MetadataObject} {key : String} (hproto : repr.proto = .object)
    (h : repr.own.lookup key = none) : arrayAt repr key = [] := by
  rw [arrayAt, MetadataObject.get, h, hproto]
  dsimp only [JsCore.Prototype.get]
  by_cases hkey : key ∈ objectPrototypeNames
  · rw [if_pos hkey]
  · rw [if_neg hkey]

theorem put_put {repr : MetadataObject} {key : String} (hproto : key ≠ "__proto__")
    (v w : PropertyValue) : (repr.put key v).put key w = repr.put key w := by
  simp only [MetadataObject.put, if_neg hproto, OrderedMap.put_put]

/-- The parser gets one value back, -/
theorem parseMetadataElement_eq (hcore : core.Documented) (repr : MetadataObject) {key : String}
    {value : MetadataValue} (h : Accepts core key value) :
    parseMetadataElement core repr (writtenEntry key value) =
      repr.put key (.array (arrayAt repr key ++ [value])) := by
  have hkey : copyStringFromSlice (createSliceFromString key) = key :=
    copyStringFromSlice_of_carried (.inl (isAscii_of_headerKeyIsLegal hcore h.1))
  have hvalid := h.2
  unfold validate at hvalid
  have helement : ∀ slice, parseMetadataElement core repr (createSliceFromString key, slice) =
      repr.put key (.array (arrayAt repr key ++
        [if core.isBinaryHeader (createSliceFromString key) then
          .buffer (createBufferFromSlice slice) else .string (copyStringFromSlice slice)])) := by
    intro slice
    unfold parseMetadataElement
    dsimp only
    rw [hkey]
    rfl
  cases value with
  | buffer b =>
      have hbinary : core.isBinaryHeader (createSliceFromString key) = true :=
        fitsKey_of_validate h.2
      rw [writtenEntry, helement, if_pos hbinary, createBufferFromSlice]
  | string s =>
      have hbinary : core.isBinaryHeader (createSliceFromString key) = false :=
        fitsKey_of_validate h.2
      have hs : copyStringFromSlice (createSliceFromString s) = s := by
        simp only [hbinary, Bool.false_eq_true, if_false] at hvalid
        split at hvalid
        · rename_i hlegal
          rw [createSliceFromString_of_nonbinValueIsLegal hcore hlegal, copyStringFromSlice_eq,
            fromUtf8_toUtf8]
        · exact absurd hvalid (by simp)
      rw [writtenEntry, helement, hbinary, if_neg Bool.false_ne_true, hs]

/-- all values of a key, -/
theorem parse_values (hcore : core.Documented) (repr : MetadataObject) {key : String}
    (hproto : key ≠ "__proto__") {values : List MetadataValue} (hne : values ≠ [])
    (h : ∀ value ∈ values, Accepts core key value) :
    (values.map (writtenEntry key)).foldl (parseMetadataElement core) repr =
      repr.put key (.array (arrayAt repr key ++ values)) := by
  induction values generalizing repr with
  | nil => exact absurd rfl hne
  | cons value values ih =>
      rw [List.map_cons, List.foldl_cons, parseMetadataElement_eq hcore repr (h value (.head values))]
      by_cases hlast : values = []
      · subst hlast
        rfl
      · rw [ih _ hlast fun v hv => h v (.tail value hv), arrayAt_put hproto, put_put hproto,
          List.append_assoc]
        rfl

/-- and all keys. -/
theorem parse_entries (hcore : core.Documented) {order : List (String × PropertyValue)}
    (horder : (order.map Prod.fst).Nodup) (hstored : ∀ e ∈ order, Stored core e.1 e.2)
    {repr : MetadataObject} (hproto : repr.proto = .object)
    (hfresh : ∀ e ∈ order, repr.own.lookup e.1 = none) (key : String) :
    ((writtenEntries order).foldl (parseMetadataElement core) repr).own.lookup key =
      (OrderedMap.lookupIn key order).or (repr.own.lookup key) := by
  induction order generalizing repr with
  | nil => rfl
  | cons e order ih =>
      obtain ⟨k, v⟩ := e
      obtain ⟨hk, values, rfl, hne, hvalues⟩ := hstored (k, v) (.head order)
      rw [List.map_cons, List.nodup_cons] at horder
      have hnone : repr.own.lookup k = none := hfresh _ (.head order)
      have hput : repr.put k (.array values) =
          { repr with own := repr.own.put k (.array values) } := if_neg hk
      have hstep : (writtenEntries ((k, .array values) :: order)).foldl
            (parseMetadataElement core) repr =
          (writtenEntries order).foldl (parseMetadataElement core)
            (repr.put k (.array values)) := by
        rw [writtenEntries, List.flatMap_cons, List.foldl_append, parse_values hcore repr hk hne hvalues,
          arrayAt_of_lookup hproto hnone]
        rfl
      have hproto' : (repr.put k (.array values)).proto = .object := by
        rw [hput]
        exact hproto
      have hfresh' : ∀ e ∈ order, (repr.put k (.array values)).own.lookup e.1 = none := by
        intro e he
        have hne : e.1 ≠ k := fun heq => horder.1 (List.mem_map.mpr ⟨e, he, heq⟩)
        rw [hput, OrderedMap.lookup_put_of_ne _ _ hne]
        exact hfresh e (.tail _ he)
      rw [hstep, ih horder.2 (fun e he => hstored e (.tail _ he)) hproto' hfresh', hput]
      by_cases hkey : key = k
      · subst hkey
        have hlater : OrderedMap.lookupIn key order = none :=
          OrderedMap.lookupIn_eq_none.mpr horder.1
        rw [hlater, OrderedMap.lookup_put_self, OrderedMap.lookupIn, if_pos rfl]
        rfl
      · rw [OrderedMap.lookup_put_of_ne _ _ hkey, OrderedMap.lookupIn, if_neg (Ne.symm hkey)]

/-! ### There and back -/

theorem lookupIn_perm {m : OrderedMap String PropertyValue}
    {order : List (String × PropertyValue)} (h : order.Perm m.entries) (key : String) :
    OrderedMap.lookupIn key order = m.lookup key := by
  have horder : (order.map Prod.fst).Nodup := (h.map Prod.fst).nodup_iff.mpr m.nodup
  refine Option.ext fun v => ?_
  constructor
  · intro hv
    exact OrderedMap.mem_entries_iff.mp (h.subset (OrderedMap.mem_of_lookupIn hv))
  · intro hv
    exact OrderedMap.lookupIn_of_mem horder (h.symm.subset (OrderedMap.mem_of_lookup hv))

/-- `CreateMetadataArray` succeeds, whatever the order in which it gets the names of the own
properties, has then written as many entries as it has counted, and `ParseMetadata` makes an
object with the same own properties of them. -/
def RoundTrips (core : Core) (m : Metadata core) : Prop :=
  ∀ order : List (String × PropertyValue), order.Perm m.internalRepr.own.entries →
    ∃ array, fillMetadataArray core (.object (order.map Metadata.entryRepresentation)) =
        some (true, array) ∧
      array.count = array.capacity ∧ array.metadata = array.elements.map some ∧
      array.elements.length = array.count ∧
      ∀ key, (parseMetadata core array.elements).own.lookup key = m.internalRepr.own.lookup key

theorem roundTrips_of_sound (hcore : core.Documented) {m : Metadata core}
    (hm : Sound core m.internalRepr) : RoundTrips core m := by
  intro order horder
  have hvalid : ∀ e ∈ order, ValidEntry core e.1 e.2 := fun e he => m.valid e (horder.subset he)
  have hstored : ∀ e ∈ order, Stored core e.1 e.2 := fun e he =>
    hm e.1 e.2 (OrderedMap.mem_entries_iff.mp (horder.subset he))
  have hnodup : (order.map Prod.fst).Nodup :=
    (horder.map Prod.fst).nodup_iff.mpr m.internalRepr.own.nodup
  refine ⟨_, fillMetadataArray_of_eq_some (createMetadataArray_eq hvalid), rfl, ?_, ?_, ?_⟩
  · rw [GrpcMetadataArray.elements_full]
    exact List.append_nil _
  · rw [GrpcMetadataArray.elements_full]
    rfl
  · intro key
    have hempty : ∀ k, MetadataObject.empty.own.lookup k = none := fun k => rfl
    rw [GrpcMetadataArray.elements_full, parseMetadata,
      parse_entries hcore hnodup hstored rfl (fun e _ => hempty e.1), hempty, Option.or_none,
      lookupIn_perm horder]

/-- **Metadata survives the addon.** After any calls, every `Metadata` object makes the round
trip; and the slice of a text that passes the test for values has all its bytes. -/
theorem metadata_roundTrip (core : Core) (hcore : core.Documented)
    (calls : List MetadataHistory.Call) :
    Runs.Always MetadataHistory.step
      (fun objects : List (Metadata core) => ∀ m ∈ objects, RoundTrips core m) [] calls ∧
    ∀ s, core.headerNonbinValueIsLegal (createSliceFromString s) = true ∨
        core.headerKeyIsLegal (createSliceFromString s) = true →
      createSliceFromString s = toUtf8 s := by
  refine ⟨?_, fun s h => h.elim (createSliceFromString_of_nonbinValueIsLegal hcore) fun hkey =>
    createSliceFromString_eq_toUtf8 (isAscii_of_headerKeyIsLegal hcore hkey)⟩
  refine (MetadataHistory.allSound_always calls).mono fun objects h => ?_
  exact fun m hm => roundTrips_of_sound hcore (h m hm)

theorem metadata_roundTrip_constructor :
    Runs.Always MetadataHistory.step
      (fun objects : List (Metadata Core.ascii) => ∀ m ∈ objects, RoundTrips Core.ascii m) []
      [.new, .set 0 "__proto__" (.string "a"), .set 0 "Constructor" (.string "b"), .clone 0] ∧
    ∀ s, Core.ascii.headerNonbinValueIsLegal (createSliceFromString s) = true ∨
        Core.ascii.headerKeyIsLegal (createSliceFromString s) = true →
      createSliceFromString s = toUtf8 s :=
  metadata_roundTrip Core.ascii Core.ascii_documented _

end GrpcNode.NativeCore
