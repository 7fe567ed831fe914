import GrpcNode.Js.Value
import GrpcNode.JsCore.Metadata
import GrpcNode.NativeCore.Slice

/-!
# GrpcNode.NativeCore.Metadata

`metadata.js`: the `Metadata` class of the addon's JavaScript side, as far as it is written.
`_internal_repr` is an ordinary object, like the `internalRepr` of the other implementation,
and what was said there about the prototype holds here too.

The class keeps an invariant, which is a field here: every entry is an array of values that
fit its key. The addon asks for no more (`createMetadataArray_coreRepresentation`).
-/

namespace GrpcNode.NativeCore

open GrpcNode.Js
open GrpcNode.JsCore (MetadataObject MetadataValue PropertyValue)

/-- `normalizeKey` -/
def normalizeKey (core : Core) (key : String) : Except JsError String :=
  let key := toLowerCase key
  if core.headerKeyIsLegal (createSliceFromString key) then .ok key
  else .error (.error ("Metadata key\"" ++ key ++ "\" contains illegal characters"))

/-- `validate` -/
def validate (core : Core) (key : String) (value : MetadataValue) : Except JsError Unit :=
  if core.isBinaryHeader (createSliceFromString key) then
    match value with
    | .buffer _ => .ok ()
    | .string _ => .error (.error "keys that end with '-bin' must have Buffer values")
  else
    match value with
    | .buffer _ => .error (.error "keys that don't end with '-bin' must have String values")
    | .string s =>
        if core.headerNonbinValueIsLegal (createSliceFromString s) then .ok ()
        else .error (.error ("Metadata string value \"" ++ s ++ "\" contains illegal characters"))

/-- A buffer for a key that ends with `-bin`, and a string for any other. -/
def FitsKey (core : Core) (key : String) : MetadataValue → Prop
  | .buffer _ => core.isBinaryHeader (createSliceFromString key) = true
  | .string _ => core.isBinaryHeader (createSliceFromString key) = false

theorem fitsKey_of_validate {core : Core} {key : String} {value : MetadataValue}
    (h : validate core key value = .ok ()) : FitsKey core key value := by
  unfold validate at h
  split at h
  · rename_i hbinary
    cases value with
    | buffer b => exact hbinary
    | string s => exact absurd h nofun
  · rename_i hbinary
    cases value with
    | buffer b => exact absurd h nofun
    | string s => exact eq_false_of_ne_true hbinary

/-- The value of an entry: an array of values that fit the key. -/
def ValidEntry (core : Core) (key : String) (v : PropertyValue) : Prop :=
  ∃ values, v = .array values ∧ ∀ value ∈ values, FitsKey core key value

/-- `class Metadata`, with what its functions ensure about the entries. -/
structure Metadata (core : Core) where
  internalRepr : MetadataObject
  valid : ∀ e ∈ internalRepr.own.entries, ValidEntry core e.1 e.2

variable {core : Core}

/-- Storing a valid entry keeps all entries valid. -/
theorem validEntry_put {repr : MetadataObject} {key : String} {v : PropertyValue}
    (hrepr : ∀ e ∈ repr.own.entries, ValidEntry core e.1 e.2) (hv : ValidEntry core key v) :
    ∀ e ∈ (repr.put key v).own.entries, ValidEntry core e.1 e.2 := by
  obtain ⟨values, rfl, hvalues⟩ := hv
  unfold MetadataObject.put
  split
  · exact hrepr
  · rintro ⟨k, w⟩ he
    rw [OrderedMap.mem_entries_iff] at he
    by_cases hk : k = key
    · rw [hk, OrderedMap.lookup_put_self, Option.some.injEq] at he
      rw [hk, ← he]
      exact ⟨values, rfl, hvalues⟩
    · rw [OrderedMap.lookup_put_of_ne _ _ hk] at he
      exact hrepr (k, w) (OrderedMap.mem_of_lookup he)

/-- The only array that an object inherits is under `__proto__`. -/
theorem Prototype.get_ne_array {proto : JsCore.Prototype} {key : String}
    (hproto : key ≠ "__proto__") {values : List MetadataValue} :
    proto.get key ≠ .value (.array values) := by
  unfold JsCore.Prototype.get
  split
  · split <;> exact nofun
  · rw [if_neg hproto]
    split
    · exact nofun
    · exact nofun
    · split <;> exact nofun

/-- An array found under a key is an own property: the only array to be inherited is under
`__proto__`. -/
theorem lookup_of_get_array {repr : MetadataObject} {key : String} {values : List MetadataValue}
    (hproto : key ≠ "__proto__") (hget : repr.get key = .value (.array values)) :
    repr.own.lookup key = some (.array values) := by
  unfold MetadataObject.get at hget
  cases hlookup : repr.own.lookup key with
  | some w =>
      rw [hlookup] at hget
      rw [JsCore.Lookup.value.inj hget]
  | none =>
      rw [hlookup] at hget
      exact absurd hget (Prototype.get_ne_array hproto)

/-- What is found under a key, and longer by one value, can be stored under it. -/
theorem validEntry_push {repr : MetadataObject} {key : String} {values : List MetadataValue}
    {value : MetadataValue} (hrepr : ∀ e ∈ repr.own.entries, ValidEntry core e.1 e.2)
    (hget : repr.get key = .value (.array values)) (hvalue : FitsKey core key value) :
    ∀ e ∈ (repr.put key (.array (values ++ [value]))).own.entries, ValidEntry core e.1 e.2 := by
  by_cases hproto : key = "__proto__"
  · rw [MetadataObject.put, if_pos hproto]
    exact hrepr
  · refine validEntry_put hrepr ⟨_, rfl, fun v hv => ?_⟩
    have hown := lookup_of_get_array hproto hget
    obtain ⟨own, heq, hvalid⟩ := hrepr _ (OrderedMap.mem_of_lookup hown)
    rcases List.mem_append.mp hv with hv | hv
    · rw [PropertyValue.array.inj heq] at hv
      exact hvalid v hv
    · rw [List.mem_singleton.mp hv]
      exact hvalue

namespace Metadata

/-- `new Metadata()` -/
def new : Metadata core := ⟨.empty, nofun⟩

/-- `set(key, value)` -/
def set (m : Metadata core) (key : String) (value : MetadataValue) :
    Except JsError (Metadata core) :=
  match normalizeKey core key with
  | .error e => .error e
  | .ok key =>
      match h : validate core key value with
      | .error e => .error e
      | .ok () => .ok {
          internalRepr := m.internalRepr.put key (.array [value])
          valid := validEntry_put m.valid ⟨[value], rfl, by simpa using fitsKey_of_validate h⟩ }

/-- `add(key, value)`. Pushing onto the array found under `key` is storing the longer array
there. -/
def add (m : Metadata core) (key : String) (value : MetadataValue) :
    Except JsError (Metadata core) :=
  match normalizeKey core key with
  | .error e => .error e
  | .ok key =>
      match h : validate core key value with
      | .error e => .error e
      | .ok () =>
          if !(m.internalRepr.get key).truthy then
            .ok {
              internalRepr := m.internalRepr.put key (.array [value])
              valid := validEntry_put m.valid ⟨[value], rfl, by simpa using fitsKey_of_validate h⟩ }
          else
            match hget : m.internalRepr.get key with
            | .value (.array values) =>
                .ok {
                  internalRepr := m.internalRepr.put key (.array (values ++ [value]))
                  valid := validEntry_push m.valid hget (fitsKey_of_validate h) }
            | _ => .error (.typeError "this._internal_repr[key].push is not a function")

/-- `remove(key)` -/
def remove (m : Metadata core) (key : String) : Except JsError (Metadata core) :=
  match normalizeKey core key with
  | .error e => .error e
  | .ok key =>
      if m.internalRepr.hasOwnProperty key then
        .ok {
          internalRepr := { m.internalRepr with own := m.internalRepr.own.erase key }
          valid := fun e he => m.valid e (List.mem_filter.mp he).1 }
      else .ok m

/-- `get(key)` -/
def get (m : Metadata core) (key : String) : Except JsError PropertyValue :=
  match normalizeKey core key with
  | .error e => .error e
  | .ok key => .ok ((m.internalRepr.own.lookup key).getD (.array []))

/-- The first element of the value of a property, if `values.length > 0`. -/
def firstOf : PropertyValue → Option MetadataValue
  | .array values => values.head?
  | .string s => s.toList.head?.map fun c => .string (String.singleton c)

/-- `getMap()` -/
def getMap (m : Metadata core) : OrderedMap String MetadataValue :=
  m.internalRepr.own.filterMapValues firstOf

/-- `clone()`. The result is a new ordinary object. -/
def clone (m : Metadata core) : Metadata core where
  internalRepr := { own := m.internalRepr.own, proto := .object }
  valid := m.valid

/-- A value of an entry, as the addon finds it. -/
def valueRepresentation : MetadataValue → JsValue
  | .string s => .string s
  | .buffer b => .buffer b []

def entryRepresentation : String × PropertyValue → String × JsValue
  | (key, .array values) => (key, .array (values.map valueRepresentation))
  | (key, .string s) => (key, .string s)

/-- `_getCoreRepresentation()` -/
def getCoreRepresentation (m : Metadata core) : JsValue :=
  .object (m.internalRepr.own.entries.map entryRepresentation)

end Metadata

end GrpcNode.NativeCore
