import GrpcNode.Js.Object
import GrpcNode.Js.Text
import GrpcNode.Lib.OrderedMap

/-!
# GrpcNode.JsCore.Metadata

`metadata.ts`: the `Metadata` class of the pure-JS client.

`internalRepr` is an ordinary object that starts as `{}`. Its own properties are the
entries; reading a key that is not among them goes on to the prototype, where
`constructor` and `__proto__` are found (the other members of `Object.prototype` have
capital letters, and all keys are lower-cased), and *writing* the key `__proto__`
replaces the prototype instead of making an entry. Both are kept here: `Prototype` is
what `internalRepr` inherits from, and `Lookup` tells what reading a key gives.
-/

namespace GrpcNode.JsCore

open GrpcNode.Js

/-- `MetadataValue`. -/
inductive MetadataValue
  | string (s : String)
  | buffer (b : Buffer)
  deriving Repr, DecidableEq

/-- A value of an HTTP/2 header object: one string, or an array of them. -/
inductive HeaderValue
  | one (s : String)
  | many (values : List String)
  deriving Repr, DecidableEq

/-- `http2.OutgoingHttpHeaders` and `http2.IncomingHttpHeaders`. -/
abbrev Headers := OrderedMap String HeaderValue

/-! ### The object behind the class -/

/-- What a property of `internalRepr` can hold. It is an array of values, unless
`merge` came across a string that it took for one. -/
inductive PropertyValue
  | array (values : List MetadataValue)
  | string (s : String)
  deriving Repr, DecidableEq

/-- Only arrays have a `map` method. -/
def PropertyValue.isArray : PropertyValue → Bool
  | .array _ => true
  | .string _ => false

/-- What `internalRepr` inherits from: `Object.prototype`, or an array that was
assigned to `__proto__`. -/
inductive Prototype
  | object
  | array (values : List MetadataValue)
  deriving Repr, DecidableEq

/-- What `internalRepr[key]` evaluates to. `builtin` stands for the functions, numbers
and prototype objects that are inherited: truthy, and without `push` and `concat`. -/
inductive Lookup
  | undefined
  | value (v : PropertyValue)
  | builtin
  deriving Repr, DecidableEq

/-- `MetadataObject`, with its prototype. -/
structure MetadataObject where
  own : OrderedMap String PropertyValue
  proto : Prototype
  deriving DecidableEq

/-- Reading a member of the prototype. -/
def Prototype.get : Prototype → String → Lookup
  | .object, key => if key ∈ objectPrototypeNames then .builtin else .undefined
  | .array values, key =>
      if key = "__proto__" then .value (.array values)
      else match elementNamed values key with
        | some (.string s) => .value (.string s)
        | some (.buffer _) => .builtin
        | none =>
            if key ∈ arrayPrototypeNames ∨ key ∈ objectPrototypeNames then .builtin
            else .undefined

namespace MetadataObject

/-- `{}` -/
def empty : MetadataObject := ⟨.empty, .object⟩

/-- `repr[key]` -/
def get (repr : MetadataObject) (key : String) : Lookup :=
  match repr.own.lookup key with
  | some v => .value v
  | none => repr.proto.get key

/-- `repr[key] = v`. The setter of `__proto__` takes an object and ignores a string. -/
def put (repr : MetadataObject) (key : String) (v : PropertyValue) : MetadataObject :=
  if key = "__proto__" then
    match v with
    | .array values => { repr with proto := .array values }
    | .string _ => repr
  else { repr with own := repr.own.put key v }

/-- `Object.prototype.hasOwnProperty.call(repr, key)` -/
def hasOwnProperty (repr : MetadataObject) (key : String) : Bool := (repr.own.lookup key).isSome

end MetadataObject

/-- `!!x` for a looked-up `x`. -/
def Lookup.truthy : Lookup → Bool
  | .undefined => false
  | .value (.string s) => s ≠ ""
  | .value (.array _) => true
  | .builtin => true

/-- `String(value)` for an element of an array that is turned into a string. -/
def MetadataValue.toText : MetadataValue → String
  | .string s => s
  | .buffer b => (String.fromUTF8? ⟨b.toArray⟩).getD "\uFFFD"

/-- `x || []` -/
def Lookup.orEmptyArray (x : Lookup) : Lookup := if x.truthy then x else .value (.array [])

/-- `x.concat(values)`: of an array, or of a string. -/
def Lookup.concat (x : Lookup) (values : PropertyValue) : Except JsError PropertyValue :=
  match x, values with
  | .value (.array us), .array vs => .ok (.array (us ++ vs))
  | .value (.array us), .string t => .ok (.array (us ++ [.string t]))
  | .value (.string s), .array vs =>
      .ok (.string (s ++ String.intercalate "," (vs.map MetadataValue.toText)))
  | .value (.string s), .string t => .ok (.string (s ++ t))
  | _, _ => .error (.typeError "(this.internalRepr[key] || []).concat is not a function")

/-! ### The functions of the module -/

/-- `cloneMetadataObject`. The result is a new ordinary object. -/
def cloneMetadataObject (repr : MetadataObject) : Except JsError MetadataObject :=
  if repr.own.entries.all fun e => e.2.isArray then
    .ok { own := repr.own, proto := .object }
  else .error (.typeError "value.map is not a function")

/-- `/[0-9a-z_.-]/` -/
def isLegalKeyChar (c : Char) : Bool :=
  ('0' ≤ c ∧ c ≤ '9') ∨ ('a' ≤ c ∧ c ≤ 'z') ∨ c = '_' ∨ c = '.' ∨ c = '-'

/-- `isLegalKey` -/
def isLegalKey (key : String) : Bool := key ≠ "" && key.toList.all isLegalKeyChar

/-- `isLegalNonBinaryValue` -/
def isLegalNonBinaryValue (value : String) : Bool :=
  value ≠ "" && value.toList.all fun c => ' ' ≤ c ∧ c ≤ '~'

/-- `isBinaryKey` -/
def isBinaryKey (key : String) : Bool := endsWith key "-bin"

/-- `normalizeKey` -/
def normalizeKey (key : String) : String := toLowerCase key

/-- `validate` -/
def validate (key : String) (value : Option MetadataValue) : Except JsError Unit :=
  if !isLegalKey key then
    .error (.error ("Metadata key\"" ++ key ++ "\" contains illegal characters"))
  else match value with
    | none => .ok ()
    | some value =>
        if isBinaryKey key then
          match value with
          | .buffer _ => .ok ()
          | .string _ => .error (.error "keys that end with '-bin' must have Buffer values")
        else
          match value with
          | .buffer _ => .error (.error "keys that don't end with '-bin' must have String values")
          | .string s =>
              if isLegalNonBinaryValue s then .ok ()
              else .error (.error ("Metadata string value \"" ++ s ++ "\" contains illegal characters"))

/-! ### The class -/

/-- `class Metadata` -/
structure Metadata where
  internalRepr : MetadataObject
  deriving DecidableEq

namespace Metadata

/-- `new Metadata()` -/
def new : Metadata := ⟨.empty⟩

/-- `set(key, value)` -/
def set (m : Metadata) (key : String) (value : MetadataValue) : Except JsError Metadata := do
  let key := normalizeKey key
  validate key (some value)
  return ⟨m.internalRepr.put key (.array [value])⟩

/-- `add(key, value)`. Pushing onto the array found under `key` is storing the longer
array there. -/
def add (m : Metadata) (key : String) (value : MetadataValue) : Except JsError Metadata := do
  let key := normalizeKey key
  validate key (some value)
  -- The lookup goes on to the prototype, where `remove` and `get` ask for an own property.
  if !(m.internalRepr.get key).truthy then
    return ⟨m.internalRepr.put key (.array [value])⟩
  else match m.internalRepr.get key with
    | .value (.array values) => return ⟨m.internalRepr.put key (.array (values ++ [value]))⟩
    | _ => throw (.typeError "this.internalRepr[key].push is not a function")

/-- `remove(key)` -/
def remove (m : Metadata) (key : String) : Except JsError Metadata := do
  let key := normalizeKey key
  validate key none
  if m.internalRepr.hasOwnProperty key then
    return ⟨{ m.internalRepr with own := m.internalRepr.own.erase key }⟩
  else return m

/-- `get(key)` -/
def get (m : Metadata) (key : String) : Except JsError PropertyValue := do
  let key := normalizeKey key
  validate key none
  return (m.internalRepr.own.lookup key).getD (.array [])

/-- The first element of the value of a property, if `values.length > 0`. -/
def firstOf : PropertyValue → Option MetadataValue
  | .array values => values.head?
  | .string s => s.toList.head?.map fun c => .string (String.singleton c)

/-- `getMap()` -/
def getMap (m : Metadata) : OrderedMap String MetadataValue :=
  m.internalRepr.own.filterMapValues firstOf

/-- `clone()` -/
def clone (m : Metadata) : Except JsError Metadata := do
  return ⟨← cloneMetadataObject m.internalRepr⟩

/-- The loop of `merge` over the entries of the other object: the object it leaves, and
the exception that stopped it, if any. -/
def mergeEntries (repr : MetadataObject) :
    List (String × PropertyValue) → MetadataObject × Option JsError
  | [] => (repr, none)
  | (key, values) :: entries =>
      match (repr.get key).orEmptyArray.concat values with
      | .ok v => mergeEntries (repr.put key v) entries
      -- What has been merged before stays.
      | .error e => (repr, some e)

/-- `merge(other)`: the object it leaves, and the exception, if any. -/
def merge (m other : Metadata) : Metadata × Option JsError :=
  let r := mergeEntries m.internalRepr other.internalRepr.own.entries
  (⟨r.1⟩, r.2)

/-- The values of a key. -/
def values (m : Metadata) (key : String) : List MetadataValue :=
  match m.internalRepr.own.lookup key with
  | some (.array values) => values
  | _ => []

/-- The header form of one value. -/
def encodeValue : MetadataValue → String
  | .buffer b => toBase64 b
  | .string s => s

/-- The header for the values of one key. -/
def encodeValues : PropertyValue → HeaderValue
  | .array values => .many (values.map encodeValue)
  | .string s => .one s

/-- `toHttp2Headers()` -/
def toHttp2Headers (m : Metadata) : Except JsError Headers :=
  if m.internalRepr.own.entries.all fun e => e.2.isArray then
    .ok (m.internalRepr.own.mapValues fun _ values => encodeValues values)
  else .error (.typeError "values.map is not a function")

/-- The strings of a header value. -/
def headerStrings : HeaderValue → List String
  | .one s => [s]
  | .many values => values

/-- The strings under a name of a header object. -/
def headerValues (headers : Headers) (name : String) : List String :=
  match headers.lookup name with
  | some value => headerStrings value
  | none => []

/-- The `add` calls of `fromHttp2Headers` for the values of one header. -/
def addHeader (key : String) : Metadata → List String → Except JsError Metadata
  | result, [] => .ok result
  | result, value :: values => do
      let value := if isBinaryKey key then .buffer (fromBase64 value) else .string value
      addHeader key (← result.add key value) values

/-- `Metadata.fromHttp2Headers(headers)` -/
def fromHttp2Headers (headers : Headers) : Except JsError Metadata :=
  headers.entries.foldlM (fun result e => addHeader e.1 result (headerStrings e.2)) new

/-! ### The operations on valid arguments -/

theorem validate_none {key : String} : validate key none = .ok () ↔ isLegalKey key := by
  cases h : isLegalKey key <;> simp [validate, h]

theorem isLegalKey_of_validate {key : String} {value : Option MetadataValue}
    (h : validate key value = .ok ()) : isLegalKey key := by
  by_contra hkey
  rw [Bool.not_eq_true] at hkey
  simp [validate, hkey] at h

variable {m : Metadata} {key : String} {value : MetadataValue}

theorem set_of_valid (h : validate (normalizeKey key) (some value) = .ok ()) :
    m.set key value = .ok ⟨m.internalRepr.put (normalizeKey key) (.array [value])⟩ := by
  simp only [set, h]
  rfl

theorem valid_of_set {m' : Metadata} (h : m.set key value = .ok m') :
    validate (normalizeKey key) (some value) = .ok () := by
  cases hvalid : validate (normalizeKey key) (some value) with
  | ok u => rfl
  | error e =>
      simp only [set, hvalid] at h
      exact absurd h nofun

/-- `set` leaves the other keys alone. -/
theorem lookup_set_of_ne {m' : Metadata} {other : String} (hnormal : normalizeKey key = key)
    (h : m.set key value = .ok m') (hne : other ≠ key) :
    m'.internalRepr.own.lookup other = m.internalRepr.own.lookup other := by
  rw [set_of_valid (valid_of_set h), Except.ok.injEq, hnormal] at h
  rw [← h, MetadataObject.put]
  split
  · rfl
  · exact OrderedMap.lookup_put_of_ne _ _ hne

theorem values_eq_cons_iff {v : MetadataValue} {vs : List MetadataValue} :
    m.values key = v :: vs ↔ m.internalRepr.own.lookup key = some (.array (v :: vs)) := by
  unfold values
  split
  · rename_i values hlookup
    rw [hlookup]
    simp
  · rename_i hnot
    exact iff_of_false (by simp) fun h => hnot _ h

theorem values_set_self {m' : Metadata} (hnormal : normalizeKey key = key)
    (hproto : key ≠ "__proto__") (h : m.set key value = .ok m') : m'.values key = [value] := by
  rw [set_of_valid (valid_of_set h), Except.ok.injEq, hnormal] at h
  rw [values_eq_cons_iff, ← h, MetadataObject.put, if_neg hproto]
  exact OrderedMap.lookup_put_self _ _ _

/-- Setting a key changes nothing exactly if it has this one value already. -/
theorem set_self_iff (hnormal : normalizeKey key = key) (hproto : key ≠ "__proto__")
    (hvalid : validate key (some value) = .ok ()) :
    m.set key value = .ok m ↔ m.values key = [value] := by
  refine ⟨values_set_self hnormal hproto, fun h => ?_⟩
  rw [set_of_valid (hnormal.symm ▸ hvalid), hnormal, MetadataObject.put, if_neg hproto,
    OrderedMap.put_of_lookup (values_eq_cons_iff.mp h)]

/-- The headers carry the values of every key. -/
theorem headerValues_toHttp2Headers {headers : Headers} (h : m.toHttp2Headers = .ok headers)
    (key : String) : headerValues headers key = (m.values key).map encodeValue := by
  unfold toHttp2Headers at h
  split at h
  · rename_i hall
    rw [← Except.ok.inj h, headerValues, OrderedMap.lookup_mapValues, values]
    cases hlookup : m.internalRepr.own.lookup key with
    | none => rfl
    | some v =>
        cases v with
        | array values => rfl
        | string s =>
            have hmem := OrderedMap.mem_of_lookup hlookup
            exact absurd (List.all_eq_true.mp hall _ hmem) nofun
  · exact absurd h nofun

theorem add_of_not_truthy (h : validate (normalizeKey key) (some value) = .ok ())
    (hget : (m.internalRepr.get (normalizeKey key)).truthy = false) :
    m.add key value = .ok ⟨m.internalRepr.put (normalizeKey key) (.array [value])⟩ := by
  simp only [add, h, hget]
  rfl

theorem add_of_array (h : validate (normalizeKey key) (some value) = .ok ())
    {values : List MetadataValue}
    (hget : m.internalRepr.get (normalizeKey key) = .value (.array values)) :
    m.add key value =
      .ok ⟨m.internalRepr.put (normalizeKey key) (.array (values ++ [value]))⟩ := by
  simp only [add, h, hget]
  rfl

theorem add_of_not_array (h : validate (normalizeKey key) (some value) = .ok ())
    (htruthy : (m.internalRepr.get (normalizeKey key)).truthy = true)
    (hget : ∀ values, m.internalRepr.get (normalizeKey key) ≠ .value (.array values)) :
    m.add key value = .error (.typeError "this.internalRepr[key].push is not a function") := by
  simp only [add, h, htruthy]
  cases hlookup : m.internalRepr.get (normalizeKey key) with
  | undefined => rfl
  | builtin => rfl
  | value v =>
      cases v with
      | string s => rfl
      | array values => exact absurd hlookup (hget values)

theorem add_of_builtin (h : validate (normalizeKey key) (some value) = .ok ())
    (hget : m.internalRepr.get (normalizeKey key) = .builtin) :
    m.add key value = .error (.typeError "this.internalRepr[key].push is not a function") := by
  refine add_of_not_array h (by rw [hget]; rfl) fun values hvalues => ?_
  exact absurd (hget.symm.trans hvalues) nofun

theorem remove_of_legal (h : isLegalKey (normalizeKey key)) :
    m.remove key = .ok (if m.internalRepr.hasOwnProperty (normalizeKey key) then
      ⟨{ m.internalRepr with own := m.internalRepr.own.erase (normalizeKey key) }⟩ else m) := by
  simp only [remove, validate_none.mpr h]
  split <;> rfl

theorem get_of_legal (h : isLegalKey (normalizeKey key)) :
    m.get key = .ok ((m.internalRepr.own.lookup (normalizeKey key)).getD (.array [])) := by
  simp only [get, validate_none.mpr h]
  rfl

end Metadata

end GrpcNode.JsCore
