import GrpcNode.Js.Buffer
import GrpcNode.Js.Number

/-!
# GrpcNode.Js.Value

Values of any type, for the code that is handed some and has to check them. Objects are what
they have as own properties: none of the names that the sources read this way is inherited.
-/

namespace GrpcNode.Js

/-- A value. -/
inductive JsValue
  | undefined
  | null
  | boolean (b : Bool)
  | number (n : JsNumber)
  | string (s : String)
  | symbol (description : String)
  | function
  | buffer (bytes : Buffer) (own : List (String × JsValue))
  | array (elements : List JsValue)
  | object (own : List (String × JsValue))

namespace JsValue

/-- `IsObject()` -/
def isObject : JsValue → Bool
  | function | buffer _ _ | array _ | object _ => true
  | undefined | null | boolean _ | number _ | string _ | symbol _ => false

/-- `::node::Buffer::HasInstance(value)` -/
def isBuffer : JsValue → Bool
  | buffer _ _ => true
  | _ => false

/-- `_.isFinite(value)` -/
def isFinite : JsValue → Bool
  | number (.finite _) | number .negZero => true
  | _ => false

/-- `Nan::To<uint32_t>` of a value for which `IsUint32()` holds. -/
def uint32? : JsValue → Option Nat
  | number n => if n.isUint32 then n.toIndex? else none
  | _ => none

/-- `Nan::To<String>` of a value for which `IsString()` holds. -/
def string? : JsValue → Option String
  | string s => some s
  | _ => none

theorem string?_eq_some_iff {value : JsValue} {s : String} :
    value.string? = some s ↔ value = string s := by
  cases value <;> simp [string?]

/-- Whether the value counts as true in a condition. -/
def truthy : JsValue → Bool
  | undefined | null | number .nan | number .negZero => false
  | boolean b => b
  | number (.finite q) => q ≠ 0
  | string s => s ≠ ""
  | number (.infinity _) | symbol _ | function | buffer _ _ | array _ | object _ => true

/-- `value === undefined` -/
def isUndefined : JsValue → Bool
  | undefined => true
  | _ => false

/-- `Nan::GetOwnPropertyNames`, with the values. -/
def ownProperties : JsValue → List (String × JsValue)
  | object own => own
  | array elements => elements.zipIdx.map fun (v, i) => (toString i, v)
  | buffer bytes own =>
      (bytes.zipIdx.map fun (b, i) => (toString i, number (.finite b.toNat))) ++ own
  | _ => []

/-- `own[name] = v`. A property that is there keeps its place. -/
def putOwn (own : List (String × JsValue)) (name : String) (v : JsValue) :
    List (String × JsValue) :=
  if own.any fun e => e.1 = name then own.map fun e => if e.1 = name then (name, v) else e
  else own ++ [(name, v)]

/-- `value[name] = v` in strict mode, where `name` is no index; `none` is a `TypeError`. A
property that is stored on an array or on a function is not looked at by anybody. -/
def put (value : JsValue) (name : String) (v : JsValue) : Option JsValue :=
  match value with
  | object own => some (object (putOwn own name v))
  | buffer bytes own => some (buffer bytes (putOwn own name v))
  | array elements => some (array elements)
  | function => some function
  | undefined | null | boolean _ | number _ | string _ | symbol _ => none

/-- `Nan::Get(value, name)` -/
def get (value : JsValue) (name : String) : JsValue :=
  ((value.ownProperties.find? fun e => e.1 = name).map Prod.snd).getD undefined

end JsValue

end GrpcNode.Js
