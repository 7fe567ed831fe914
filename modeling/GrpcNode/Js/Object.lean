import Mathlib.Data.List.Basic
import Mathlib.Tactic.Common

/-!
# GrpcNode.Js.Object

What JavaScript code finds in an object it did not put there: the names that every
ordinary object and every array inherits, and the exceptions that follow from taking
an inherited member for a value of one's own.
-/

namespace GrpcNode.Js

/-- An exception: an `Error` the sources throw themselves, or a `TypeError` or
`URIError` of the engine. -/
inductive JsError
  | error (message : String)
  | typeError (message : String)
  | uriError (message : String)
  deriving Repr, DecidableEq

/-- `e.message` -/
def JsError.message : JsError → String
  | .error message | .typeError message | .uriError message => message

/-- The members of `Object.prototype`. -/
def objectPrototypeNames : List String :=
  ["__defineGetter__", "__defineSetter__", "__lookupGetter__", "__lookupSetter__", "__proto__",
    "constructor", "hasOwnProperty", "isPrototypeOf", "propertyIsEnumerable", "toLocaleString",
    "toString", "valueOf"]

/-- The members of `Array.prototype` in the Node versions that the sources name (8.4
and up). -/
def arrayPrototypeNames : List String :=
  ["concat", "constructor", "copyWithin", "entries", "every", "fill", "filter", "find",
    "findIndex", "forEach", "includes", "indexOf", "join", "keys", "lastIndexOf", "length", "map",
    "pop", "push", "reduce", "reduceRight", "reverse", "shift", "slice", "some", "sort", "splice",
    "toLocaleString", "toString", "unshift"]

/-- The element of `xs` that the property name `name` denotes, when it is the decimal
form of an index. -/
def elementNamed {α : Type*} (xs : List α) (name : String) : Option α :=
  (List.range xs.length).findSome? fun i => if toString i = name then xs[i]? else none

end GrpcNode.Js
