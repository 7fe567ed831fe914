import GrpcNode.Js.Value
import GrpcNode.Lib.OrderedMap
import GrpcNode.NativeCore.ProtobufAttrs

/-!
# GrpcNode.NativeCore.GrpcOptions

The options objects of `index.js` and `client.js`. The functions that take one fill the defaults
into the object itself, with `_.defaults`.
-/

namespace GrpcNode.NativeCore

open GrpcNode.Js

/-- An options object. The names that are read are not inherited. -/
abbrev Options := OrderedMap String JsValue

/-- `options[name]` -/
def property (options : Options) (name : String) : JsValue :=
  (options.lookup name).getD .undefined

/-- `_.defaults(options, source)`, which changes the object -/
def defaults (options : Options) : List (String × JsValue) → Options
  | [] => options
  | (name, v) :: source =>
      defaults (if (property options name).isUndefined then options.put name v else options) source

/-- `common.defaultGrpcOptions` -/
def defaultGrpcOptions : List (String × JsValue) :=
  [("convertFieldsToCamelCase", .boolean false), ("binaryAsBase64", .boolean false),
    ("longsAsStrings", .boolean true), ("enumsAsStrings", .boolean true),
    ("deprecatedArgumentOrder", .boolean false)]

/-- What the loaders read of the options. -/
def loadOptions (options : Options) : LoadOptions where
  binaryAsBase64 := (property options "binaryAsBase64").truthy
  longsAsStrings := (property options "longsAsStrings").truthy
  enumsAsStrings := (property options "enumsAsStrings").truthy
  deprecatedArgumentOrder := (property options "deprecatedArgumentOrder").truthy

/-! ### Properties -/

theorem property_put_self (options : Options) (name : String) (v : JsValue) :
    property (options.put name v) name = v := by
  rw [property, OrderedMap.lookup_put_self, Option.getD_some]

theorem property_put_of_ne (options : Options) {name other : String} (v : JsValue)
    (h : other ≠ name) : property (options.put name v) other = property options other := by
  rw [property, OrderedMap.lookup_put_of_ne _ _ h]
  rfl

/-- A property that has a default takes it if it is not there. -/
theorem lookup_defaults (options : Options) {source : List (String × JsValue)}
    (hnodup : (source.map Prod.fst).Nodup) (name : String) :
    (defaults options source).lookup name =
      if (property options name).isUndefined then
        (OrderedMap.lookupIn name source).or (options.lookup name)
      else options.lookup name := by
  induction source generalizing options with
  | nil => simp [defaults, OrderedMap.lookupIn]
  | cons e source ih =>
      obtain ⟨first, v⟩ := e
      rw [List.map_cons, List.nodup_cons] at hnodup
      rw [defaults, ih _ hnodup.2, OrderedMap.lookupIn]
      by_cases hname : first = name
      · have hlater : OrderedMap.lookupIn name source = none :=
          OrderedMap.lookupIn_eq_none.mpr (hname ▸ hnodup.1)
        rw [if_pos hname, hlater, hname]
        by_cases hundefined : (property options name).isUndefined = true
        · simp [hundefined, property_put_self]
        · simp [hundefined]
      · rw [if_neg hname]
        by_cases hundefined : (property options first).isUndefined = true
        · rw [if_pos hundefined, property_put_of_ne _ _ (Ne.symm hname),
            OrderedMap.lookup_put_of_ne _ _ (Ne.symm hname)]
        · rw [if_neg hundefined]

/-- What `defaults` makes of a property depends on nothing else. -/
theorem lookup_defaults_congr {options options' : Options} {source : List (String × JsValue)}
    (hnodup : (source.map Prod.fst).Nodup) {name : String}
    (h : options.lookup name = options'.lookup name) :
    (defaults options source).lookup name = (defaults options' source).lookup name := by
  rw [lookup_defaults _ hnodup, lookup_defaults _ hnodup, property, property, h]

/-- A property without a default stays as it is. -/
theorem lookup_defaults_of_not_mem (options : Options) {source : List (String × JsValue)}
    (hnodup : (source.map Prod.fst).Nodup) {name : String} (h : name ∉ source.map Prod.fst) :
    (defaults options source).lookup name = options.lookup name := by
  rw [lookup_defaults _ hnodup, OrderedMap.lookupIn_eq_none.mpr h, Option.none_or, ite_self]

/-- Defaults that are filled in are there. -/
theorem lookup_defaults_defaults (options : Options) {source : List (String × JsValue)}
    (hnodup : (source.map Prod.fst).Nodup) (name : String) :
    (defaults (defaults options source) source).lookup name =
      (defaults options source).lookup name := by
  rw [lookup_defaults _ hnodup, property, lookup_defaults _ hnodup]
  cases hsource : OrderedMap.lookupIn name source with
  | none => simp
  | some v =>
      by_cases hundefined : (property options name).isUndefined = true
      · simp [hundefined]
      · rw [if_neg hundefined]
        exact if_neg hundefined

end GrpcNode.NativeCore
