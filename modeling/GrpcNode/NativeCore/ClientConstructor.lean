import GrpcNode.NativeCore.Metadata
import GrpcNode.NativeCore.ProtobufAttrs

/-!
# GrpcNode.NativeCore.ClientConstructor

`makeClientConstructor` of `client.js`, and what the methods of a client do with their arguments.

The option `deprecatedArgumentOrder` is meant for methods that take the callback before the
optional arguments. But the table of wrappers is called as if it were a function, so that the
option makes every service with a method fail; and the loaders do not pass it on, so that there
it has no effect at all (`deprecatedOrder_iff`).

The arguments are sorted out by ArgueJS, which is not part of the repository: it is a function
here, and `Argue.Documented` is what is known of it.
-/

namespace GrpcNode.NativeCore

open GrpcNode.Js

/-! ### Arguments -/

/-- A value that a request function is called with: what `_.partial` has bound, and then what the
user passes. Functions are of type `φ`, messages of type `α` and call options of type `ο`. -/
inductive Argument (core : Core) (φ α ο : Type)
  | path (s : String)
  | codec (func : φ)
  | argument (value : α)
  | metadata (m : Metadata core)
  | options (o : ο)
  | callback (reference : Nat)
  | undefined

/-- The types in a signature. That of `null` is any type. -/
inductive ParamType
  | string
  | function
  | any
  | metadata
  | object
  deriving DecidableEq

/-- A parameter. An optional one has a default value, which may be `undefined`. -/
structure Param (core : Core) (φ α ο : Type) where
  name : String
  type : ParamType
  default : Option (Argument core φ α ο) := none

variable {core : Core} {φ α ο : Type}

/-- Whether a value is of a type. Functions and `Metadata` objects are objects, and a message may
be anything. -/
def Argument.hasType : Argument core φ α ο → ParamType → Bool
  | _, .any => true
  | .argument _, _ => true
  | .path _, .string => true
  | .codec _, .function | .codec _, .object => true
  | .callback _, .function | .callback _, .object => true
  | .metadata _, .metadata | .metadata _, .object => true
  | .options _, .object => true
  | _, _ => false

/-- `method`, `serialize` and `deserialize` -/
def boundParams : List (Param core φ α ο) :=
  [{ name := "method", type := .string }, { name := "serialize", type := .function },
    { name := "deserialize", type := .function }]

/-- `argument: null` -/
def argumentParam : Param core φ α ο := { name := "argument", type := .any }

/-- `metadata: [Metadata, new Metadata()], options: [Object]` -/
def optionalParams : List (Param core φ α ο) :=
  [{ name := "metadata", type := .metadata, default := some (.metadata .new) },
    { name := "options", type := .object, default := some .undefined }]

/-- `callback: Function` -/
def callbackParam : Param core φ α ο := { name := "callback", type := .function }

/-- The signatures in `makeUnaryRequest`, `makeClientStreamRequest`, `makeServerStreamRequest`
and `makeBidiStreamRequest` -/
def signature : MethodType → List (Param core φ α ο)
  | .unary => boundParams ++ [argumentParam] ++ optionalParams ++ [callbackParam]
  | .clientStream => boundParams ++ optionalParams ++ [callbackParam]
  | .serverStream => boundParams ++ [argumentParam] ++ optionalParams
  | .bidi => boundParams ++ optionalParams

/-- What a user wants a method to be called with. -/
structure Choice (core : Core) (α ο : Type) where
  argument : α
  metadata : Option (Metadata core)
  options : Option ο
  callback : Nat

/-- The arguments in the new order: those that are not given are left out. -/
def Choice.newOrder (choice : Choice core α ο) : MethodType → List (Argument core φ α ο) :=
  let optional := (choice.metadata.map .metadata).toList ++ (choice.options.map .options).toList
  fun
  | .unary => [.argument choice.argument] ++ optional ++ [.callback choice.callback]
  | .clientStream => optional ++ [.callback choice.callback]
  | .serverStream => [.argument choice.argument] ++ optional
  | .bidi => optional

/-- The arguments in the old order, with the callback before the optional ones. Methods without a
callback have only one order. -/
def Choice.oldOrder (choice : Choice core α ο) : MethodType → List (Argument core φ α ο) :=
  let optional := match choice.metadata, choice.options with
    | none, none => []
    | some m, none => [.metadata m]
    | none, some o => [.undefined, .options o]
    | some m, some o => [.metadata m, .options o]
  fun
  | .unary => [.argument choice.argument, .callback choice.callback] ++ optional
  | .clientStream => [.callback choice.callback] ++ optional
  | type => choice.newOrder type

/-- The values of the parameters. -/
def Choice.values (choice : Choice core α ο) : MethodType → List (Argument core φ α ο) :=
  let optional := [.metadata (choice.metadata.getD .new),
    (choice.options.map .options).getD .undefined]
  fun
  | .unary => [.argument choice.argument] ++ optional ++ [.callback choice.callback]
  | .clientStream => optional ++ [.callback choice.callback]
  | .serverStream => [.argument choice.argument] ++ optional
  | .bidi => optional

/-! ### ArgueJS -/

/-- `arguejs(signature, arguments)`, with the values of the parameters in their order -/
abbrev Argue (core : Core) (α ο : Type) :=
  (φ : Type) → List (Param core φ α ο) → List (Argument core φ α ο) →
    Except JsError (List (Argument core φ α ο))

/-- Arguments go to parameters one after the other, and only optional parameters get none or
`undefined`. -/
inductive InOrder : List (Param core φ α ο) → List (Argument core φ α ο) → Prop
  | nil : InOrder [] []
  | give {p : Param core φ α ο} {params a args} : a.hasType p.type = true → InOrder params args →
      InOrder (p :: params) (a :: args)
  | undefined {p : Param core φ α ο} {params args} : p.default.isSome = true →
      InOrder params args → InOrder (p :: params) (.undefined :: args)
  | skip {p : Param core φ α ο} {params args} : p.default.isSome = true → InOrder params args →
      InOrder (p :: params) args

/-- What ArgueJS does: it takes the calls in the new order, and others only if the arguments are in
the order of the signature. -/
structure Argue.Documented (argue : Argue core α ο) : Prop where
  newOrder (φ : Type) (type : MethodType) (path : String) (serialize deserialize : φ)
    (choice : Choice core α ο) :
    argue φ (signature type)
        ([.path path, .codec serialize, .codec deserialize] ++ choice.newOrder type) =
      .ok ([.path path, .codec serialize, .codec deserialize] ++ choice.values type)
  inOrder (φ : Type) (params : List (Param core φ α ο)) (args values : List (Argument core φ α ο)) :
    argue φ params args = .ok values → InOrder params args

/-! ### Clients -/

/-- A method of a client: `_.partial(requester_funcs[method_type], path, serialize, deserialize)`,
with the attributes as its properties. -/
structure ClientMethod (φ : Type) where
  type : MethodType
  path : String
  serialize : φ
  deserialize : φ
  attrs : MethodDefinition φ

/-- The request that a method issues: which function has made it, and with which values. -/
structure Request (core : Core) (φ α ο : Type) where
  type : MethodType
  values : List (Argument core φ α ο)

/-- A call of a method -/
def ClientMethod.call (argue : Argue core α ο) (method : ClientMethod φ)
    (args : List (Argument core φ α ο)) : Except JsError (Request core φ α ο) :=
  match argue φ (signature method.type)
      ([.path method.path, .codec method.serialize, .codec method.deserialize] ++ args) with
  | .ok values => .ok ⟨method.type, values⟩
  | .error e => .error e

/-- `class_options` -/
structure ClassOptions where
  deprecatedArgumentOrder : Bool := false

/-- `ServiceClient`, with the methods that its prototype has of its own -/
structure ClientConstructor (φ : Type) where
  prototype : OrderedMap String (ClientMethod φ)
  service : ServiceDefinition φ

/-- `method_func` -/
def methodFunc (attrs : MethodDefinition φ) : ClientMethod φ where
  type := attrs.methodType
  path := attrs.path
  serialize := attrs.requestSerialize
  deserialize := attrs.responseDeserialize
  attrs := attrs

/-- The exception of `deprecated_request_wrap(method_func)`: the table of the wrappers is no
function. -/
def deprecatedRequestWrapError : JsError :=
  .typeError "deprecated_request_wrap is not a function"

/-- The loop over the methods. An assignment to `__proto__` makes no property. -/
def defineMethods (classOptions : ClassOptions) : List (String × MethodDefinition φ) →
    OrderedMap String (ClientMethod φ) → Except JsError (OrderedMap String (ClientMethod φ))
  | [], prototype => .ok prototype
  | (name, attrs) :: methods, prototype =>
      if name.toList.head? = some '$' then .error (.error "Method names cannot start with $")
      else if classOptions.deprecatedArgumentOrder then .error deprecatedRequestWrapError
      else defineMethods classOptions methods
        (if name = "__proto__" then prototype else prototype.put name (methodFunc attrs))

/-- `makeClientConstructor`. The name of the service is any value, and is not used. -/
def makeClientConstructor {σ : Type} (methods : ServiceDefinition φ) (_serviceName : Option σ)
    (classOptions : Option ClassOptions) : Except JsError (ClientConstructor φ) :=
  match defineMethods (classOptions.getD {}) methods.entries .empty with
  | .ok prototype => .ok ⟨prototype, methods⟩
  | .error e => .error e

variable {κ : Type}

/-- The service case of `loadObject` in `protobuf_js_5_common.js`, which passes the options as the
name of the service -/
def ProtobufJs5.loadService (camelCase : String → String) (service : ReflectedService Bool κ)
    (options : Option LoadOptions) : Except JsError (ClientConstructor (Codec κ)) :=
  makeClientConstructor (getProtobufServiceAttrs camelCase service options) options none

/-- The service case of `loadObject` in `protobuf_js_6_common.js`, which does not pass them -/
def ProtobufJs6.loadService (camelCase : String → String)
    (service : ReflectedService (Option Bool) κ) (options : Option LoadOptions) :
    Except JsError (ClientConstructor (Codec κ)) := do
  let serviceAttrs ← getProtobufServiceAttrs camelCase service options
  makeClientConstructor serviceAttrs (none : Option LoadOptions) none

/-- With the definition of a service, a client is made without options. -/
theorem ProtobufJs6.loadService_eq {camelCase : String → String}
    {service : ReflectedService (Option Bool) κ} {options : Option LoadOptions}
    {definition : ServiceDefinition (Codec κ)}
    (h : getProtobufServiceAttrs camelCase service options = .ok definition) :
    loadService camelCase service options =
      makeClientConstructor definition (none : Option LoadOptions) none := by
  rw [loadService, h]
  rfl

/-! ### The two orders -/

variable {argue : Argue core α ο}

/-- A method issues the same request in the old order as another one in the new order. -/
def Reorders (argue : Argue core α ο) (method plain : ClientMethod φ)
    (choice : Choice core α ο) : Prop :=
  method.call argue (choice.oldOrder plain.type) = plain.call argue (choice.newOrder plain.type)

/-- The last argument goes to the last parameter, if there has to be one. -/
theorem InOrder.last {params : List (Param core φ α ο)} {p : Param core φ α ο}
    {args : List (Argument core φ α ο)} (h : InOrder (params ++ [p]) args)
    (hp : p.default = none) : ∃ a, args.getLast? = some a ∧ a.hasType p.type = true := by
  induction params generalizing args with
  | nil =>
      cases h with
      | give hty hrest =>
          cases hrest
          exact ⟨_, rfl, hty⟩
      | undefined hsome _ => simp [hp] at hsome
      | skip hsome _ => simp [hp] at hsome
  | cons q params ih =>
      have hcons : ∀ {a : Argument core φ α ο} {rest},
          (∃ b, rest.getLast? = some b ∧ b.hasType p.type = true) →
          ∃ b, (a :: rest).getLast? = some b ∧ b.hasType p.type = true := by
        rintro a rest ⟨b, hlast, hty⟩
        exact ⟨b, by rw [List.getLast?_cons, hlast]; rfl, hty⟩
      cases h with
      | give _ hrest => exact hcons (ih hrest)
      | undefined _ hrest => exact hcons (ih hrest)
      | skip _ hrest => exact ih hrest

theorem call_newOrder (hargue : argue.Documented) (method : ClientMethod φ)
    (choice : Choice core α ο) : method.call argue (choice.newOrder method.type) =
      .ok ⟨method.type, [.path method.path, .codec method.serialize, .codec method.deserialize] ++
        choice.values method.type⟩ := by
  rw [ClientMethod.call, hargue.newOrder]

/-- A call in which no function comes last, of a method that needs a callback. -/
theorem call_ne_ok (hargue : argue.Documented) {method : ClientMethod φ}
    (htype : method.type = .unary ∨ method.type = .clientStream)
    {args : List (Argument core φ α ο)} {last : Argument core φ α ο}
    (hlast : args.getLast? = some last) (hnot : last.hasType .function = false)
    (request : Request core φ α ο) : method.call argue args ≠ .ok request := by
  intro hok
  unfold ClientMethod.call at hok
  split at hok
  · rename_i values hvalues
    obtain ⟨params, hsignature⟩ : ∃ params : List (Param core φ α ο),
        signature method.type = params ++ [callbackParam] := by
      rcases htype with htype | htype
      · exact ⟨_, by rw [htype]; rfl⟩
      · exact ⟨_, by rw [htype]; rfl⟩
    have hinOrder := hargue.inOrder _ _ _ _ hvalues
    rw [hsignature] at hinOrder
    obtain ⟨a, ha, hty⟩ := hinOrder.last rfl
    rw [List.getLast?_append, hlast, Option.some_or, Option.some.injEq] at ha
    rw [← ha] at hty
    exact absurd (hty.symm.trans hnot) (by simp)
  · exact absurd hok (by simp)

/-- One method: it does not matter which order is used where there is no callback, or nothing
besides it. -/
theorem reorders_self_iff (hargue : argue.Documented) (method : ClientMethod φ)
    (choice : Choice core α ο) : Reorders argue method method choice ↔
      method.type = .serverStream ∨ method.type = .bidi ∨
        choice.metadata = none ∧ choice.options = none := by
  have hcallback : method.type = .unary ∨ method.type = .clientStream →
      ¬ (choice.metadata = none ∧ choice.options = none) →
      ¬ Reorders argue method method choice := by
    intro htype hgiven hreorders
    rw [Reorders, call_newOrder hargue] at hreorders
    -- The callback does not come last.
    obtain ⟨last, hlast, hnot⟩ : ∃ last : Argument core φ α ο,
        (choice.oldOrder method.type).getLast? = some last ∧ last.hasType .function = false := by
      obtain ⟨argument, metadata, options, callback⟩ := choice
      cases options with
      | some o =>
          refine ⟨.options o, ?_, rfl⟩
          rcases htype with htype | htype <;> cases metadata <;>
            simp [Choice.oldOrder, htype]
      | none =>
          cases metadata with
          | none => exact absurd ⟨rfl, rfl⟩ hgiven
          | some m =>
              refine ⟨.metadata m, ?_, rfl⟩
              rcases htype with htype | htype <;> simp [Choice.oldOrder, htype]
    exact call_ne_ok hargue htype hlast hnot _ hreorders
  obtain ⟨type, path, serialize, deserialize, attrs⟩ := method
  cases type with
  | serverStream => exact iff_of_true rfl (.inl rfl)
  | bidi => exact iff_of_true rfl (.inr (.inl rfl))
  | unary | clientStream =>
      by_cases hgiven : choice.metadata = none ∧ choice.options = none
      · obtain ⟨argument, metadata, options, callback⟩ := choice
        obtain ⟨rfl, rfl⟩ := hgiven
        exact iff_of_true rfl (.inr (.inr ⟨rfl, rfl⟩))
      · exact iff_of_false (hcallback (by simp) hgiven) (by simp [hgiven])

/-! ### The option -/

/-- A client is made, and each of its methods reorders its arguments, compared with the method of
the client that is made without the option. -/
def ReordersAll (argue : Argue core α ο) (built : Except JsError (ClientConstructor φ))
    (definition : ServiceDefinition φ) (choice : Choice core α ο) : Prop :=
  ∃ client plain, built = .ok client ∧
    makeClientConstructor definition (none : Option String) none = .ok plain ∧
    ∀ name, (client.prototype.lookup name).isSome = (plain.prototype.lookup name).isSome ∧
      ∀ method plainMethod, client.prototype.lookup name = some method →
        plain.prototype.lookup name = some plainMethod →
        Reorders argue method plainMethod choice

/-- The names of all methods are allowed, and the methods that become properties have no callback,
or the choice is to pass nothing besides it. -/
def Indifferent (definition : ServiceDefinition φ) (choice : Choice core α ο) : Prop :=
  (∀ e ∈ definition.entries, e.1.toList.head? ≠ some '$') ∧
    ∀ e ∈ definition.entries, e.1 ≠ "__proto__" →
      e.2.methodType = .serverStream ∨ e.2.methodType = .bidi ∨
        choice.metadata = none ∧ choice.options = none

/-- With the option, the loop does not get past a method. -/
theorem defineMethods_deprecated (methods : List (String × MethodDefinition φ))
    (prototype prototype' : OrderedMap String (ClientMethod φ)) :
    defineMethods { deprecatedArgumentOrder := true } methods prototype = .ok prototype' ↔
      methods = [] ∧ prototype = prototype' := by
  cases methods with
  | nil => simp [defineMethods]
  | cons method methods =>
      refine iff_of_false (fun h => ?_) (by simp)
      rw [defineMethods] at h
      split at h <;> simp at h

/-- Without it, the methods become properties, -/
theorem defineMethods_eq {methods : List (String × MethodDefinition φ)}
    (h : ∀ e ∈ methods, e.1.toList.head? ≠ some '$') (hnodup : (methods.map Prod.fst).Nodup)
    (prototype : OrderedMap String (ClientMethod φ)) :
    ∃ prototype', defineMethods {} methods prototype = .ok prototype' ∧
      ∀ name, prototype'.lookup name =
        if name = "__proto__" then prototype.lookup name
        else ((OrderedMap.lookupIn name methods).map methodFunc).or (prototype.lookup name) := by
  induction methods generalizing prototype with
  | nil => exact ⟨prototype, rfl, fun name => by simp [OrderedMap.lookupIn]⟩
  | cons e methods ih =>
      obtain ⟨first, attrs⟩ := e
      obtain ⟨hfirst, hrest⟩ := List.forall_mem_cons.mp h
      rw [List.map_cons, List.nodup_cons] at hnodup
      obtain ⟨prototype', hok, hlookup⟩ := ih hrest hnodup.2
        (if first = "__proto__" then prototype else prototype.put first (methodFunc attrs))
      refine ⟨prototype', ?_, fun name => ?_⟩
      · rw [defineMethods, if_neg hfirst, if_neg Bool.false_ne_true]
        exact hok
      · rw [hlookup]
        by_cases hproto : name = "__proto__"
        · rw [if_pos hproto, if_pos hproto]
          split
          · rfl
          · rename_i hne
            rw [OrderedMap.lookup_put_of_ne _ _ (by rw [hproto]; exact Ne.symm hne)]
        · rw [if_neg hproto, if_neg hproto, OrderedMap.lookupIn]
          by_cases hname : first = name
          · have hlater : OrderedMap.lookupIn name methods = none :=
              OrderedMap.lookupIn_eq_none.mpr (hname ▸ hnodup.1)
            rw [if_pos hname, hlater, hname, if_neg hproto, OrderedMap.lookup_put_self]
            rfl
          · rw [if_neg hname]
            split
            · rfl
            · rw [OrderedMap.lookup_put_of_ne _ _ (Ne.symm hname)]

/-- unless one of them has a name that is not allowed. -/
theorem defineMethods_ne_ok {methods : List (String × MethodDefinition φ)}
    {e : String × MethodDefinition φ} (he : e ∈ methods) (hname : e.1.toList.head? = some '$')
    (prototype prototype' : OrderedMap String (ClientMethod φ)) :
    defineMethods {} methods prototype ≠ .ok prototype' := by
  induction methods generalizing prototype with
  | nil => simp at he
  | cons first methods ih =>
      intro hok
      rw [defineMethods] at hok
      split at hok
      · simp at hok
      · rename_i hfirst
        rcases List.mem_cons.mp he with rfl | he
        · exact hfirst hname
        · rw [if_neg Bool.false_ne_true] at hok
          exact ih he _ hok

/-- The constructor is one for the service: its methods are those of the definition. -/
structure ClientConstructor.IsClientOf (client : ClientConstructor φ)
    (definition : ServiceDefinition φ) : Prop where
  service : client.service = definition
  method (name : String) : client.prototype.lookup name =
    if name = "__proto__" then none else (definition.lookup name).map methodFunc

/-- A client is made of every definition with names that are allowed. -/
theorem makeClientConstructor_cases {σ : Type} (definition : ServiceDefinition φ)
    (serviceName : Option σ) :
    ((∀ e ∈ definition.entries, e.1.toList.head? ≠ some '$') ∧ ∃ client,
      makeClientConstructor definition serviceName none = .ok client ∧
      client.IsClientOf definition) ∨
    ((∃ e ∈ definition.entries, e.1.toList.head? = some '$') ∧ ∀ client,
      makeClientConstructor definition serviceName none ≠ .ok client) := by
  unfold makeClientConstructor
  rw [Option.getD_none]
  by_cases hnames : ∀ e ∈ definition.entries, e.1.toList.head? ≠ some '$'
  · obtain ⟨prototype, hok, hlookup⟩ := defineMethods_eq hnames definition.nodup .empty
    rw [hok]
    refine .inl ⟨hnames, _, rfl, rfl, fun name => ?_⟩
    have hempty : (OrderedMap.empty : OrderedMap String (ClientMethod φ)).lookup name = none := rfl
    rw [hlookup, hempty, Option.or_none]
    rfl
  · obtain ⟨e, he, hname⟩ : ∃ e ∈ definition.entries, e.1.toList.head? = some '$' := by
      simpa using hnames
    refine .inr ⟨⟨e, he, hname⟩, fun client hclient => ?_⟩
    split at hclient
    · rename_i prototype hok
      exact defineMethods_ne_ok he hname _ _ hok
    · simp at hclient

/-- Set directly, the option allows no methods. -/
theorem reordersAll_direct_iff {σ : Type} (argue : Argue core α ο)
    (definition : ServiceDefinition φ) (serviceName : Option σ) (choice : Choice core α ο) :
    ReordersAll argue (makeClientConstructor definition serviceName
        (some { deprecatedArgumentOrder := true })) definition choice ↔
      definition.entries = [] := by
  unfold ReordersAll makeClientConstructor
  rw [Option.getD_some, Option.getD_none]
  constructor
  · rintro ⟨client, plain, hclient, -⟩
    split at hclient
    · rename_i prototype hok
      exact ((defineMethods_deprecated _ _ _).mp hok).1
    · simp at hclient
  · intro hempty
    rw [hempty]
    exact ⟨_, _, rfl, rfl, fun name => ⟨rfl, by simp [OrderedMap.lookup, OrderedMap.empty,
      OrderedMap.lookupIn]⟩⟩

/-- A client that is made without the option is compared with itself. -/
theorem reordersAll_plain_iff {σ : Type} (hargue : argue.Documented)
    (definition : ServiceDefinition φ) (serviceName : Option σ) (choice : Choice core α ο) :
    ReordersAll argue (makeClientConstructor definition serviceName none) definition choice ↔
      Indifferent definition choice := by
  have hsame : makeClientConstructor definition serviceName none =
      makeClientConstructor definition (none : Option String) none := rfl
  unfold ReordersAll Indifferent
  rw [hsame]
  rcases makeClientConstructor_cases definition (none : Option String) with
    ⟨hnames, client, hok, hclient⟩ | ⟨⟨e, he, hname⟩, hno⟩
  · rw [and_iff_right hnames, hok]
    have hmethod : ∀ name method, client.prototype.lookup name = some method ↔
        name ≠ "__proto__" ∧ ∃ attrs, (name, attrs) ∈ definition.entries ∧
          methodFunc attrs = method := by
      intro name method
      rw [hclient.method]
      by_cases hproto : name = "__proto__"
      · simp [hproto]
      · rw [if_neg hproto, Option.map_eq_some_iff, and_iff_right hproto]
        simp only [OrderedMap.mem_entries_iff]
    constructor
    · rintro ⟨_, _, hfirst, hsecond, hall⟩ ⟨name, attrs⟩ he hproto
      obtain rfl := Except.ok.inj hfirst
      obtain rfl := Except.ok.inj hsecond
      have hfound := (hmethod name (methodFunc attrs)).mpr ⟨hproto, attrs, he, rfl⟩
      exact (reorders_self_iff hargue _ choice).mp ((hall name).2 _ _ hfound hfound)
    · intro hall
      refine ⟨_, _, rfl, rfl, fun name => ⟨rfl, fun method plain hm hp => ?_⟩⟩
      obtain rfl := Option.some.inj (hm.symm.trans hp)
      obtain ⟨hproto, attrs, he, rfl⟩ := (hmethod name _).mp hm
      exact (reorders_self_iff hargue _ choice).mpr (hall (name, attrs) he hproto)
  · refine iff_of_false ?_ fun h => h.1 e he hname
    rintro ⟨client, -, hclient, -⟩
    exact hno client hclient

/-- **The option never only reorders**: set directly, it allows no methods at all, and in the
options of the loaders it has no effect, so that the methods take the new order. -/
theorem deprecatedOrder_iff {argue : Argue core α ο} (hargue : argue.Documented)
    (camelCase : String → String) (choice : Choice core α ο) :
    (∀ (φ : Type) (definition : ServiceDefinition φ) (serviceName : Option String),
      ReordersAll argue (makeClientConstructor definition serviceName
          (some { deprecatedArgumentOrder := true })) definition choice ↔
        definition.entries = []) ∧
    (∀ (κ : Type) (service : ReflectedService Bool κ) (options : LoadOptions),
      let plain := ProtobufJs5.getProtobufServiceAttrs camelCase service
        (some { options with deprecatedArgumentOrder := false })
      ReordersAll argue (ProtobufJs5.loadService camelCase service
          (some { options with deprecatedArgumentOrder := true })) plain choice ↔
        Indifferent plain choice) ∧
    ∀ (κ : Type) (service : ReflectedService (Option Bool) κ) (options : LoadOptions),
      ∃ plain, ProtobufJs6.getProtobufServiceAttrs camelCase service
          (some { options with deprecatedArgumentOrder := false }) = .ok plain ∧
        (ReordersAll argue (ProtobufJs6.loadService camelCase service
            (some { options with deprecatedArgumentOrder := true })) plain choice ↔
          Indifferent plain choice) := by
  refine ⟨fun φ definition serviceName => ?_, fun κ service options => ?_,
    fun κ service options => ?_⟩
  · exact reordersAll_direct_iff argue definition serviceName choice
  · -- The functions of the methods do not read the option.
    exact reordersAll_plain_iff hargue _ _ choice
  · rcases ProtobufJs6.getProtobufServiceAttrs_cases camelCase service
      (some { options with deprecatedArgumentOrder := false }) with
      ⟨-, attrs, plain, hok, -, -⟩ | ⟨-, hnone, -⟩
    · have hsame : ProtobufJs6.getProtobufServiceAttrs camelCase service
          (some { options with deprecatedArgumentOrder := true }) = .ok plain := hok
      refine ⟨plain, hok, ?_⟩
      rw [ProtobufJs6.loadService_eq hsame]
      exact reordersAll_plain_iff hargue plain _ choice
    · exact absurd hnone (by simp)

/-! ### A function that sorts out the arguments -/

/-- The exception for arguments that are of no use. -/
def wrongArguments : JsError := .error "parameter type mismatch"

/-- A parameter gets the next argument if that leads anywhere, and otherwise its default. -/
def sortOut : List (Param core φ α ο) → List (Argument core φ α ο) →
    Except JsError (List (Argument core φ α ο))
  | [], [] => .ok []
  | [], _ :: _ => .error wrongArguments
  | p :: params, args =>
      let given := match args with
        | [] => .error wrongArguments
        | a :: rest => if a.hasType p.type then (sortOut params rest).map (a :: ·)
            else .error wrongArguments
      let undefined := match p.default, args with
        | some d, .undefined :: rest => (sortOut params rest).map (d :: ·)
        | _, _ => .error wrongArguments
      let skipped := match p.default with
        | some d => (sortOut params args).map (d :: ·)
        | none => .error wrongArguments
      given <|> undefined <|> skipped

/-- A function that does what ArgueJS does. -/
def argueJs (core : Core) (α ο : Type) : Argue core α ο := fun _ => sortOut

theorem orElse_eq_ok {ε β : Type*} {x y : Except ε β} {b : β} (h : (x <|> y) = .ok b) :
    x = .ok b ∨ y = .ok b := by
  cases x with
  | ok _ => exact .inl h
  | error _ => exact .inr h

theorem map_eq_ok {ε β γ : Type*} {x : Except ε β} {f : β → γ} {c : γ} (h : x.map f = .ok c) :
    ∃ b, x = .ok b ∧ f b = c := by
  cases x with
  | ok b => exact ⟨b, rfl, Except.ok.inj h⟩
  | error _ => exact absurd h (by simp [Except.map])

theorem sortOut_inOrder {params : List (Param core φ α ο)}
    {args values : List (Argument core φ α ο)} (h : sortOut params args = .ok values) :
    InOrder params args := by
  induction params generalizing args values with
  | nil =>
      cases args with
      | nil => exact .nil
      | cons a args => exact absurd h (by simp [sortOut])
  | cons p params ih =>
      unfold sortOut at h
      rcases orElse_eq_ok h with hgiven | h
      · split at hgiven
        · simp at hgiven
        · split at hgiven
          · rename_i a rest hty
            obtain ⟨values, hrest, -⟩ := map_eq_ok hgiven
            exact .give hty (ih hrest)
          · simp at hgiven
      · rcases orElse_eq_ok h with hundefined | hskipped
        · split at hundefined
          · rename_i hsome _
            obtain ⟨values, hrest, -⟩ := map_eq_ok hundefined
            exact .undefined (by rw [hsome]; rfl) (ih hrest)
          · simp at hundefined
        · split at hskipped
          · rename_i hsome
            obtain ⟨values, hrest, -⟩ := map_eq_ok hskipped
            exact .skip (by rw [hsome]; rfl) (ih hrest)
          · simp at hskipped

theorem argueJs_documented (core : Core) (α ο : Type) : (argueJs core α ο).Documented where
  newOrder φ type path serialize deserialize choice := by
    obtain ⟨argument, metadata, options, callback⟩ := choice
    cases type <;> cases metadata <;> cases options <;> rfl
  inOrder _ _ _ _ := sortOut_inOrder

/-! ### A service with one method -/

/-- A service with the unary method `Echo` -/
def echoService : ReflectedService Bool Unit where
  name := "Echo"
  parents := ["s", ""]
  methods := [⟨"Echo", false, false, (), ()⟩]
  nodup := by simp

/-- Its definition, as Protobuf.js 5 gives it -/
def echoDefinition : ServiceDefinition (ProtobufJs5.Codec Unit) :=
  ProtobufJs5.getProtobufServiceAttrs id echoService (some {})

/-- A call with metadata -/
def echoChoice : Choice Core.ascii Unit Unit where
  argument := ()
  metadata := some .new
  options := none
  callback := 0

/-- Set directly, the option makes `makeClientConstructor` throw. -/
theorem not_reorders_echo : ¬ ∀ choice : Choice Core.ascii Unit Unit,
    ReordersAll (argueJs Core.ascii Unit Unit) (makeClientConstructor echoDefinition
      (some "s.Echo") (some { deprecatedArgumentOrder := true })) echoDefinition choice := by
  intro h
  obtain ⟨client, -, hclient, -⟩ := h echoChoice
  have hthrows : makeClientConstructor echoDefinition (some "s.Echo")
      (some { deprecatedArgumentOrder := true }) = .error deprecatedRequestWrapError := rfl
  exact absurd (hthrows.symm.trans hclient) (by simp)

/-- In the options of `loadObject`, it does not make the method take the callback first. -/
theorem not_reorders_loaded : ¬ ReordersAll (argueJs Core.ascii Unit Unit)
    (ProtobufJs5.loadService id echoService (some { deprecatedArgumentOrder := true }))
    echoDefinition echoChoice := by
  intro h
  have hindifferent := (((deprecatedOrder_iff (argueJs_documented Core.ascii Unit Unit) id
    echoChoice).2.1 Unit echoService {}).mp h).2
  have hentry : echoDefinition.entries = [("Echo", ProtobufJs5.methodAttrs "/s.Echo/" (some {})
    ⟨"Echo", false, false, (), ()⟩)] := by decide
  rcases hindifferent _ (hentry ▸ List.mem_singleton_self _) (by simp) with
    hserver | hbidi | ⟨hmetadata, -⟩
  · exact absurd hserver (by decide)
  · exact absurd hbidi (by decide)
  · exact absurd hmetadata (by simp [echoChoice])

end GrpcNode.NativeCore
