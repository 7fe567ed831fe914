import GrpcNode.Js.Object
import GrpcNode.NativeCore.ServiceDefinition

/-!
# GrpcNode.NativeCore.AddService

`register` and `addService` of `server.js`.

`addService` registers one method after the other, and what it has registered stays where a later
one is refused. So it is all or nothing only if nothing is registered before the one that is
refused (`allOrNothing_iff`). And the handlers are properties of an ordinary object, for which
two paths are special: a handler under `__proto__` becomes the prototype, and one under
`hasOwnProperty` is in the way of the next call of `register`.
-/

namespace GrpcNode.NativeCore

open GrpcNode.Js

/-! ### The handlers -/

/-- The function of a handler: one of an implementation, bound to it, or a default handler. -/
inductive HandlerFunc (φ : Type*)
  | bound (func : φ) (implementation : Nat)
  | default (type : MethodType)
  deriving DecidableEq

structure Handler (φ : Type*) where
  func : HandlerFunc φ
  serialize : φ
  deserialize : φ
  type : MethodType
  deriving DecidableEq

/-- `handlers`. There is no own property `__proto__`, for an assignment to it sets the
prototype. -/
structure Handlers (φ : Type*) where
  own : OrderedMap String (Handler φ)
  proto : Option (Handler φ)
  lookup_proto : own.lookup "__proto__" = none

namespace Handlers

variable {φ : Type*}

/-- `{}` -/
def empty : Handlers φ := ⟨.empty, none, rfl⟩

/-- `handlers[name] = handler` -/
def put (handlers : Handlers φ) (name : String) (handler : Handler φ) : Handlers φ :=
  if h : name = "__proto__" then { handlers with proto := some handler }
  else {
    own := handlers.own.put name handler
    proto := handlers.proto
    lookup_proto := (OrderedMap.lookup_put_of_ne _ _ (Ne.symm h)).trans handlers.lookup_proto }

/-- `handlers.hasOwnProperty(name)`. A handler has no member of that name, so it is not found in
the prototype. -/
def hasOwnProperty (handlers : Handlers φ) (name : String) : Except JsError Bool :=
  match handlers.own.lookup "hasOwnProperty" with
  | some _ => .error (.typeError "this.handlers.hasOwnProperty is not a function")
  | none => .ok (handlers.own.lookup name).isSome

theorem own_put_proto (handlers : Handlers φ) (handler : Handler φ) :
    (handlers.put "__proto__" handler).own = handlers.own := by
  rw [put, dif_pos rfl]

theorem own_put (handlers : Handlers φ) {name : String} (h : name ≠ "__proto__")
    (handler : Handler φ) : (handlers.put name handler).own = handlers.own.put name handler := by
  rw [put, dif_neg h]

end Handlers

/-- `Server`, without the server of the core -/
structure Server (φ : Type*) where
  handlers : Handlers φ := .empty
  started : Bool := false

variable {φ : Type*}

/-- `register` -/
def Server.register (server : Server φ) (name : String) (handler : HandlerFunc φ)
    (serialize deserialize : φ) (type : MethodType) : Except JsError (Bool × Server φ) :=
  match server.handlers.hasOwnProperty name with
  | .error e => .error e
  | .ok true => .ok (false, server)
  | .ok false =>
      .ok (true, { server with
        handlers := server.handlers.put name ⟨handler, serialize, deserialize, type⟩ })

/-! ### `addService` -/

/-- What a property of an implementation is. -/
inductive ImplementationValue (φ : Type*)
  | undefined
  | function (func : φ)
  | other

/-- An implementation: any object. -/
structure Implementation (φ : Type*) where
  reference : Nat
  get : String → ImplementationValue φ

/-- `_.bind(value, implementation)` -/
def bindTo (implementation : Implementation φ) :
    ImplementationValue φ → Except JsError (HandlerFunc φ)
  | .function func => .ok (.bound func implementation.reference)
  | .undefined | .other => .error (.typeError "Expected a function")

/-- The name by which the second attempt looks for a function: that of a missing property is
`undefined`. -/
def MethodDefinition.originalKey (attrs : MethodDefinition φ) : String :=
  attrs.originalName.getD "undefined"

/-- The choice of `impl`, and the message that is logged, if there is one -/
def chooseImpl (implementation : Implementation φ) (name : String) (attrs : MethodDefinition φ) :
    Except JsError (HandlerFunc φ) × Option String :=
  match implementation.get name with
  | .undefined =>
      /- Handle the case where the method is passed with the name exactly as written in the proto
      file, instead of using JavaScript function naming style -/
      match implementation.get attrs.originalKey with
      | .undefined =>
          (.ok (.default attrs.methodType),
            some ("Method handler " ++ name ++ " for " ++ attrs.path ++
              " expected but not provided"))
      | value => (bindTo implementation value, none)
  | value => (bindTo implementation value, none)

/-- What `addService` leaves when it returns or throws. -/
structure Added (φ : Type*) where
  server : Server φ
  /-- The messages for `common.log`, all of severity `ERROR` -/
  log : List String
  thrown : Option JsError

/-- The loop over the methods -/
def addMethods (implementation : Implementation φ) :
    List (String × MethodDefinition φ) → Server φ → Added φ
  | [], server => ⟨server, [], none⟩
  | (name, attrs) :: methods, server =>
      let (impl, message) := chooseImpl implementation name attrs
      match impl with
      | .error e => ⟨server, message.toList, some e⟩
      | .ok impl =>
          match server.register attrs.path impl attrs.responseSerialize attrs.requestDeserialize
              attrs.methodType with
          | .error e => ⟨server, message.toList, some e⟩
          | .ok (false, server) =>
              ⟨server, message.toList,
                some (.error ("Method handler for " ++ attrs.path ++ " already provided."))⟩
          | .ok (true, server) =>
              let rest := addMethods implementation methods server
              { rest with log := message.toList ++ rest.log }

/-- `addService`, of two values that are `none` if they are not objects -/
def Server.addService (server : Server φ) (service : Option (ServiceDefinition φ))
    (implementation : Option (Implementation φ)) : Added φ :=
  match service, implementation with
  | some service, some implementation =>
      if service.keys.length = 0 then
        ⟨server, [], some (.error "Cannot add an empty service to a server")⟩
      else if server.started then
        ⟨server, [], some (.error "Can't add a service to a started server.")⟩
      else addMethods implementation service.entries server
  | _, _ => ⟨server, [], some (.error "addService requires two objects as arguments")⟩

/-! ### One method -/

/-- The handler chosen for a method: the implementation under its name, else under its original
name, else the default. -/
structure Chosen (implementation : Implementation φ) (name : String) (attrs : MethodDefinition φ)
    (handler : Handler φ) : Prop where
  func :
    (∃ func, implementation.get name = .function func ∧
      handler.func = .bound func implementation.reference) ∨
    implementation.get name = .undefined ∧
      ((∃ func, implementation.get attrs.originalKey = .function func ∧
        handler.func = .bound func implementation.reference) ∨
      implementation.get attrs.originalKey = .undefined ∧ handler.func = .default attrs.methodType)
  serialize : handler.serialize = attrs.responseSerialize
  deserialize : handler.deserialize = attrs.requestDeserialize
  type : handler.type = attrs.methodType

/-- The value for a method is there, but is no function. -/
def Uncallable (implementation : Implementation φ) (name : String)
    (attrs : MethodDefinition φ) : Prop :=
  implementation.get name = .other ∨
    implementation.get name = .undefined ∧ implementation.get attrs.originalKey = .other

/-- A method that cannot be registered. -/
def Refused (server : Server φ) (implementation : Implementation φ)
    (method : String × MethodDefinition φ) : Prop :=
  Uncallable implementation method.1 method.2 ∨
    server.handlers.own.lookup "hasOwnProperty" ≠ none ∨
    server.handlers.own.lookup method.2.path ≠ none

variable {implementation : Implementation φ} {name : String} {attrs : MethodDefinition φ}
  {server : Server φ}

theorem chooseImpl_cases (implementation : Implementation φ) (name : String)
    (attrs : MethodDefinition φ) :
    (Uncallable implementation name attrs ∧ ∃ e message,
      chooseImpl implementation name attrs = (.error e, message)) ∨
    (¬ Uncallable implementation name attrs ∧ ∃ func message,
      chooseImpl implementation name attrs = (.ok func, message) ∧
      Chosen implementation name attrs
        ⟨func, attrs.responseSerialize, attrs.requestDeserialize, attrs.methodType⟩) := by
  unfold chooseImpl Uncallable
  cases hname : implementation.get name with
  | other => exact .inl ⟨.inl rfl, _, _, rfl⟩
  | function func =>
      exact .inr ⟨by simp, _, _, rfl, .inl ⟨func, hname, rfl⟩, rfl, rfl, rfl⟩
  | undefined =>
      cases horiginal : implementation.get attrs.originalKey with
      | other => exact .inl ⟨.inr ⟨rfl, rfl⟩, _, _, rfl⟩
      | function func =>
          exact .inr ⟨by simp, _, _, rfl, .inr ⟨hname, .inl ⟨func, horiginal, rfl⟩⟩, rfl, rfl, rfl⟩
      | undefined =>
          exact .inr ⟨by simp, _, _, rfl, .inr ⟨hname, .inr ⟨horiginal, rfl⟩⟩, rfl, rfl, rfl⟩

/-- The server after a method has been registered. -/
def Server.registered (server : Server φ) (path : String) (handler : Handler φ) : Server φ :=
  { server with handlers := server.handlers.put path handler }

/-- A method that is refused ends the loop. -/
theorem addMethods_of_refused {method : String × MethodDefinition φ}
    (h : Refused server implementation method) (methods : List (String × MethodDefinition φ)) :
    (addMethods implementation (method :: methods) server).server = server ∧
      (addMethods implementation (method :: methods) server).thrown ≠ none := by
  obtain ⟨name, attrs⟩ := method
  rw [addMethods]
  rcases chooseImpl_cases implementation name attrs with
    ⟨-, e, message, hchoose⟩ | ⟨hcallable, func, message, hchoose, -⟩
  · rw [hchoose]
    exact ⟨rfl, by simp⟩
  · rw [hchoose]
    unfold Server.register Handlers.hasOwnProperty
    cases hshadow : server.handlers.own.lookup "hasOwnProperty" with
    | some handler => exact ⟨rfl, by simp⟩
    | none =>
        rcases h with h | h | h
        · exact absurd h hcallable
        · exact absurd hshadow h
        · obtain ⟨handler, hhandler⟩ := Option.ne_none_iff_exists'.mp h
          simp [hhandler]

/-- A method that is not refused is registered before the others. -/
theorem addMethods_of_not_refused {method : String × MethodDefinition φ}
    (h : ¬ Refused server implementation method) :
    ∃ handler, Chosen implementation method.1 method.2 handler ∧
      ∀ methods : List (String × MethodDefinition φ),
        (addMethods implementation (method :: methods) server).server =
          (addMethods implementation methods (server.registered method.2.path handler)).server ∧
        (addMethods implementation (method :: methods) server).thrown =
          (addMethods implementation methods (server.registered method.2.path handler)).thrown := by
  obtain ⟨name, attrs⟩ := method
  simp only [Refused, not_or, not_not] at h
  rcases chooseImpl_cases implementation name attrs with
    ⟨hcallable, -⟩ | ⟨-, func, message, hchoose, hchosen⟩
  · exact absurd hcallable h.1
  · refine ⟨_, hchosen, fun methods => ?_⟩
    rw [addMethods, hchoose]
    unfold Server.register Handlers.hasOwnProperty
    rw [h.2.1, h.2.2]
    exact ⟨rfl, rfl⟩

/-- What is registered stays registered. -/
theorem lookup_addMethods {methods : List (String × MethodDefinition φ)} {path : String}
    (h : server.handlers.own.lookup path ≠ none) :
    (addMethods implementation methods server).server.handlers.own.lookup path =
      server.handlers.own.lookup path := by
  induction methods generalizing server with
  | nil => rfl
  | cons method methods ih =>
      by_cases hrefused : Refused server implementation method
      · rw [(addMethods_of_refused hrefused methods).1]
      · obtain ⟨handler, -, hrest⟩ := addMethods_of_not_refused hrefused
        have hpath : path ≠ method.2.path := by
          intro heq
          exact hrefused (.inr (.inr (heq ▸ h)))
        have hkept : (server.registered method.2.path handler).handlers.own.lookup path =
            server.handlers.own.lookup path := by
          unfold Server.registered
          by_cases hproto : method.2.path = "__proto__"
          · rw [hproto, Handlers.own_put_proto]
          · rw [Handlers.own_put _ hproto, OrderedMap.lookup_put_of_ne _ _ hpath]
        rw [(hrest methods).1, ih (hkept ▸ h), hkept]

/-! ### All methods -/

/-- The paths of some methods. -/
def pathsOf (methods : List (String × MethodDefinition φ)) : List String :=
  methods.map fun method => method.2.path

/-- All methods can be registered, and each gets a binding. -/
structure Registrable (server : Server φ) (implementation : Implementation φ)
    (methods : List (String × MethodDefinition φ)) : Prop where
  callable : ∀ method ∈ methods, ¬ Uncallable implementation method.1 method.2
  new : ∀ path ∈ pathsOf methods, server.handlers.own.lookup path = none
  distinct : (pathsOf methods).Nodup
  ordinary : "__proto__" ∉ pathsOf methods
  accessible : methods ≠ [] → server.handlers.own.lookup "hasOwnProperty" = none
  last : "hasOwnProperty" ∉ (pathsOf methods).dropLast

/-- Some method is refused, and nothing before it gets a binding. -/
def RefusedFirst (server : Server φ) (implementation : Implementation φ)
    (methods : List (String × MethodDefinition φ)) : Prop :=
  ∃ pre method post, methods = pre ++ method :: post ∧
    (∀ path ∈ pathsOf pre, path = "__proto__") ∧ Refused server implementation method

variable {method : String × MethodDefinition φ} {methods : List (String × MethodDefinition φ)}

theorem registrable_nil : Registrable server implementation [] :=
  ⟨by simp, by simp [pathsOf], by simp [pathsOf], by simp [pathsOf], by simp, by simp [pathsOf]⟩

theorem Registrable.not_refused (h : Registrable server implementation (method :: methods)) :
    ¬ Refused server implementation method := by
  rintro (hcallable | hshadow | hnew)
  · exact h.callable method (.head _) hcallable
  · exact hshadow (h.accessible (List.cons_ne_nil _ _))
  · exact hnew (h.new _ (.head _))

theorem registrable_cons_iff (handler : Handler φ) :
    Registrable server implementation (method :: methods) ↔
      ¬ Refused server implementation method ∧ method.2.path ≠ "__proto__" ∧
        Registrable (server.registered method.2.path handler) implementation methods := by
  have hlookup : method.2.path ≠ "__proto__" → ∀ path,
      (server.registered method.2.path handler).handlers.own.lookup path =
        if path = method.2.path then some handler else server.handlers.own.lookup path := by
    intro hordinary path
    rw [Server.registered, Handlers.own_put _ hordinary]
    by_cases hpath : path = method.2.path
    · rw [if_pos hpath, hpath, OrderedMap.lookup_put_self]
    · rw [if_neg hpath, OrderedMap.lookup_put_of_ne _ _ hpath]
  constructor
  · intro h
    have hordinary : method.2.path ≠ "__proto__" := fun heq => h.ordinary (heq ▸ .head _)
    obtain ⟨hpath, hdistinct⟩ := List.nodup_cons.mp h.distinct
    refine ⟨h.not_refused, hordinary, ⟨fun m hm => h.callable m (.tail _ hm), fun path hmem => ?_,
      hdistinct, fun hmem => h.ordinary (.tail _ hmem), fun hne => ?_, fun hmem => h.last ?_⟩⟩
    · have hne : path ≠ method.2.path := by
        rintro rfl
        exact hpath hmem
      rw [hlookup hordinary, if_neg hne]
      exact h.new path (.tail _ hmem)
    · -- There is another method, so the path of this one is not the last.
      have hfirst : "hasOwnProperty" ≠ method.2.path := by
        intro heq
        refine h.last ?_
        cases methods with
        | nil => exact absurd rfl hne
        | cons next methods => exact heq ▸ .head _
      rw [hlookup hordinary, if_neg hfirst]
      exact h.accessible (List.cons_ne_nil _ _)
    · cases methods with
      | nil => exact absurd hmem (by simp [pathsOf])
      | cons next methods => exact .tail _ hmem
  · rintro ⟨hrefused, hordinary, h⟩
    simp only [Refused, not_or, not_not] at hrefused
    have hpath : method.2.path ∉ pathsOf methods := by
      intro hmem
      have hnone := h.new _ hmem
      rw [hlookup hordinary, if_pos rfl] at hnone
      exact absurd hnone (by simp)
    refine ⟨List.forall_mem_cons.mpr ⟨hrefused.1, h.callable⟩,
      List.forall_mem_cons.mpr ⟨hrefused.2.2, fun path hmem => ?_⟩,
      List.nodup_cons.mpr ⟨hpath, h.distinct⟩, ?_, fun _ => hrefused.2.1, ?_⟩
    · have hne : path ≠ method.2.path := by
        rintro rfl
        exact hpath hmem
      have hnone := h.new path hmem
      rwa [hlookup hordinary, if_neg hne] at hnone
    · intro hmem
      rcases List.mem_cons.mp hmem with heq | hmem
      · exact hordinary heq.symm
      · exact h.ordinary hmem
    · intro hmem
      cases methods with
      | nil => exact absurd hmem (by simp [pathsOf])
      | cons next methods =>
          rcases List.mem_cons.mp hmem with heq | hmem
          · have hshadow := h.accessible (List.cons_ne_nil _ _)
            rw [hlookup hordinary, if_pos heq] at hshadow
            exact absurd hshadow (by simp)
          · exact h.last hmem

theorem refusedFirst_cons_iff :
    RefusedFirst server implementation (method :: methods) ↔
      Refused server implementation method ∨
        method.2.path = "__proto__" ∧ RefusedFirst server implementation methods := by
  constructor
  · rintro ⟨pre, refused, post, heq, hpre, hrefused⟩
    cases pre with
    | nil =>
        obtain ⟨rfl, -⟩ := List.cons.inj heq
        exact .inl hrefused
    | cons first pre =>
        obtain ⟨rfl, rfl⟩ := List.cons.inj heq
        exact .inr ⟨hpre _ (.head _), pre, refused, post, rfl,
          fun path hmem => hpre path (.tail _ hmem), hrefused⟩
  · rintro (hrefused | ⟨hproto, pre, refused, post, rfl, hpre, hrefused⟩)
    · exact ⟨[], method, methods, rfl, by simp [pathsOf], hrefused⟩
    · exact ⟨method :: pre, refused, post, rfl, List.forall_mem_cons.mpr ⟨hproto, hpre⟩, hrefused⟩

/-- The loop gets through, and has bound all paths. -/
theorem thrown_eq_none_iff :
    (addMethods implementation methods server).thrown = none ∧ "__proto__" ∉ pathsOf methods ↔
      Registrable server implementation methods := by
  induction methods generalizing server with
  | nil => exact iff_of_true ⟨rfl, by simp [pathsOf]⟩ registrable_nil
  | cons method methods ih =>
      by_cases hrefused : Refused server implementation method
      · exact iff_of_false (fun h => (addMethods_of_refused hrefused methods).2 h.1) fun h =>
          h.not_refused hrefused
      · obtain ⟨handler, -, hrest⟩ := addMethods_of_not_refused hrefused
        rw [registrable_cons_iff handler, ← ih, (hrest methods).2]
        simp only [pathsOf, List.map_cons, List.mem_cons, not_or]
        constructor
        · rintro ⟨hthrown, hproto, hpaths⟩
          exact ⟨hrefused, Ne.symm hproto, hthrown, hpaths⟩
        · rintro ⟨-, hproto, hthrown, hpaths⟩
          exact ⟨hthrown, Ne.symm hproto, hpaths⟩

/-- Each path of the service is bound to the handler chosen for its method, and other bindings
are as they were. -/
structure Bound (server : Server φ) (implementation : Implementation φ)
    (methods : List (String × MethodDefinition φ)) (after : Server φ) : Prop where
  chosen : ∀ method ∈ methods, ∃ handler, Chosen implementation method.1 method.2 handler ∧
    after.handlers.own.lookup method.2.path = some handler
  others : ∀ path, path ∉ pathsOf methods →
    after.handlers.own.lookup path = server.handlers.own.lookup path

theorem Registrable.bound (h : Registrable server implementation methods) :
    Bound server implementation methods (addMethods implementation methods server).server := by
  induction methods generalizing server with
  | nil => exact ⟨by simp, fun _ _ => rfl⟩
  | cons method methods ih =>
      obtain ⟨handler, hchosen, hrest⟩ := addMethods_of_not_refused h.not_refused
      obtain ⟨-, hordinary, h⟩ := (registrable_cons_iff handler).mp h
      have hown : (server.registered method.2.path handler).handlers.own =
          server.handlers.own.put method.2.path handler := Handlers.own_put _ hordinary _
      have hself : (server.registered method.2.path handler).handlers.own.lookup method.2.path =
          some handler := by rw [hown, OrderedMap.lookup_put_self]
      rw [(hrest methods).1]
      refine ⟨List.forall_mem_cons.mpr ⟨⟨handler, hchosen, ?_⟩, (ih h).chosen⟩, fun path hpath => ?_⟩
      · rw [lookup_addMethods (by simp [hself]), hself]
      · rw [pathsOf, List.map_cons, List.mem_cons, not_or] at hpath
        rw [(ih h).others path hpath.2, hown, OrderedMap.lookup_put_of_ne _ _ hpath.1]

theorem bound_iff :
    (addMethods implementation methods server).thrown = none ∧
        Bound server implementation methods (addMethods implementation methods server).server ↔
      Registrable server implementation methods := by
  constructor
  · rintro ⟨hthrown, hbound⟩
    refine thrown_eq_none_iff.mp ⟨hthrown, fun hproto => ?_⟩
    obtain ⟨method, hmethod, hpath⟩ := List.mem_map.mp hproto
    obtain ⟨handler, -, hhandler⟩ := hbound.chosen method hmethod
    rw [hpath, Handlers.lookup_proto] at hhandler
    exact absurd hhandler (by simp)
  · exact fun h => ⟨(thrown_eq_none_iff.mpr h).1, h.bound⟩

/-- The loop throws, and has bound nothing. -/
theorem unchanged_iff :
    (addMethods implementation methods server).thrown ≠ none ∧
        (addMethods implementation methods server).server.handlers.own = server.handlers.own ↔
      RefusedFirst server implementation methods := by
  induction methods generalizing server with
  | nil => exact iff_of_false (fun h => h.1 rfl) (by simp [RefusedFirst])
  | cons method methods ih =>
      rw [refusedFirst_cons_iff]
      by_cases hrefused : Refused server implementation method
      · obtain ⟨hserver, hthrown⟩ := addMethods_of_refused hrefused methods
        exact iff_of_true ⟨hthrown, by rw [hserver]⟩ (.inl hrefused)
      · obtain ⟨handler, -, hrest⟩ := addMethods_of_not_refused hrefused
        rw [(hrest methods).1, (hrest methods).2]
        by_cases hproto : method.2.path = "__proto__"
        · rw [and_iff_right hproto]
          have hown : (server.registered method.2.path handler).handlers.own =
              server.handlers.own := by
            rw [hproto]
            exact Handlers.own_put_proto _ _
          have hsame : ∀ m, Refused (server.registered method.2.path handler) implementation m ↔
              Refused server implementation m := by
            intro m
            unfold Refused
            rw [hown]
          rw [← hown, ih]
          unfold RefusedFirst
          simp only [hsame, hrefused, false_or]
        · -- The method keeps its binding, which was not there before.
          have hself : (server.registered method.2.path handler).handlers.own.lookup
              method.2.path = some handler := by
            rw [Server.registered, Handlers.own_put _ hproto, OrderedMap.lookup_put_self]
          refine iff_of_false (fun h => hrefused (.inr (.inr ?_))) (by simp [hrefused, hproto])
          rw [← h.2, lookup_addMethods (by simp [hself]), hself]
          simp

/-! ### All or nothing -/

/-- Either `addService` returns, and the service is bound, or it throws, and the handlers are
what they were. -/
def AllOrNothing (server : Server φ) (service : Option (ServiceDefinition φ))
    (implementation : Option (Implementation φ)) : Prop :=
  ((server.addService service implementation).thrown = none ∧
    ∃ definition object, service = some definition ∧ implementation = some object ∧
      Bound server object definition.entries (server.addService service implementation).server) ∨
  ((server.addService service implementation).thrown ≠ none ∧
    (server.addService service implementation).server.handlers.own = server.handlers.own)

/-- No method is tried; or all can be registered; or nothing is registered before the one that is
refused. -/
def Undivided (server : Server φ) :
    Option (ServiceDefinition φ) → Option (Implementation φ) → Prop
  | some service, some implementation =>
      service.entries = [] ∨ server.started = true ∨
        Registrable server implementation service.entries ∨
        RefusedFirst server implementation service.entries
  | _, _ => True

/-- **`addService` is all or nothing exactly if it does not have to stop half-way.** -/
theorem allOrNothing_iff (server : Server φ) (service : Option (ServiceDefinition φ))
    (implementation : Option (Implementation φ)) :
    AllOrNothing server service implementation ↔ Undivided server service implementation := by
  cases service with
  | none => exact iff_of_true (.inr ⟨by simp [Server.addService], rfl⟩) trivial
  | some service =>
    cases implementation with
    | none => exact iff_of_true (.inr ⟨by simp [Server.addService], rfl⟩) trivial
    | some implementation =>
        unfold AllOrNothing Undivided Server.addService
        by_cases hempty : service.entries = []
        · have hlength : service.keys.length = 0 := by simp [OrderedMap.keys, hempty]
          dsimp only
          rw [if_pos hlength]
          exact iff_of_true (.inr ⟨by simp, rfl⟩) (.inl hempty)
        · have hlength : service.keys.length ≠ 0 := by simp [OrderedMap.keys, hempty]
          dsimp only
          rw [if_neg hlength]
          by_cases hstarted : server.started = true
          · rw [if_pos hstarted]
            exact iff_of_true (.inr ⟨by simp, rfl⟩) (.inr (.inl hstarted))
          · rw [if_neg hstarted, ← bound_iff, ← unchanged_iff]
            simp [hempty, hstarted]

/-- A definition of two unary methods, with these paths. -/
def twoMethods (first second : String) : ServiceDefinition Nat where
  entries := [("first", ⟨none, first, false, false, 0, 0, 0, 0⟩),
    ("second", ⟨none, second, false, false, 0, 0, 0, 0⟩)]
  nodup := by simp

/-- The second method has the path of the first. The first stays. -/
theorem not_allOrNothing_samePath :
    ¬ ∀ (server : Server Nat) (service : Option (ServiceDefinition Nat))
      (implementation : Option (Implementation Nat)),
      AllOrNothing server service implementation := by
  intro h
  rcases h {} (some (twoMethods "/s/m" "/s/m")) (some ⟨0, fun _ => .function 1⟩) with h | h
  · exact absurd h.1 (by decide)
  · have hnone := congrArg (fun own => own.lookup "/s/m") h.2
    exact absurd hnone (by decide)

end GrpcNode.NativeCore
