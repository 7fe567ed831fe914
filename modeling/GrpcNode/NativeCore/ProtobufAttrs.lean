import GrpcNode.NativeCore.AddService

/-!
# GrpcNode.NativeCore.ProtobufAttrs

`getProtobufServiceAttrs` of `protobuf_js_5_common.js` and of `protobuf_js_6_common.js`: from a
reflected service to the definition that clients and servers use.

The keys of the definition are the names of the methods in camel case, and two names can have the
same. Then the second method takes the place of the first (`keepsMethods_iff`).

Protobuf.js itself is not here. Its classes are values of a type, and the functions that convert
messages are told by what they have been made from. Neither is the `camelCase` of lodash, which
may be any function.
-/

namespace GrpcNode.NativeCore

open GrpcNode.Js

/-! ### What is reflected -/

/-- A method of a service. The type of its flags depends on the version of Protobuf.js. -/
structure ReflectedMethod (flag κ : Type*) where
  name : String
  requestStream : flag
  responseStream : flag
  resolvedRequestType : κ
  resolvedResponseType : κ

/-- A service, with the names of the namespaces that it is in, the innermost first. -/
structure ReflectedService (flag κ : Type*) where
  name : String
  parents : List String
  methods : List (ReflectedMethod flag κ)
  nodup : (methods.map ReflectedMethod.name).Nodup

/-- `fullyQualifiedName`, of a value given by its name and the names of its parents -/
def fullyQualifiedName : List String → String
  | [] => ""
  | name :: parents =>
      let parentName := fullyQualifiedName parents
      if parentName ≠ "" then parentName ++ "." ++ name else name

/-- The options of the loaders, as far as they are truthy. -/
structure LoadOptions where
  binaryAsBase64 : Bool := false
  longsAsStrings : Bool := false
  enumsAsStrings : Bool := false
  deprecatedArgumentOrder : Bool := false
  deriving DecidableEq

/-- `'/' + fullyQualifiedName(service) + '/'` -/
def ReflectedService.pathPrefix {flag κ : Type*} (service : ReflectedService flag κ) : String :=
  "/" ++ fullyQualifiedName (service.name :: service.parents) ++ "/"

/-! ### Protobuf.js 5 -/

namespace ProtobufJs5

/-- The arguments of `toRaw` -/
structure RawOptions where
  binaryAsBase64 : Bool
  longsAsStrings : Bool
  deriving DecidableEq

/-- A function that `serializeCls` or `deserializeCls` returns. -/
inductive Codec (κ : Type*)
  | serialize (cls : κ)
  /-- It reads the options only when it is called, and throws then if there are none. -/
  | deserialize (cls : κ) (options : Option RawOptions)
  deriving DecidableEq

variable {κ : Type*} (camelCase : String → String)

def serializeCls (cls : κ) : Codec κ := .serialize cls

def deserializeCls (cls : κ) (options : Option LoadOptions) : Codec κ :=
  .deserialize cls (options.map fun options => ⟨options.binaryAsBase64, options.longsAsStrings⟩)

/-- The attributes of one method -/
def methodAttrs (pathPrefix : String) (options : Option LoadOptions)
    (method : ReflectedMethod Bool κ) : MethodDefinition (Codec κ) where
  originalName := some method.name
  path := pathPrefix ++ method.name
  requestStream := method.requestStream
  responseStream := method.responseStream
  requestSerialize := serializeCls method.resolvedRequestType
  requestDeserialize := deserializeCls method.resolvedRequestType options
  responseSerialize := serializeCls method.resolvedResponseType
  responseDeserialize := deserializeCls method.resolvedResponseType options

/-- `getProtobufServiceAttrs` -/
def getProtobufServiceAttrs (service : ReflectedService Bool κ) (options : Option LoadOptions) :
    ServiceDefinition (Codec κ) :=
  .ofPairs ((service.methods.map fun method => camelCase method.name).zip
    (service.methods.map (methodAttrs service.pathPrefix options)))

end ProtobufJs5

/-! ### Protobuf.js 6 -/

namespace ProtobufJs6

/-- What `bytes` fields are converted to -/
inductive BytesAs
  | string
  | buffer
  deriving DecidableEq

/-- `conversion_options`. Numbers are not converted to strings where there is `null`. -/
structure ConversionOptions where
  defaults : Bool := true
  bytes : BytesAs
  longsAsStrings : Bool
  enumsAsStrings : Bool
  oneofs : Bool := true
  deriving DecidableEq

/-- A function that `serializeCls` or `deserializeCls` returns. -/
inductive Codec (κ : Type*)
  | serialize (cls : κ)
  | deserialize (cls : κ) (options : ConversionOptions)
  deriving DecidableEq

variable {κ : Type*} (camelCase : String → String)

def serializeCls (cls : κ) : Codec κ := .serialize cls

/-- `deserializeCls`, which reads the options at once -/
def deserializeCls (cls : κ) : Option LoadOptions → Except JsError (Codec κ)
  | none => .error (.typeError "Cannot read property 'binaryAsBase64' of undefined")
  | some options => .ok (.deserialize cls {
      bytes := if options.binaryAsBase64 then .string else .buffer
      longsAsStrings := options.longsAsStrings
      enumsAsStrings := options.enumsAsStrings })

/-- `!!flag`, where a flag that is not set is `undefined` -/
def truthy (flag : Option Bool) : Bool := flag.getD false

/-- The attributes of one method -/
def methodAttrs (pathPrefix : String) (options : Option LoadOptions)
    (method : ReflectedMethod (Option Bool) κ) : Except JsError (MethodDefinition (Codec κ)) := do
  let requestDeserialize ← deserializeCls method.resolvedRequestType options
  let responseDeserialize ← deserializeCls method.resolvedResponseType options
  return {
    originalName := some method.name
    path := pathPrefix ++ method.name
    requestStream := truthy method.requestStream
    responseStream := truthy method.responseStream
    requestSerialize := serializeCls method.resolvedRequestType
    requestDeserialize
    responseSerialize := serializeCls method.resolvedResponseType
    responseDeserialize }

/-- `getProtobufServiceAttrs`, of a service for which `resolveAll` finds all types -/
def getProtobufServiceAttrs (service : ReflectedService (Option Bool) κ)
    (options : Option LoadOptions) : Except JsError (ServiceDefinition (Codec κ)) := do
  let attrs ← service.methods.mapM (methodAttrs service.pathPrefix options)
  return .ofPairs ((service.methods.map fun method => camelCase method.name).zip attrs)

end ProtobufJs6

/-! ### The name of a service -/

/-- The names of the namespaces and of the service with dots between them, without the empty
ones at the beginning: the root has no name. -/
def dottedName (names : List String) : String :=
  String.intercalate "." (names.dropWhile fun name => name = "")

theorem intercalate_eq_empty_iff {names : List String} (h : names.head? ≠ some "") :
    String.intercalate "." names = "" ↔ names = [] := by
  cases names with
  | nil => simp
  | cons first names =>
      have hfirst : first ≠ "" := fun heq => h (by rw [heq]; rfl)
      cases names with
      | nil => simpa using hfirst
      | cons second names => simp [String.intercalate_cons_cons, String.append_eq_empty_iff]

/-- The recursion over the parents gives the dotted name. -/
theorem fullyQualifiedName_eq (chain : List String) :
    fullyQualifiedName chain = dottedName chain.reverse := by
  induction chain with
  | nil => rfl
  | cons name parents ih =>
      rw [fullyQualifiedName, ih, dottedName, dottedName, List.reverse_cons, List.dropWhile_append]
      cases hdrop : parents.reverse.dropWhile fun n => n = "" with
      | nil =>
          by_cases hname : name = ""
          · simp [hname]
          · simp [hname]
      | cons first rest =>
          have hfirst : first ≠ "" := by
            intro heq
            have hnot := List.head?_dropWhile_not (fun n : String => decide (n = ""))
              parents.reverse
            rw [hdrop] at hnot
            simp [heq] at hnot
          have hne : String.intercalate "." (first :: rest) ≠ "" := by
            rw [ne_eq, intercalate_eq_empty_iff (by simpa using hfirst)]
            simp
          rw [if_pos hne, List.isEmpty_cons, if_neg (by simp),
            String.intercalate_append_of_ne_nil (by simp) (by simp)]
          simp

/-- The path of a method: the dotted name of the service, and the name of the method. -/
def ReflectedService.methodPath {flag κ : Type*} (service : ReflectedService flag κ)
    (name : String) : String :=
  "/" ++ dottedName (service.name :: service.parents).reverse ++ "/" ++ name

section

variable {flag κ φ : Type*} {service : ReflectedService flag κ}

theorem pathPrefix_append (service : ReflectedService flag κ) (name : String) :
    service.pathPrefix ++ name = service.methodPath name := by
  rw [ReflectedService.pathPrefix, fullyQualifiedName_eq]
  rfl

theorem methodPath_injective (service : ReflectedService flag κ) {name name' : String}
    (h : service.methodPath name = service.methodPath name') : name = name' := by
  have hlist := congrArg String.toList h
  simp only [ReflectedService.methodPath, String.toList_append] at hlist
  exact String.toList_inj.mp (List.append_cancel_left hlist)

/-- A path begins with a slash. -/
theorem methodPath_ne (service : ReflectedService flag κ) (name : String) {s : String}
    (hs : s.toList.head? ≠ some '/') : service.methodPath name ≠ s := by
  rintro rfl
  refine hs ?_
  simp [ReflectedService.methodPath, String.toList_append]

/-- There is only one method of a name. -/
theorem eq_of_name_eq {m m' : ReflectedMethod flag κ} (hm : m ∈ service.methods)
    (hm' : m' ∈ service.methods) (h : m.name = m'.name) : m = m' :=
  List.inj_on_of_nodup_map service.nodup hm hm' h

/-! ### The methods that are kept -/

/-- What a definition says about a method: its path, and its flags, as `truthy` reads them. -/
structure Describes (service : ReflectedService flag κ) (truthy : flag → Bool)
    (method : ReflectedMethod flag κ) (attrs : MethodDefinition φ) : Prop where
  path : attrs.path = service.methodPath method.name
  requestStream : attrs.requestStream = truthy method.requestStream
  responseStream : attrs.responseStream = truthy method.responseStream

/-- Every method of the service is in the definition, and `addService` registers it on a new
server, whatever functions the implementation has. -/
structure KeepsMethods (service : ReflectedService flag κ) (truthy : flag → Bool)
    (definition : ServiceDefinition φ) : Prop where
  entries : ∀ method ∈ service.methods, ∃ e ∈ definition.entries,
    Describes service truthy method e.2
  registered : ∀ implementation : Implementation φ,
    (∀ e ∈ definition.entries, ¬ Uncallable implementation e.1 e.2) →
    ∀ method ∈ service.methods, ∃ e ∈ definition.entries, ∃ handler,
      Describes service truthy method e.2 ∧ Chosen implementation e.1 e.2 handler ∧
      (Server.addService {} (some definition) (some implementation)).server.handlers.own.lookup
        (service.methodPath method.name) = some handler

/-- Nothing is in the definition but what describes a method, under its name in camel case. -/
def FromMethods (camelCase : String → String) (service : ReflectedService flag κ)
    (attrs : ReflectedMethod flag κ → MethodDefinition φ) (definition : ServiceDefinition φ) :
    Prop :=
  definition = .ofPairs (service.methods.map fun method => (camelCase method.name, attrs method))

variable {camelCase : String → String} {truthy : flag → Bool}
  {attrs : ReflectedMethod flag κ → MethodDefinition φ} {definition : ServiceDefinition φ}

/-- The definition can be registered on a new server. -/
theorem registrable_of_fromMethods (hfrom : FromMethods camelCase service attrs definition)
    (hattrs : ∀ method, Describes service truthy method (attrs method))
    {implementation : Implementation φ}
    (hcallable : ∀ e ∈ definition.entries, ¬ Uncallable implementation e.1 e.2) :
    Registrable {} implementation definition.entries := by
  have hentry : ∀ e ∈ definition.entries, ∃ m ∈ service.methods,
      e = (camelCase m.name, attrs m) := by
    intro e he
    rw [OrderedMap.mem_entries_iff, hfrom] at he
    obtain ⟨m, hm, heq⟩ := List.mem_map.mp (OrderedMap.mem_of_lookup_ofPairs he)
    exact ⟨m, hm, heq.symm⟩
  have hpath : ∀ {s : String}, s.toList.head? ≠ some '/' → s ∉ pathsOf definition.entries := by
    intro s hs hmem
    obtain ⟨e, he, rfl⟩ := List.mem_map.mp hmem
    obtain ⟨m, -, rfl⟩ := hentry e he
    exact methodPath_ne service m.name hs (hattrs m).path.symm
  refine ⟨hcallable, fun _ _ => rfl, ?_, hpath (by decide), fun _ => rfl,
    fun hmem => hpath (by decide) (List.dropLast_subset _ hmem)⟩
  refine List.Nodup.map_on (fun e he e' he' heq => ?_) definition.nodup.of_map
  obtain ⟨m, hm, rfl⟩ := hentry e he
  obtain ⟨m', hm', rfl⟩ := hentry e' he'
  rw [(hattrs m).path, (hattrs m').path] at heq
  rw [eq_of_name_eq hm hm' (methodPath_injective service heq)]

/-- All methods are kept exactly if their names in camel case are different. -/
theorem keepsMethods_of_fromMethods (hfrom : FromMethods camelCase service attrs definition)
    (hattrs : ∀ method, Describes service truthy method (attrs method)) :
    KeepsMethods service truthy definition ↔
      (service.methods.map fun method => camelCase method.name).Nodup := by
  have hsame : ∀ a ∈ service.methods, ∀ b ∈ service.methods,
      (attrs a).path = (attrs b).path → a = b := by
    intro a ha b hb heq
    rw [(hattrs a).path, (hattrs b).path] at heq
    exact eq_of_name_eq ha hb (methodPath_injective service heq)
  have hfound := OrderedMap.forall_lookup_ofPairs_iff (fun m => camelCase m.name) attrs
    fun a ha b hb heq => hsame a ha b hb (congrArg MethodDefinition.path heq)
  have hnodup : (service.methods.map fun method => camelCase method.name).Nodup ↔
      ∀ a ∈ service.methods, ∀ b ∈ service.methods, camelCase a.name = camelCase b.name → a = b :=
    ⟨fun h _ ha _ hb => List.inj_on_of_nodup_map h ha hb,
      fun h => service.nodup.of_map.map_on fun a ha b hb => h a ha b hb⟩
  rw [hnodup, ← hfound]
  constructor
  · intro h m hm
    obtain ⟨e, he, hdescribes⟩ := h.entries m hm
    rw [OrderedMap.mem_entries_iff, hfrom] at he
    obtain ⟨m', hm', heq⟩ := List.mem_map.mp (OrderedMap.mem_of_lookup_ofPairs he)
    have hvalue : attrs m' = e.2 := congrArg Prod.snd heq
    have hpath : (attrs m').path = (attrs m).path := by
      rw [hvalue, hdescribes.path, (hattrs m).path]
    obtain rfl := hsame m' hm' m hm hpath
    exact ⟨e.1, by rw [he, hvalue]⟩
  · intro h
    have hentries : ∀ m ∈ service.methods, ∃ e ∈ definition.entries, e.2 = attrs m := by
      intro m hm
      obtain ⟨k, hk⟩ := h m hm
      exact ⟨(k, attrs m), OrderedMap.mem_entries_iff.mpr (by rw [hfrom, hk]), rfl⟩
    refine ⟨fun m hm => ?_, fun implementation hcallable m hm => ?_⟩
    · obtain ⟨e, he, hvalue⟩ := hentries m hm
      exact ⟨e, he, hvalue ▸ hattrs m⟩
    · obtain ⟨e, he, hvalue⟩ := hentries m hm
      have hadd : Server.addService {} (some definition) (some implementation) =
          addMethods implementation definition.entries {} := by
        have hlength : definition.keys.length ≠ 0 := by
          rw [OrderedMap.keys, List.length_map]
          exact Nat.ne_of_gt (List.length_pos_of_mem he)
        exact (if_neg hlength).trans (if_neg Bool.false_ne_true)
      obtain ⟨handler, hchosen, hlookup⟩ :=
        (registrable_of_fromMethods hfrom hattrs hcallable).bound.chosen e he
      refine ⟨e, he, handler, hvalue ▸ hattrs m, hchosen, ?_⟩
      rw [hadd, ← (hattrs m).path, ← hvalue]
      exact hlookup

end

/-! ### The two versions -/

section

variable {κ : Type*} (camelCase : String → String)

theorem ProtobufJs5.fromMethods (service : ReflectedService Bool κ)
    (options : Option LoadOptions) :
    FromMethods camelCase service (methodAttrs service.pathPrefix options)
      (getProtobufServiceAttrs camelCase service options) := by
  rw [FromMethods, getProtobufServiceAttrs, List.zip_map']

theorem ProtobufJs5.describes (service : ReflectedService Bool κ) (options : Option LoadOptions)
    (method : ReflectedMethod Bool κ) :
    Describes service id method (methodAttrs service.pathPrefix options method) :=
  ⟨pathPrefix_append service method.name, rfl, rfl⟩

/-- With options, the attributes can be made. -/
theorem ProtobufJs6.exists_methodAttrs (service : ReflectedService (Option Bool) κ)
    (options : LoadOptions) :
    ∃ attrs : ReflectedMethod (Option Bool) κ → MethodDefinition (Codec κ),
      (∀ method, methodAttrs service.pathPrefix (some options) method = .ok (attrs method)) ∧
      ∀ method, Describes service truthy method (attrs method) :=
  ⟨_, fun _ => rfl, fun method => ⟨pathPrefix_append service method.name, rfl, rfl⟩⟩

theorem mapM_eq_ok {α β ε : Type*} {f : α → Except ε β} {g : α → β} (h : ∀ a, f a = .ok (g a))
    (l : List α) : l.mapM f = .ok (l.map g) := by
  induction l with
  | nil => rfl
  | cons a l ih =>
      rw [List.mapM_cons, h, ih]
      rfl

/-- What the second version gives: a definition that is made from the methods, or an exception if
there are methods and no options. -/
theorem ProtobufJs6.getProtobufServiceAttrs_cases (service : ReflectedService (Option Bool) κ)
    (options : Option LoadOptions) :
    ((service.methods = [] ∨ options ≠ none) ∧ ∃ attrs definition,
      getProtobufServiceAttrs camelCase service options = .ok definition ∧
      FromMethods camelCase service attrs definition ∧
      ∀ method, Describes service truthy method (attrs method)) ∨
    (service.methods ≠ [] ∧ options = none ∧ ∃ e,
      getProtobufServiceAttrs camelCase service options = .error e) := by
  unfold getProtobufServiceAttrs FromMethods
  cases options with
  | some options =>
      obtain ⟨attrs, hattrs, hdescribes⟩ := exists_methodAttrs service options
      refine .inl ⟨.inr (by simp), attrs, _, ?_, rfl, hdescribes⟩
      rw [mapM_eq_ok hattrs, ← List.zip_map']
      rfl
  | none =>
      cases hmethods : service.methods with
      | nil =>
          obtain ⟨attrs, -, hdescribes⟩ := exists_methodAttrs service {}
          exact .inl ⟨.inl rfl, attrs, _, rfl, rfl, hdescribes⟩
      | cons method methods =>
          refine .inr ⟨by simp, rfl,
            .typeError "Cannot read property 'binaryAsBase64' of undefined", ?_⟩
          rw [List.mapM_cons]
          rfl

/-- **No method is lost exactly if the names in camel case are different**; and the second version
needs options to get that far. -/
theorem keepsMethods_iff (camelCase : String → String) :
    (∀ (service : ReflectedService Bool κ) (options : Option LoadOptions),
      KeepsMethods service id (ProtobufJs5.getProtobufServiceAttrs camelCase service options) ↔
        (service.methods.map fun method => camelCase method.name).Nodup) ∧
    ∀ (service : ReflectedService (Option Bool) κ) (options : Option LoadOptions),
      (∃ definition,
        ProtobufJs6.getProtobufServiceAttrs camelCase service options = .ok definition ∧
        KeepsMethods service ProtobufJs6.truthy definition) ↔
      (service.methods = [] ∨ options ≠ none) ∧
        (service.methods.map fun method => camelCase method.name).Nodup := by
  refine ⟨fun service options => ?_, fun service options => ?_⟩
  · exact keepsMethods_of_fromMethods (ProtobufJs5.fromMethods camelCase service options)
      (ProtobufJs5.describes service options)
  · rcases ProtobufJs6.getProtobufServiceAttrs_cases camelCase service options with
      ⟨hgiven, attrs, definition, hok, hfrom, hattrs⟩ | ⟨hmethods, hnone, e, herror⟩
    · rw [and_iff_right hgiven, hok, ← keepsMethods_of_fromMethods hfrom hattrs]
      constructor
      · rintro ⟨definition', heq, hkeeps⟩
        rwa [Except.ok.inj heq]
      · exact fun h => ⟨definition, rfl, h⟩
    · refine iff_of_false ?_ ?_
      · rintro ⟨definition, hok, -⟩
        exact absurd (herror.symm.trans hok) (by simp)
      · rintro ⟨hgiven | hgiven, -⟩
        · exact hmethods hgiven
        · exact hgiven hnone

end

/-! ### Two names -/

/-- What `camelCase` makes of the two names below. -/
def lowerFirst (s : String) : String := if s = "GetFoo" then "getFoo" else s

/-- A service with the methods `GetFoo` and `getFoo`. -/
def fooService (flag : Type) (default : flag) : ReflectedService flag Unit where
  name := "Foo"
  parents := [""]
  methods := [⟨"GetFoo", default, default, (), ()⟩, ⟨"getFoo", default, default, (), ()⟩]
  nodup := by simp

/-- The first of the two methods is lost. -/
theorem not_keepsMethods_getFoo :
    (¬ ∀ options, KeepsMethods (fooService Bool false) id
      (ProtobufJs5.getProtobufServiceAttrs lowerFirst (fooService Bool false) options)) ∧
    ¬ ∀ options, ∃ definition, ProtobufJs6.getProtobufServiceAttrs lowerFirst
      (fooService (Option Bool) none) (some options) = .ok definition ∧
      KeepsMethods (fooService (Option Bool) none) ProtobufJs6.truthy definition := by
  have hcollide : ∀ (flag : Type) (default : flag), ¬ ((fooService flag default).methods.map
      fun method => lowerFirst method.name).Nodup := by
    intro flag default hnodup
    have hnames : ((fooService flag default).methods.map fun method => lowerFirst method.name) =
        ["getFoo", "getFoo"] := rfl
    rw [hnames] at hnodup
    simp at hnodup
  refine ⟨fun h => ?_, fun h => ?_⟩
  · exact hcollide Bool false ((keepsMethods_of_fromMethods
      (ProtobufJs5.fromMethods lowerFirst (fooService Bool false) none)
      (ProtobufJs5.describes (fooService Bool false) none)).mp (h none))
  · obtain ⟨definition, hok, hkeeps⟩ := h {}
    rcases ProtobufJs6.getProtobufServiceAttrs_cases lowerFirst (fooService (Option Bool) none)
      (some {}) with ⟨-, attrs, definition', hok', hfrom, hattrs⟩ | ⟨-, hnone, -⟩
    · obtain rfl := Except.ok.inj (hok.symm.trans hok')
      exact hcollide (Option Bool) none ((keepsMethods_of_fromMethods hfrom hattrs).mp hkeeps)
    · exact absurd hnone (by simp)

end GrpcNode.NativeCore
