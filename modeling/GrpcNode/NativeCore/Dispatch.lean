import GrpcNode.NativeCore.ClientConstructor
import GrpcNode.NativeCore.ServerStatus

/-!
# GrpcNode.NativeCore.Dispatch

How a call of a client gets to its handler: `handleNewCall` of `server.js` looks for it under the
path of the call, and `addService` has put it there under the path that the client's method has.

`serves_iff` says which services can be added to one server, one after the other, such that each
call of a method gets to the handler for this method, and any other call is answered with
`UNIMPLEMENTED`. `loaded_agree` is about both sides: their definitions may be made by different
versions of Protobuf.js, with different options.
-/

namespace GrpcNode.NativeCore

open GrpcNode.Js
open GrpcNode.JsCore (Status)

/-! ### One call -/

/-- What `handleNewCall` does with a call, when it has requested the next one. -/
inductive Dispatch (φ : Type*)
  /-- `streamHandlers[handler.type](call, handler, metadata)` -/
  | handler (handler : Handler φ)
  /-- `call.startBatch(batch, …)` -/
  | batch (batch : Batch)
  | thrown (err : JsError)

/-- `batch` of `handleNewCall` -/
def unimplementedBatch (core : Core) : Batch :=
  [(.sendInitialMetadata, (Metadata.new : Metadata core).getCoreRepresentation),
    (.sendStatusFromServer, .object [("code", statusCode .unimplemented), ("details", .string ""),
      ("metadata", .object [])]),
    (.recvCloseOnServer, .boolean true)]

/-- The rest of `handleNewCall`, for a method that is not `null` -/
def Server.handleNewCall {φ : Type*} (core : Core) (server : Server φ) (method : String) :
    Dispatch φ :=
  match server.handlers.hasOwnProperty method with
  | .error e => .thrown e
  | .ok true =>
      match server.handlers.own.lookup method with
      | some handler => .handler handler
      | none => .thrown (.typeError "Cannot read property 'type' of undefined")
  | .ok false => .batch (unimplementedBatch core)

/-- `addService` for one service after the other, up to one for which it throws -/
def Server.addServices {φ : Type*} (server : Server φ) :
    List (ServiceDefinition φ × Implementation φ) → Server φ × Option JsError
  | [] => (server, none)
  | (service, implementation) :: services =>
      let added := server.addService (some service) (some implementation)
      match added.thrown with
      | some e => (added.server, some e)
      | none => added.server.addServices services

section

variable {core : Core} {φ : Type*} {server : Server φ}
  {services : List (ServiceDefinition φ × Implementation φ)}

/-- The answer to a call that nobody handles is accepted by the addon. -/
theorem startBatch_unimplementedBatch (core : Core) : startBatch core (unimplementedBatch core) =
    .ok [.sendInitialMetadata [],
      .sendStatusFromServer ⟨[], Status.unimplemented.toNat, createSliceFromString ""⟩,
      .recvCloseOnServer] := rfl

/-- If nothing is in the way of `hasOwnProperty`, the own properties decide. -/
theorem handleNewCall_eq (haccessible : server.handlers.own.lookup "hasOwnProperty" = none)
    (method : String) :
    server.handleNewCall core method = match server.handlers.own.lookup method with
      | some handler => .handler handler
      | none => .batch (unimplementedBatch core) := by
  unfold Server.handleNewCall Handlers.hasOwnProperty
  rw [haccessible]
  cases server.handlers.own.lookup method <;> rfl

/-- A call that is handled is not one of the two special paths. -/
theorem lookup_of_handleNewCall {method : String} {handler : Handler φ}
    (h : server.handleNewCall core method = .handler handler) :
    server.handlers.own.lookup method = some handler ∧
      server.handlers.own.lookup "hasOwnProperty" = none := by
  cases haccessible : server.handlers.own.lookup "hasOwnProperty" with
  | some shadow =>
      unfold Server.handleNewCall Handlers.hasOwnProperty at h
      rw [haccessible] at h
      cases h
  | none =>
      rw [handleNewCall_eq haccessible] at h
      cases hlookup : server.handlers.own.lookup method with
      | some handler' =>
          rw [hlookup] at h
          exact ⟨congrArg some (Dispatch.handler.inj h), rfl⟩
      | none =>
          rw [hlookup] at h
          cases h

/-! ### All services -/

/-- The paths of the methods of some services. -/
def servicePaths (services : List (ServiceDefinition φ × Implementation φ)) : List String :=
  services.flatMap fun service => pathsOf service.1.entries

/-- A call of a method gets to the handler chosen for the method, and any other call is answered
with `UNIMPLEMENTED`. -/
structure Serves (core : Core) (services : List (ServiceDefinition φ × Implementation φ))
    (server : Server φ) : Prop where
  methods : ∀ service ∈ services, ∀ method ∈ service.1.entries, ∃ handler,
    Chosen service.2 method.1 method.2 handler ∧
      server.handleNewCall core method.2.path = .handler handler
  others : ∀ path, path ∉ servicePaths services →
    server.handleNewCall core path = .batch (unimplementedBatch core)

/-- The services can be added to one server. -/
structure Servable (services : List (ServiceDefinition φ × Implementation φ)) : Prop where
  nonempty : ∀ service ∈ services, service.1.entries ≠ []
  callable : ∀ service ∈ services, ∀ method ∈ service.1.entries,
    ¬ Uncallable service.2 method.1 method.2
  distinct : (servicePaths services).Nodup
  ordinary : "__proto__" ∉ servicePaths services
  accessible : "hasOwnProperty" ∉ servicePaths services

theorem started_addMethods (implementation : Implementation φ)
    (methods : List (String × MethodDefinition φ)) :
    (addMethods implementation methods server).server.started = server.started := by
  induction methods generalizing server with
  | nil => rfl
  | cons method methods ih =>
      by_cases hrefused : Refused server implementation method
      · rw [(addMethods_of_refused hrefused methods).1]
      · obtain ⟨handler, -, hrest⟩ := addMethods_of_not_refused hrefused
        rw [(hrest methods).1, ih]
        rfl

theorem addService_eq (hstarted : server.started = false) {service : ServiceDefinition φ}
    (hne : service.entries ≠ []) (implementation : Implementation φ) :
    server.addService (some service) (some implementation) =
      addMethods implementation service.entries server := by
  have hlength : ¬ service.keys.length = 0 := by
    rw [OrderedMap.keys, List.length_map]
    exact Nat.ne_of_gt (List.length_pos_of_ne_nil hne)
  unfold Server.addService
  dsimp only
  rw [if_neg hlength, hstarted, if_neg Bool.false_ne_true]

theorem addService_empty (server : Server φ) {service : ServiceDefinition φ}
    (hempty : service.entries = []) (implementation : Implementation φ) :
    (server.addService (some service) (some implementation)).thrown ≠ none := by
  have hlength : service.keys.length = 0 := by rw [OrderedMap.keys, hempty]; rfl
  unfold Server.addService
  dsimp only
  rw [if_pos hlength]
  simp

/-- Each path of the services is bound to the handler chosen for its method, and other bindings
are as they were. -/
structure BoundAll (server : Server φ) (services : List (ServiceDefinition φ × Implementation φ))
    (after : Server φ) : Prop where
  chosen : ∀ service ∈ services, ∀ method ∈ service.1.entries, ∃ handler,
    Chosen service.2 method.1 method.2 handler ∧
      after.handlers.own.lookup method.2.path = some handler
  others : ∀ path, path ∉ servicePaths services →
    after.handlers.own.lookup path = server.handlers.own.lookup path

/-- Neither of the special paths is among those of the services. -/
structure Usual (services : List (ServiceDefinition φ × Implementation φ)) : Prop where
  ordinary : "__proto__" ∉ servicePaths services
  accessible : "hasOwnProperty" ∉ servicePaths services

/-- Such services can be added to a server that has some already. -/
def Addable (server : Server φ) (services : List (ServiceDefinition φ × Implementation φ)) : Prop :=
  Servable services ∧ ∀ path ∈ servicePaths services, server.handlers.own.lookup path = none

theorem servicePaths_cons (service : ServiceDefinition φ × Implementation φ)
    (services : List (ServiceDefinition φ × Implementation φ)) :
    servicePaths (service :: services) = pathsOf service.1.entries ++ servicePaths services :=
  List.flatMap_cons

variable {service : ServiceDefinition φ × Implementation φ}

theorem usual_cons (h : Usual (service :: services)) :
    ("__proto__" ∉ pathsOf service.1.entries ∧ "hasOwnProperty" ∉ pathsOf service.1.entries) ∧
      Usual services := by
  obtain ⟨hproto, hshadow⟩ := h
  rw [servicePaths_cons, List.mem_append, not_or] at hproto hshadow
  exact ⟨⟨hproto.1, hshadow.1⟩, hproto.2, hshadow.2⟩

theorem Addable.registrable (h : Addable server (service :: services))
    (husual : Usual (service :: services))
    (haccessible : server.handlers.own.lookup "hasOwnProperty" = none) :
    Registrable server service.2 service.1.entries := by
  obtain ⟨⟨hproto, hshadow⟩, -⟩ := usual_cons husual
  obtain ⟨⟨-, hcallable, hdistinct, -, -⟩, hnew⟩ := h
  rw [servicePaths_cons] at hdistinct hnew
  exact ⟨hcallable service (.head _), fun path hp => hnew path (List.mem_append_left _ hp),
    (List.nodup_append.mp hdistinct).1, hproto, fun _ => haccessible,
    fun hmem => hshadow (List.dropLast_subset _ hmem)⟩

/-- A path that has a binding is new to no service that can be added. -/
theorem Addable.not_mem (h : Addable server services) {path : String} {handler : Handler φ}
    (hlookup : server.handlers.own.lookup path = some handler) : path ∉ servicePaths services :=
  fun hmem => absurd (hlookup.symm.trans (h.2 path hmem)) nofun

/-- Once the first service is bound, the others can be added exactly if all could. -/
theorem addable_cons_iff (husual : Usual (service :: services))
    (hne : service.1.entries ≠ [])
    (haccessible : server.handlers.own.lookup "hasOwnProperty" = none) {after : Server φ}
    (hbound : Bound server service.2 service.1.entries after) :
    Addable server (service :: services) ↔
      Registrable server service.2 service.1.entries ∧ Addable after services := by
  obtain ⟨⟨hproto, hshadow⟩, husual'⟩ := usual_cons husual
  constructor
  · intro h
    refine ⟨h.registrable husual haccessible, ?_⟩
    obtain ⟨⟨hnonempty, hcallable, hdistinct, -, -⟩, hnew⟩ := h
    rw [servicePaths_cons] at hdistinct hnew
    obtain ⟨-, hrest, hdisjoint⟩ := List.nodup_append.mp hdistinct
    refine ⟨⟨fun s hs => hnonempty s (.tail _ hs), fun s hs => hcallable s (.tail _ hs), hrest,
      husual'.ordinary, husual'.accessible⟩, fun path hp => ?_⟩
    rw [hbound.others path fun hmem => hdisjoint _ hmem _ hp rfl]
    exact hnew path (List.mem_append_right _ hp)
  · rintro ⟨hregistrable, hrest⟩
    have hdisjoint : ∀ path ∈ pathsOf service.1.entries, path ∉ servicePaths services := by
      intro path hmem
      obtain ⟨method, hmethod, rfl⟩ := List.mem_map.mp hmem
      obtain ⟨handler, -, hhandler⟩ := hbound.chosen method hmethod
      exact hrest.not_mem hhandler
    obtain ⟨⟨hnonempty, hcallable, hdistinct, -, -⟩, hnew⟩ := hrest
    refine ⟨⟨List.forall_mem_cons.mpr ⟨hne, hnonempty⟩,
      List.forall_mem_cons.mpr ⟨hregistrable.callable, hcallable⟩, ?_, ?_, ?_⟩, ?_⟩
    · rw [servicePaths_cons]
      refine List.nodup_append.mpr ⟨hregistrable.distinct, hdistinct, ?_⟩
      rintro path hmem _ hp rfl
      exact hdisjoint path hmem hp
    · rw [servicePaths_cons, List.mem_append, not_or]
      exact ⟨hproto, husual'.ordinary⟩
    · rw [servicePaths_cons, List.mem_append, not_or]
      exact ⟨hshadow, husual'.accessible⟩
    · intro path hp
      rw [servicePaths_cons] at hp
      rcases List.mem_append.mp hp with hp | hp
      · exact hregistrable.new path hp
      · rw [← hbound.others path fun hmem => hdisjoint path hmem hp]
        exact hnew path hp

/-- Services are added without an exception exactly if they can be, and then they are bound. -/
theorem addServices_eq_none_iff (server : Server φ) (hstarted : server.started = false)
    (haccessible : server.handlers.own.lookup "hasOwnProperty" = none) (husual : Usual services) :
    ((server.addServices services).2 = none ↔ Addable server services) ∧
      ((server.addServices services).2 = none →
        BoundAll server services (server.addServices services).1) := by
  induction services generalizing server with
  | nil =>
      refine ⟨iff_of_true rfl ⟨⟨nofun, nofun, List.nodup_nil, nofun, nofun⟩, nofun⟩, fun _ => ?_⟩
      exact ⟨nofun, fun _ _ => rfl⟩
  | cons service services ih =>
      obtain ⟨definition, implementation⟩ := service
      obtain ⟨⟨hproto, hshadow⟩, husual'⟩ := usual_cons husual
      rw [Server.addServices]
      by_cases hempty : definition.entries = []
      · have hthrown := addService_empty server hempty implementation
        obtain ⟨e, he⟩ := Option.ne_none_iff_exists'.mp hthrown
        simp only [he]
        refine ⟨iff_of_false nofun fun h => ?_, nofun⟩
        exact h.1.nonempty _ (.head _) hempty
      · simp only [addService_eq hstarted hempty]
        cases hthrown : (addMethods implementation definition.entries server).thrown with
        | some e =>
            refine ⟨iff_of_false nofun fun h => ?_, nofun⟩
            have hnone := (thrown_eq_none_iff.mpr (h.registrable husual haccessible)).1
            exact absurd (hthrown.symm.trans hnone) nofun
        | none =>
            have hregistrable := thrown_eq_none_iff.mp ⟨hthrown, hproto⟩
            have hbound := hregistrable.bound
            have haccessible' := (hbound.others _ hshadow).trans haccessible
            have hstarted' := (started_addMethods implementation definition.entries).trans hstarted
            obtain ⟨hiff, hall⟩ := ih _ hstarted' haccessible' husual'
            refine ⟨?_, fun hnone => ?_⟩
            · rw [addable_cons_iff husual hempty haccessible hbound]
              exact hiff.trans (and_iff_right hregistrable).symm
            · obtain ⟨hchosen, hothers⟩ := hall hnone
              refine ⟨List.forall_mem_cons.mpr ⟨fun method hmethod => ?_, hchosen⟩, fun path hp => ?_⟩
              · obtain ⟨handler, hchosen', hhandler⟩ := hbound.chosen method hmethod
                exact ⟨handler, hchosen',
                  (hothers _ ((hiff.mp hnone).not_mem hhandler)).trans hhandler⟩
              · rw [servicePaths_cons, List.mem_append, not_or] at hp
                rw [hothers path hp.2, hbound.others path hp.1]

theorem Servable.serves (core : Core) (h : Servable services) :
    (Server.addServices {} services).2 = none ∧
      Serves core services (Server.addServices {} services).1 := by
  have husual : Usual services := ⟨h.ordinary, h.accessible⟩
  obtain ⟨hiff, hbound⟩ := addServices_eq_none_iff {} rfl rfl husual
  have hnone := hiff.mpr ⟨h, fun _ _ => rfl⟩
  obtain ⟨hchosen, hothers⟩ := hbound hnone
  have haccessible := hothers _ h.accessible
  refine ⟨hnone, fun service hservice method hmethod => ?_, fun path hpath => ?_⟩
  · obtain ⟨handler, hchosen, hhandler⟩ := hchosen service hservice method hmethod
    exact ⟨handler, hchosen, by rw [handleNewCall_eq haccessible, hhandler]⟩
  · rw [handleNewCall_eq haccessible, hothers path hpath]
    rfl

/-- **Services that can be served.** Some services are added to a new server without an exception,
and afterwards each call of one of their methods gets to the handler chosen for the method and any
other call is answered with `UNIMPLEMENTED`, exactly if no service is empty, the implementations
have no property that is in the place of a method but is not a function, the paths are all
different, and none of them is `__proto__` or `hasOwnProperty`. -/
theorem serves_iff (core : Core) (services : List (ServiceDefinition φ × Implementation φ)) :
    (Server.addServices {} services).2 = none ∧
        Serves core services (Server.addServices {} services).1 ↔ Servable services := by
  constructor
  · rintro ⟨hnone, hserves⟩
    -- The two special paths are never handled.
    have hhandled : ∀ path ∈ servicePaths services, ∃ handler,
        (Server.addServices {} services).1.handleNewCall core path = .handler handler := by
      intro path hmem
      obtain ⟨service, hservice, hmem⟩ := List.mem_flatMap.mp hmem
      obtain ⟨method, hmethod, rfl⟩ := List.mem_map.mp hmem
      obtain ⟨handler, -, hhandler⟩ := hserves.methods service hservice method hmethod
      exact ⟨handler, hhandler⟩
    have husual : Usual services := by
      constructor
      · intro hmem
        obtain ⟨handler, hhandler⟩ := hhandled _ hmem
        exact absurd ((Handlers.lookup_proto _).symm.trans (lookup_of_handleNewCall hhandler).1) nofun
      · intro hmem
        obtain ⟨handler, hhandler⟩ := hhandled _ hmem
        obtain ⟨hlookup, haccessible⟩ := lookup_of_handleNewCall hhandler
        exact absurd (haccessible.symm.trans hlookup) nofun
    exact ((addServices_eq_none_iff {} rfl rfl husual).1.mp hnone).1
  · exact Servable.serves core

end

/-! ### Both sides -/

section

variable {core : Core} {flag flag' κ κ' φ ψ : Type}

/-- How the functions of a version of Protobuf.js are told apart: those that serialize values of a
class, and those that deserialize them. -/
structure Codecs (κ φ : Type*) where
  serializes : φ → κ → Prop
  deserializes : φ → κ → Prop

def ProtobufJs5.codecs (κ : Type*) : Codecs κ (ProtobufJs5.Codec κ) where
  serializes codec cls := codec = .serialize cls
  deserializes codec cls := ∃ options, codec = .deserialize cls options

def ProtobufJs6.codecs (κ : Type*) : Codecs κ (ProtobufJs6.Codec κ) where
  serializes codec cls := codec = .serialize cls
  deserializes codec cls := ∃ options, codec = .deserialize cls options

/-- What a definition says about the values of a method. -/
structure Codes (codecs : Codecs κ φ) (method : ReflectedMethod flag κ)
    (attrs : MethodDefinition φ) : Prop where
  requestSerialize : codecs.serializes attrs.requestSerialize method.resolvedRequestType
  requestDeserialize : codecs.deserializes attrs.requestDeserialize method.resolvedRequestType
  responseSerialize : codecs.serializes attrs.responseSerialize method.resolvedResponseType
  responseDeserialize : codecs.deserializes attrs.responseDeserialize method.resolvedResponseType

/-- A definition that one of the loaders has made of a service. -/
def LoadedDefinition (codecs : Codecs κ φ) (truthy : flag → Bool) (camelCase : String → String)
    (service : ReflectedService flag κ) (definition : ServiceDefinition φ) : Prop :=
  ∃ attrs, FromMethods camelCase service attrs definition ∧
    ∀ method, Describes service truthy method (attrs method) ∧ Codes codecs method (attrs method)

theorem ProtobufJs5.loaded (camelCase : String → String) (service : ReflectedService Bool κ)
    (options : Option LoadOptions) :
    LoadedDefinition (codecs κ) id camelCase service (getProtobufServiceAttrs camelCase service options) :=
  ⟨_, fromMethods camelCase service options, fun method =>
    ⟨describes service options method, rfl, ⟨_, rfl⟩, rfl, ⟨_, rfl⟩⟩⟩

theorem ProtobufJs6.loaded {camelCase : String → String} {service : ReflectedService (Option Bool) κ}
    {options : LoadOptions} {definition : ServiceDefinition (Codec κ)}
    (h : getProtobufServiceAttrs camelCase service (some options) = .ok definition) :
    LoadedDefinition (codecs κ) truthy camelCase service definition := by
  obtain ⟨attrs, hattrs, hloaded⟩ : ∃ attrs : ReflectedMethod (Option Bool) κ →
      MethodDefinition (Codec κ),
      (∀ method, methodAttrs service.pathPrefix (some options) method = .ok (attrs method)) ∧
      ∀ method, Describes service truthy method (attrs method) ∧
        Codes (codecs κ) method (attrs method) :=
    ⟨_, fun _ => rfl, fun method => ⟨⟨pathPrefix_append service method.name, rfl, rfl⟩,
      rfl, ⟨_, rfl⟩, rfl, ⟨_, rfl⟩⟩⟩
  refine ⟨attrs, ?_, hloaded⟩
  rw [getProtobufServiceAttrs, mapM_eq_ok hattrs] at h
  rw [FromMethods, ← List.zip_map']
  exact (Except.ok.inj h).symm

/-- Two reflections of one service: they agree on the names, and on the flags as they are read. -/
structure SameService (truthy : flag → Bool) (truthy' : flag' → Bool)
    (service : ReflectedService flag κ) (service' : ReflectedService flag' κ') : Prop where
  name : service.name = service'.name
  parents : service.parents = service'.parents
  methods : service.methods.map (fun m => (m.name, truthy m.requestStream, truthy m.responseStream)) =
    service'.methods.map fun m => (m.name, truthy' m.requestStream, truthy' m.responseStream)

theorem SameService.methodPath_eq {truthy : flag → Bool} {truthy' : flag' → Bool}
    {service : ReflectedService flag κ} {service' : ReflectedService flag' κ'}
    (h : SameService truthy truthy' service service') (name : String) :
    service.methodPath name = service'.methodPath name := by
  rw [ReflectedService.methodPath, ReflectedService.methodPath, h.name, h.parents]

/-- If their names in camel case are different, all methods are in the definition. -/
theorem mem_entries_of_nodup {truthy : flag → Bool} {camelCase : String → String}
    {service : ReflectedService flag κ} {attrs : ReflectedMethod flag κ → MethodDefinition φ}
    {definition : ServiceDefinition φ} (hfrom : FromMethods camelCase service attrs definition)
    (hattrs : ∀ method, Describes service truthy method (attrs method))
    (hnodup : (service.methods.map fun method => camelCase method.name).Nodup)
    {m : ReflectedMethod flag κ} (hm : m ∈ service.methods) :
    (camelCase m.name, attrs m) ∈ definition.entries := by
  obtain ⟨e, he, hdescribes⟩ := ((keepsMethods_of_fromMethods hfrom hattrs).mpr hnodup).entries m hm
  have hlookup := OrderedMap.mem_entries_iff.mp he
  rw [hfrom] at hlookup
  obtain ⟨m', hm', heq⟩ := List.mem_map.mp (OrderedMap.mem_of_lookup_ofPairs hlookup)
  have hpath : service.methodPath m'.name = service.methodPath m.name := by
    rw [← (hattrs m').path, ← hdescribes.path]
    exact congrArg (fun e => e.2.path) heq
  obtain rfl := eq_of_name_eq hm' hm (methodPath_injective service hpath)
  exact heq ▸ he

/-- A method of a client, and the handler that its calls get to: it is for the same method of the
service, the call is of the type that the handler is for, and each side deserializes what the
other one serializes. -/
structure Agree (codecs : Codecs κ φ) (codecs' : Codecs κ' ψ) (m : ReflectedMethod flag κ)
    (m' : ReflectedMethod flag' κ') (method : ClientMethod φ) (handler : Handler ψ) : Prop where
  name : m.name = m'.name
  type : method.type = handler.type
  request : codecs.serializes method.serialize m.resolvedRequestType ∧
    codecs'.deserializes handler.deserialize m'.resolvedRequestType
  response : codecs'.serializes handler.serialize m'.resolvedResponseType ∧
    codecs.deserializes method.deserialize m.resolvedResponseType

/-- **Client and server agree.** The definitions of a client and of a server may be made by
different versions of Protobuf.js and have different names for their methods. If they reflect the
same service, and the names on the server are different, then a call of any method that the client
has gets to the handler for this method, with its type, and each side deserializes what the other
one serializes; and the function of the handler is that of the implementation for the method. -/
theorem loaded_agree {σ : Type} {services : List (ServiceDefinition ψ × Implementation ψ)}
    (hservable : Servable services) {codecs : Codecs κ φ} {codecs' : Codecs κ' ψ}
    {truthy : flag → Bool} {truthy' : flag' → Bool} {camelCase camelCase' : String → String}
    {service : ReflectedService flag κ} {service' : ReflectedService flag' κ'}
    {definition : ServiceDefinition φ} {definition' : ServiceDefinition ψ}
    (hclient : LoadedDefinition codecs truthy camelCase service definition)
    (hserver : LoadedDefinition codecs' truthy' camelCase' service' definition')
    (hsame : SameService truthy truthy' service service')
    (hnodup : (service'.methods.map fun method => camelCase' method.name).Nodup)
    {implementation : Implementation ψ} (hmem : (definition', implementation) ∈ services)
    {serviceName : Option σ} {client : ClientConstructor φ}
    (hmake : makeClientConstructor definition serviceName none = .ok client)
    {name : String} {method : ClientMethod φ} (hmethod : client.prototype.lookup name = some method) :
    ∃ m ∈ service.methods, ∃ m' ∈ service'.methods, ∃ handler,
      name = camelCase m.name ∧ Agree codecs codecs' m m' method handler ∧
      (Server.addServices {} services).1.handleNewCall core method.path = .handler handler ∧
      ∃ attrs', (camelCase' m'.name, attrs') ∈ definition'.entries ∧
        Chosen implementation (camelCase' m'.name) attrs' handler := by
  obtain ⟨attrs, hfrom, hattrs⟩ := hclient
  obtain ⟨attrs', hfrom', hattrs'⟩ := hserver
  -- The method is one of the client's service.
  obtain ⟨m, hm, rfl, rfl⟩ : ∃ m ∈ service.methods, camelCase m.name = name ∧
      methodFunc (attrs m) = method := by
    rcases makeClientConstructor_cases definition serviceName with
      ⟨-, client', hok, hof⟩ | ⟨-, hnone⟩
    · obtain rfl := Except.ok.inj (hok.symm.trans hmake)
      rw [hof.method] at hmethod
      split at hmethod
      · cases hmethod
      · obtain ⟨a, ha, rfl⟩ := Option.map_eq_some_iff.mp hmethod
        rw [hfrom] at ha
        obtain ⟨m, hm, heq⟩ := List.mem_map.mp (OrderedMap.mem_of_lookup_ofPairs ha)
        exact ⟨m, hm, congrArg Prod.fst heq, congrArg (fun e => methodFunc e.2) heq⟩
    · exact absurd hmake (hnone client)
  -- The server's service has it too.
  obtain ⟨m', hm', heq⟩ := List.mem_map.mp (hsame.methods ▸ List.mem_map_of_mem hm)
  obtain ⟨hname, hrequest, hresponse⟩ : m'.name = m.name ∧
      truthy' m'.requestStream = truthy m.requestStream ∧
      truthy' m'.responseStream = truthy m.responseStream := by
    simpa using heq
  have hentry := mem_entries_of_nodup hfrom' (fun m => (hattrs' m).1) hnodup hm'
  obtain ⟨handler, hchosen, hhandler⟩ :=
    (hservable.serves core).2.methods _ hmem _ hentry
  obtain ⟨hdescribes, hcodes⟩ := hattrs m
  obtain ⟨hdescribes', hcodes'⟩ := hattrs' m'
  have hpath : (attrs m).path = (attrs' m').path := by
    rw [hdescribes.path, hdescribes'.path, hname, hsame.methodPath_eq]
  have htype : (attrs m).methodType = (attrs' m').methodType := by
    rw [MethodDefinition.methodType, MethodDefinition.methodType, hdescribes.requestStream,
      hdescribes.responseStream, hdescribes'.requestStream, hdescribes'.responseStream, hrequest,
      hresponse]
  refine ⟨m, hm, m', hm', handler, rfl, ⟨hname.symm, htype.trans hchosen.type.symm,
    ⟨hcodes.requestSerialize, ?_⟩, ⟨?_, hcodes.responseDeserialize⟩⟩, ?_, _, hentry, hchosen⟩
  · rw [hchosen.deserialize]
    exact hcodes'.requestDeserialize
  · rw [hchosen.serialize]
    exact hcodes'.responseSerialize
  · exact (congrArg _ hpath).trans hhandler

/-- The service with the method `Echo`, as Protobuf.js 6 reflects it. -/
def echoService6 : ReflectedService (Option Bool) Unit where
  name := "Echo"
  parents := ["s", ""]
  methods := [⟨"Echo", none, none, (), ()⟩]
  nodup := by simp

def echoDefinition6 : ServiceDefinition (ProtobufJs6.Codec Unit) :=
  .ofPairs [("echo", {
    originalName := some "Echo"
    path := "/s.Echo/Echo"
    requestStream := false
    responseStream := false
    requestSerialize := .serialize ()
    requestDeserialize := .deserialize () ⟨true, .buffer, false, false, true⟩
    responseSerialize := .serialize ()
    responseDeserialize := .deserialize () ⟨true, .buffer, false, false, true⟩ })]

/-- An object with a function of any name. -/
def echoImplementation : Implementation (ProtobufJs6.Codec Unit) where
  reference := 0
  get _ := .function (.serialize ())

theorem loaded_agree_echo : ∃ client : ClientConstructor (ProtobufJs5.Codec Unit),
    makeClientConstructor echoDefinition (none : Option String) none = .ok client ∧
    ∃ method, client.prototype.lookup "Echo" = some method ∧
    ∃ m ∈ echoService.methods, ∃ m' ∈ echoService6.methods, ∃ handler,
      "Echo" = id m.name ∧
      Agree (ProtobufJs5.codecs Unit) (ProtobufJs6.codecs Unit) m m' method handler ∧
      (Server.addServices {} [(echoDefinition6, echoImplementation)]).1.handleNewCall Core.ascii
        method.path = .handler handler ∧
      ∃ attrs', ((fun _ => "echo") m'.name, attrs') ∈ echoDefinition6.entries ∧
        Chosen echoImplementation ((fun _ => "echo") m'.name) attrs' handler := by
  have hservable : Servable [(echoDefinition6, echoImplementation)] :=
    ⟨by decide, by simp [Uncallable, echoImplementation], by decide, by decide, by decide⟩
  have hserver : ProtobufJs6.getProtobufServiceAttrs (fun _ => "echo") echoService6 (some {}) =
      .ok echoDefinition6 := rfl
  have hsame : SameService id ProtobufJs6.truthy echoService echoService6 := ⟨rfl, rfl, rfl⟩
  have hnodup : (echoService6.methods.map fun method => (fun _ => "echo") method.name).Nodup := by
    decide
  obtain ⟨client, hmake, method, hmethod⟩ : ∃ client,
      makeClientConstructor echoDefinition (none : Option String) none = .ok client ∧
      ∃ method, client.prototype.lookup "Echo" = some method := ⟨_, rfl, _, rfl⟩
  exact ⟨client, hmake, method, hmethod, loaded_agree hservable
    (ProtobufJs5.loaded id echoService (some {})) (ProtobufJs6.loaded hserver) hsame hnodup
    (List.mem_singleton_self _) hmake hmethod⟩

end

end GrpcNode.NativeCore
