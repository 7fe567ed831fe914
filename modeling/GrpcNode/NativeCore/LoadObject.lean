import GrpcNode.Lib.NamedTree
import GrpcNode.NativeCore.ClientConstructor
import GrpcNode.NativeCore.GrpcOptions

/-!
# GrpcNode.NativeCore.LoadObject

`loadObject` of `index.js`, which tells the versions of Protobuf.js apart, and those of
`protobuf_js_5_common.js` and `protobuf_js_6_common.js`, which turn a tree of reflection objects
into a tree of client constructors and message types.

In Protobuf.js 6, message types are namespaces too, and the loader takes them for nothing else:
in place of a type there is a plain object with what is nested in the type
(`loadsTree_iff`).
-/

namespace GrpcNode.NativeCore

open GrpcNode.Js

/-! ### Reflection objects -/

/-- An object of `ProtoBuf.Reflect`, by its `className`. Classes are built from messages and
enums; a builder has its namespace as the property `ns`. -/
inductive ProtobufJs5.Node (κ : Type)
  | builder (ns : Node κ)
  | nameSpace (children : List (String × Node κ))
  | service (service : ReflectedService Bool κ)
  | message (cls : κ)
  | enum (cls : κ)
  | other

/-- A `ReflectionObject`. A type is a namespace too; so is a service, but nothing is in it. -/
inductive ProtobufJs6.Node (κ : Type)
  | nameSpace (nested : List (String × Node κ))
  | service (service : ReflectedService (Option Bool) κ)
  | type (cls : κ) (nested : List (String × Node κ))
  | enum (cls : κ)

/-- What `loadObject` may be given. Another object has none of the properties that are looked
at. -/
inductive Reflection (κ : Type)
  | js5 (node : ProtobufJs5.Node κ)
  | js6 (node : ProtobufJs6.Node κ)
  | other
  | undefined

/-- A value in what `loadObject` returns, other than a plain object with the values in it. -/
inductive Loaded (κ : Type)
  | client5 (client : ClientConstructor (ProtobufJs5.Codec κ))
  | client6 (client : ClientConstructor (ProtobufJs6.Codec κ))
  /-- `value.build()` -/
  | built (cls : κ)
  | value (v : Reflection κ)

/-- What `loadObject` returns -/
abbrev GrpcObject (κ : Type) := NamedTree String (Loaded κ)

variable {κ : Type}

/-! ### The loaders -/

/-- The loop over what is in a namespace, from what loading the single values gives. An assignment
to `__proto__` makes no property. -/
def assignAll : List (String × Except JsError (GrpcObject κ)) → List (String × GrpcObject κ) →
    Except JsError (List (String × GrpcObject κ))
  | [], result => .ok result
  | (name, .ok object) :: loads, result =>
      assignAll loads (if name = "__proto__" then result else OrderedMap.putIn name object result)
  | (_, .error e) :: _, _ => .error e

namespace ProtobufJs5

mutual

/-- `loadObject` of `protobuf_js_5_common.js` -/
def loadObject (camelCase : String → String) (options : Option LoadOptions) :
    Node κ → Except JsError (GrpcObject κ)
  | .builder ns => loadObject camelCase options ns
  | .nameSpace children => (assignAll (loadChildren camelCase options children) []).map .node
  | .service service =>
      (loadService camelCase service options).map fun client => .leaf (.client5 client)
  | .message cls | .enum cls => .ok (.leaf (.built cls))
  | .other => .ok (.leaf (.value (.js5 .other)))

def loadChildren (camelCase : String → String) (options : Option LoadOptions) :
    List (String × Node κ) → List (String × Except JsError (GrpcObject κ))
  | [] => []
  | (name, child) :: children =>
      (name, loadObject camelCase options child) :: loadChildren camelCase options children

end

/-- `_.isArray(obj.children) && (typeof obj.build === 'function')` -/
def Node.isReflection : Node κ → Bool
  | .nameSpace _ | .service _ | .message _ | .enum _ => true
  | .builder _ | .other => false

end ProtobufJs5

namespace ProtobufJs6

/-- The own property `methods`, as what the service is -/
def Node.methods? : Node κ → Option (ReflectedService (Option Bool) κ)
  | .service reflected => some reflected
  | .nameSpace _ | .type _ _ | .enum _ => none

/-- The own property `nested` -/
def Node.nested? : Node κ → Option (List (String × Node κ))
  | .nameSpace nested | .type _ nested => some nested
  | .service _ => some []
  | .enum _ => none

theorem Node.sizeOf_nested {value : Node κ} {nested : List (String × Node κ)}
    (h : value.nested? = some nested) : sizeOf nested < sizeOf value := by
  cases value with
  | nameSpace nested' | type cls nested' =>
      obtain rfl := Option.some.inj h
      simp
  | service reflected =>
      obtain rfl := Option.some.inj h
      cases reflected
      simp only [List.nil.sizeOf_spec, Node.service.sizeOf_spec,
        ReflectedService.mk.sizeOf_spec]
      omega
  | enum cls => simp [Node.nested?] at h

mutual

/-- `loadObject` of `protobuf_js_6_common.js` -/
def loadObject (camelCase : String → String) (options : Option LoadOptions) (value : Node κ) :
    Except JsError (GrpcObject κ) :=
  match value.methods? with
  | some service =>
      (loadService camelCase service options).map fun client => .leaf (.client6 client)
  | none =>
      match _h : value.nested? with
      | some nested => (assignAll (loadNested camelCase options nested) []).map .node
      | none => .ok (.leaf (.value (.js6 value)))
termination_by sizeOf value
decreasing_by exact Node.sizeOf_nested _h

def loadNested (camelCase : String → String) (options : Option LoadOptions)
    (nested : List (String × Node κ)) : List (String × Except JsError (GrpcObject κ)) :=
  match nested with
  | [] => []
  | (name, value) :: nested =>
      (name, loadObject camelCase options value) :: loadNested camelCase options nested
termination_by sizeOf nested

end

end ProtobufJs6

/-! ### Both versions -/

/-- The versions that there is a loader for -/
inductive ProtobufjsVersion
  | five
  | six
  deriving DecidableEq

/-- `isProbablyProtobufJs6` -/
def isProbablyProtobufJs6 : Reflection κ → Except JsError Bool
  | .js6 _ => .ok true
  | .js5 _ | .other => .ok false
  | .undefined => .error (.typeError "Cannot read property 'root' of undefined")

/-- `isProbablyProtobufJs5` -/
def isProbablyProtobufJs5 : Reflection κ → Except JsError Bool
  | .js5 node => .ok node.isReflection
  | .js6 _ | .other => .ok false
  | .undefined => .error (.typeError "Cannot read property 'children' of undefined")

/-- The guess that is made if the version is `'detect'` -/
def detectVersion (value : Reflection κ) : Except JsError ProtobufjsVersion := do
  if ← isProbablyProtobufJs6 value then return .six
  if ← isProbablyProtobufJs5 value then return .five
  throw (.error ("Could not detect ProtoBuf.js version. Please " ++
    "specify the version number with the \"protobufjs_version\" option"))

/-- The version, from the option `protobufjsVersion` -/
def resolveVersion (value : Reflection κ) (protobufjsVersion : JsValue) :
    Except JsError ProtobufjsVersion :=
  match protobufjsVersion with
  | .string s => if s = "detect" then detectVersion value else unrecognized
  | .number n =>
      if n = .finite 6 then .ok .six
      else if n = .finite 5 then .ok .five
      else unrecognized
  | _ => unrecognized
where
  unrecognized := .error (.error "Unrecognized protobufjsVersion")

/-- The loader of a version, for any value: what is not of the version comes back as it is. -/
def loadVersion (camelCase : String → String) (options : LoadOptions) :
    ProtobufjsVersion → Reflection κ → Except JsError (GrpcObject κ)
  | .five, .js5 node => ProtobufJs5.loadObject camelCase (some options) node
  | .six, .js6 node => ProtobufJs6.loadObject camelCase (some options) node
  | _, value => .ok (.leaf (.value value))

/-- The options, with the defaults that `loadObject` fills in -/
def loadObjectDefaults (options : Options) : Options :=
  defaults (defaults options defaultGrpcOptions) [("protobufjsVersion", .string "detect")]

/-- `loadObject`, with the options that it leaves -/
def loadObject (camelCase : String → String) (value : Reflection κ) (options : Options) :
    Except JsError (GrpcObject κ) × Options :=
  let options := loadObjectDefaults options
  (do loadVersion camelCase (loadOptions options)
        (← resolveVersion value (property options "protobufjsVersion")) value,
    options)

/-! ### What should be there -/

/-- What is reflected at a place of a tree, other than a namespace. -/
inductive Reflected (κ : Type)
  | service5 (service : ReflectedService Bool κ)
  | service6 (service : ReflectedService (Option Bool) κ)
  | built (cls : κ)
  | type6 (cls : κ) (nested : List (String × ProtobufJs6.Node κ))
  | value (v : Reflection κ)

mutual

/-- The tree of a Protobuf.js 5 object -/
def ProtobufJs5.Node.tree : ProtobufJs5.Node κ → NamedTree String (Reflected κ)
  | .builder ns => ns.tree
  | .nameSpace children => .node (treeIn children)
  | .service reflected => .leaf (.service5 reflected)
  | .message cls | .enum cls => .leaf (.built cls)
  | .other => .leaf (.value (.js5 .other))

def ProtobufJs5.Node.treeIn :
    List (String × ProtobufJs5.Node κ) → List (String × NamedTree String (Reflected κ))
  | [] => []
  | (name, child) :: children => (name, child.tree) :: treeIn children

end

mutual

/-- The tree of a Protobuf.js 6 object. A message type is in it as itself. -/
def ProtobufJs6.Node.tree : ProtobufJs6.Node κ → NamedTree String (Reflected κ)
  | .nameSpace nested => .node (treeIn nested)
  | .service reflected => .leaf (.service6 reflected)
  | .type cls nested => .leaf (.type6 cls nested)
  | .enum cls => .leaf (.value (.js6 (.enum cls)))

def ProtobufJs6.Node.treeIn :
    List (String × ProtobufJs6.Node κ) → List (String × NamedTree String (Reflected κ))
  | [] => []
  | (name, value) :: nested => (name, value.tree) :: treeIn nested

end

/-- A tree of namespaces in which no two names are the same. Protobuf.js itself keeps nothing under
the name `__proto__`. -/
def WellNamed (tree : NamedTree String (Reflected κ)) : Prop :=
  tree.WellNamed (· ≠ "__proto__")

/-- What there should be for what is reflected: a client for the definition of a service, the class
of a message, and otherwise the value itself. -/
def Available (camelCase : String → String) (options : LoadOptions) : Reflected κ → Loaded κ → Prop
  | .service5 reflected, .client5 client =>
      client.IsClientOf (ProtobufJs5.getProtobufServiceAttrs camelCase reflected (some options))
  | .service6 reflected, .client6 client => ∃ definition,
      ProtobufJs6.getProtobufServiceAttrs camelCase reflected (some options) = .ok definition ∧
      client.IsClientOf definition
  | .built cls, .built cls' => cls = cls'
  | .type6 cls nested, .value v => v = .js6 (.type cls nested)
  | .value v, .value v' => v = v'
  | _, _ => False

/-- The methods of a service have names that clients allow. -/
def NamesAllowed (camelCase : String → String) : Reflected κ → Prop
  | .service5 reflected => ∀ m ∈ reflected.methods, (camelCase m.name).toList.head? ≠ some '$'
  | .service6 reflected => ∀ m ∈ reflected.methods, (camelCase m.name).toList.head? ≠ some '$'
  | .built _ | .type6 _ _ | .value _ => True

/-- It is a message type of Protobuf.js 6. -/
def Reflected.IsType : Reflected κ → Prop
  | .type6 _ _ => True
  | .service5 _ | .service6 _ | .built _ | .value _ => False

/-! ### Namespaces -/

/-- Loading a value has given this, under its name. -/
def LoadedAs (load : String × Except JsError (GrpcObject κ)) (object : String × GrpcObject κ) :
    Prop :=
  load.1 = object.1 ∧ load.2 = .ok object.2

/-- What the loop makes of different names: all of them, in their order, if every value can be
loaded. -/
theorem assignAll_eq_ok_iff {loads : List (String × Except JsError (GrpcObject κ))}
    {result out : List (String × GrpcObject κ)}
    (hnodup : (result.map Prod.fst ++ loads.map Prod.fst).Nodup)
    (hproto : "__proto__" ∉ loads.map Prod.fst) :
    assignAll loads result = .ok out ↔ ∃ objects, out = result ++ objects ∧
      List.Forall₂ LoadedAs loads objects := by
  induction loads generalizing result with
  | nil => simp [assignAll, eq_comm]
  | cons load loads ih =>
      obtain ⟨name, load⟩ := load
      rw [List.map_cons, List.mem_cons, not_or] at hproto
      cases load with
      | error e =>
          refine iff_of_false (by simp [assignAll]) ?_
          rintro ⟨objects, -, hall⟩
          cases hall with
          | cons hload _ => exact absurd hload.2 (by simp)
      | ok object =>
          have hnew : name ∉ result.map Prod.fst := by
            intro hmem
            exact (List.nodup_append.mp hnodup).2.2 name hmem name (by simp) rfl
          have hput : OrderedMap.putIn name object result = result ++ [(name, object)] :=
            OrderedMap.putIn_of_not_mem object hnew
          have hnodup' : ((result ++ [(name, object)]).map Prod.fst ++
              loads.map Prod.fst).Nodup := by
            simpa using hnodup
          rw [assignAll, if_neg (Ne.symm hproto.1), hput, ih hnodup' hproto.2]
          constructor
          · rintro ⟨objects, rfl, hall⟩
            exact ⟨(name, object) :: objects, by simp, .cons ⟨rfl, rfl⟩ hall⟩
          · rintro ⟨objects, rfl, hall⟩
            cases hall with
            | cons hload hall =>
                obtain ⟨hname, hobject⟩ := hload
                obtain rfl := Except.ok.inj hobject
                obtain rfl := hname
                exact ⟨_, by simp, hall⟩

/-- A namespace is loaded as it should be if everything in it is. -/
theorem namespace_keeps_iff {R : Reflected κ → Loaded κ → Prop}
    {children : List (String × NamedTree String (Reflected κ))}
    {loads : List (String × Except JsError (GrpcObject κ))}
    (hnames : loads.map Prod.fst = children.map Prod.fst)
    (hwell : WellNamed (.node children)) :
    (∃ object, (assignAll loads []).map NamedTree.node = .ok object ∧
      (NamedTree.node children).Rel R object) ↔
    ∃ objects, List.Forall₂ LoadedAs loads objects ∧ NamedTree.RelIn R children objects := by
  obtain ⟨hnodup, hproto, -⟩ := hwell
  have hok : ∀ out, assignAll loads [] = .ok out ↔ List.Forall₂ LoadedAs loads out := by
    intro out
    rw [assignAll_eq_ok_iff (by simpa [hnames] using hnodup)
      (fun hmem => hproto _ (hnames ▸ hmem) rfl)]
    simp
  constructor
  · rintro ⟨object, hobject, hrel⟩
    obtain ⟨out, hassign, rfl⟩ := map_eq_ok hobject
    exact ⟨out, (hok out).mp hassign, hrel⟩
  · rintro ⟨objects, hall, hrel⟩
    exact ⟨.node objects, by rw [(hok objects).mpr hall]; rfl, hrel⟩

/-- One more value in it -/
theorem cons_keeps_iff {R : Reflected κ → Loaded κ → Prop} {name : String}
    {tree : NamedTree String (Reflected κ)} {load : Except JsError (GrpcObject κ)}
    {children : List (String × NamedTree String (Reflected κ))}
    {loads : List (String × Except JsError (GrpcObject κ))} :
    (∃ objects, List.Forall₂ LoadedAs ((name, load) :: loads) objects ∧
      NamedTree.RelIn R ((name, tree) :: children) objects) ↔
    (∃ object, load = .ok object ∧ tree.Rel R object) ∧
      ∃ objects, List.Forall₂ LoadedAs loads objects ∧ NamedTree.RelIn R children objects := by
  have hload : ∀ object, LoadedAs (name, load) (name, object) ↔ load = .ok object :=
    fun object => and_iff_right rfl
  rw [NamedTree.exists_relIn_cons_iff]
  simp only [hload]

/-! ### Services -/

section

variable (camelCase : String → String) (options : LoadOptions)

/-- The keys of a definition are the names of the methods in camel case. -/
theorem forall_key_iff {flag φ : Type} {service : ReflectedService flag κ}
    {attrs : ReflectedMethod flag κ → MethodDefinition φ} {definition : ServiceDefinition φ}
    (hfrom : FromMethods camelCase service attrs definition) (P : String → Prop) :
    (∀ e ∈ definition.entries, P e.1) ↔ ∀ m ∈ service.methods, P (camelCase m.name) := by
  constructor
  · intro h m hm
    obtain ⟨v, hv⟩ := OrderedMap.exists_lookup_ofPairs
      (List.mem_map_of_mem (f := fun m => (camelCase m.name, attrs m)) hm)
    rw [← hfrom] at hv
    exact h _ (OrderedMap.mem_of_lookup hv)
  · intro h e he
    rw [OrderedMap.mem_entries_iff, hfrom] at he
    obtain ⟨m, hm, heq⟩ := List.mem_map.mp (OrderedMap.mem_of_lookup_ofPairs he)
    rw [← congrArg Prod.fst heq]
    exact h m hm

theorem service5_keeps_iff (service : ReflectedService Bool κ) :
    (∃ object : GrpcObject κ, (ProtobufJs5.loadService camelCase service (some options)).map
        (fun client => NamedTree.leaf (.client5 client)) = .ok object ∧
      (NamedTree.leaf (.service5 service)).Rel (Available camelCase options) object) ↔
    NamesAllowed camelCase (.service5 service) := by
  have hkey := forall_key_iff camelCase (ProtobufJs5.fromMethods camelCase service (some options))
    (·.toList.head? ≠ some '$')
  rw [ProtobufJs5.loadService, NamesAllowed, ← hkey]
  rcases makeClientConstructor_cases
    (ProtobufJs5.getProtobufServiceAttrs camelCase service (some options)) (some options) with
    ⟨hnames, client, hok, hclient⟩ | ⟨⟨e, he, hname⟩, hno⟩
  · exact iff_of_true ⟨.leaf (.client5 client), by rw [hok]; rfl, hclient⟩ hnames
  · refine iff_of_false ?_ fun h => h e he hname
    rintro ⟨object, hobject, -⟩
    obtain ⟨client, hclient, -⟩ := map_eq_ok hobject
    exact hno client hclient

theorem service6_keeps_iff (service : ReflectedService (Option Bool) κ) :
    (∃ object : GrpcObject κ, (ProtobufJs6.loadService camelCase service (some options)).map
        (fun client => NamedTree.leaf (.client6 client)) = .ok object ∧
      (NamedTree.leaf (.service6 service)).Rel (Available camelCase options) object) ↔
    NamesAllowed camelCase (.service6 service) := by
  rcases ProtobufJs6.getProtobufServiceAttrs_cases camelCase service (some options) with
    ⟨-, attrs, definition, hdefinition, hfrom, -⟩ | ⟨-, hnone, -⟩
  · rw [ProtobufJs6.loadService_eq hdefinition, NamesAllowed, ← forall_key_iff camelCase hfrom (·.toList.head? ≠ some '$')]
    rcases makeClientConstructor_cases definition (none : Option LoadOptions) with
      ⟨hnames, client, hok, hclient⟩ | ⟨⟨e, he, hname⟩, hno⟩
    · exact iff_of_true ⟨.leaf (.client6 client), by rw [hok]; rfl, definition, hdefinition,
        hclient⟩ hnames
    · refine iff_of_false ?_ fun h => h e he hname
      rintro ⟨object, hobject, -⟩
      obtain ⟨client, hclient, -⟩ := map_eq_ok hobject
      exact hno client hclient
  · exact absurd hnone (by simp)

end

/-! ### Trees -/

section

variable (camelCase : String → String) (options : LoadOptions)

theorem ProtobufJs5.names_loadChildren (children : List (String × Node κ)) :
    (loadChildren camelCase (some options) children).map Prod.fst =
      (Node.treeIn children).map Prod.fst := by
  induction children with
  | nil => rfl
  | cons child children ih =>
      rw [loadChildren, Node.treeIn, List.map_cons, List.map_cons, ih]

theorem ProtobufJs6.names_loadNested (nested : List (String × Node κ)) :
    (loadNested camelCase (some options) nested).map Prod.fst =
      (Node.treeIn nested).map Prod.fst := by
  induction nested with
  | nil => simp [loadNested, Node.treeIn]
  | cons value nested ih =>
      rw [loadNested, Node.treeIn, List.map_cons, List.map_cons, ih]

mutual

/-- The first loader keeps the tree. -/
theorem ProtobufJs5.loadObject_keeps_iff (root : Node κ) (hwell : WellNamed root.tree) :
    (∃ object, loadObject camelCase (some options) root = .ok object ∧
      root.tree.Rel (Available camelCase options) object) ↔
    root.tree.Forall (NamesAllowed camelCase) := by
  cases root with
  | builder ns =>
      rw [loadObject, Node.tree]
      rw [Node.tree] at hwell
      exact loadObject_keeps_iff ns hwell
  | nameSpace children =>
      rw [Node.tree] at hwell
      rw [loadObject, Node.tree,
        namespace_keeps_iff (names_loadChildren camelCase options children) hwell]
      exact loadChildren_keeps_iff children hwell.2.2
  | service reflected =>
      rw [loadObject, Node.tree]
      exact service5_keeps_iff camelCase options reflected
  | message cls | enum cls =>
      exact iff_of_true ⟨.leaf (.built cls), by rw [loadObject], (rfl : cls = cls)⟩ trivial
  | other =>
      exact iff_of_true ⟨.leaf (.value (.js5 .other)), by rw [loadObject],
        (rfl : Reflection.js5 Node.other = .js5 .other)⟩ trivial

theorem ProtobufJs5.loadChildren_keeps_iff (children : List (String × Node κ))
    (hwell : NamedTree.WellNamedIn (· ≠ "__proto__") (Node.treeIn children)) :
    (∃ objects, List.Forall₂ LoadedAs (loadChildren camelCase (some options) children) objects ∧
      NamedTree.RelIn (Available camelCase options) (Node.treeIn children) objects) ↔
    NamedTree.ForallIn (NamesAllowed camelCase) (Node.treeIn children) := by
  cases children with
  | nil => exact iff_of_true ⟨[], .nil, trivial⟩ trivial
  | cons child children =>
      obtain ⟨name, child⟩ := child
      rw [loadChildren, Node.treeIn, cons_keeps_iff, loadObject_keeps_iff child hwell.1,
        loadChildren_keeps_iff children hwell.2]
      rfl

end

/-! The properties that the second loader looks at decide how an object is loaded. -/

theorem ProtobufJs6.loadObject_service (reflected : ReflectedService (Option Bool) κ) :
    loadObject camelCase (some options) (.service reflected) =
      (loadService camelCase reflected (some options)).map fun client =>
        .leaf (.client6 client) := by
  rw [loadObject]
  rfl

theorem ProtobufJs6.loadObject_of_nested (value : Node κ) {nested : List (String × Node κ)}
    (hmethods : value.methods? = none) (hnested : value.nested? = some nested) :
    loadObject camelCase (some options) value =
      (assignAll (loadNested camelCase (some options) nested) []).map .node := by
  rw [loadObject, hmethods]
  dsimp only
  split
  · rename_i nested' hsome
    obtain rfl := Option.some.inj (hnested.symm.trans hsome)
    rfl
  · rename_i hnone
    exact absurd (hnested.symm.trans hnone) (by simp)

theorem ProtobufJs6.loadObject_enum (cls : κ) :
    loadObject camelCase (some options) (.enum cls) = .ok (.leaf (.value (.js6 (.enum cls)))) := by
  rw [loadObject]
  rfl

/-- What is loaded for a message type is not the type. -/
theorem ProtobufJs6.not_rel_type (cls : κ) (nested : List (String × Node κ)) :
    ¬ ∃ object, loadObject camelCase (some options) (.type cls nested) = .ok object ∧
      (Node.type cls nested).tree.Rel (Available camelCase options) object := by
  rintro ⟨object, hload, hrel⟩
  rw [loadObject_of_nested camelCase options (.type cls nested) rfl rfl] at hload
  obtain ⟨objects, -, rfl⟩ := map_eq_ok hload
  rw [Node.tree] at hrel
  exact hrel.elim

mutual

/-- The second one keeps a tree only if there are no message types in it. -/
theorem ProtobufJs6.loadObject_keeps_iff (root : Node κ) (hwell : WellNamed root.tree) :
    (∃ object, loadObject camelCase (some options) root = .ok object ∧
      root.tree.Rel (Available camelCase options) object) ↔
    root.tree.Forall fun reflected => NamesAllowed camelCase reflected ∧ ¬ reflected.IsType := by
  cases root with
  | nameSpace nested =>
      rw [Node.tree] at hwell
      rw [loadObject_of_nested camelCase options (.nameSpace nested) rfl rfl, Node.tree,
        namespace_keeps_iff (names_loadNested camelCase options nested) hwell]
      exact loadNested_keeps_iff nested hwell.2.2
  | service reflected =>
      rw [loadObject_service, Node.tree, service6_keeps_iff]
      exact (and_iff_left id).symm
  | type cls nested =>
      exact iff_of_false (not_rel_type camelCase options cls nested) fun h => h.2 trivial
  | enum cls =>
      rw [loadObject_enum]
      exact iff_of_true ⟨.leaf (.value (.js6 (.enum cls))), rfl,
        (rfl : Reflection.js6 (Node.enum cls) = .js6 (.enum cls))⟩ ⟨trivial, id⟩

theorem ProtobufJs6.loadNested_keeps_iff (nested : List (String × Node κ))
    (hwell : NamedTree.WellNamedIn (· ≠ "__proto__") (Node.treeIn nested)) :
    (∃ objects, List.Forall₂ LoadedAs (loadNested camelCase (some options) nested) objects ∧
      NamedTree.RelIn (Available camelCase options) (Node.treeIn nested) objects) ↔
    NamedTree.ForallIn (fun reflected => NamesAllowed camelCase reflected ∧ ¬ reflected.IsType)
      (Node.treeIn nested) := by
  cases nested with
  | nil => exact iff_of_true ⟨[], by rw [loadNested]; exact .nil, trivial⟩ trivial
  | cons value nested =>
      obtain ⟨name, value⟩ := value
      rw [loadNested, Node.treeIn, cons_keeps_iff, loadObject_keeps_iff value hwell.1,
        loadNested_keeps_iff nested hwell.2]
      rfl

end

end

/-! ### Loading -/

/-- A tree of Protobuf.js 6 objects -/
structure ProtobufJs6.ReflectionTree (κ : Type) where
  root : Node κ
  wellNamed : WellNamed root.tree

/-- A tree of Protobuf.js 5 objects -/
structure ProtobufJs5.ReflectionTree (κ : Type) where
  root : Node κ
  wellNamed : WellNamed root.tree

/-- The options leave it to `loadObject` to detect version 6, or ask for it. -/
def Expects6 (options : Options) : Prop :=
  property options "protobufjsVersion" = .undefined ∨
    property options "protobufjsVersion" = .string "detect" ∨
    property options "protobufjsVersion" = .number (.finite 6)

/-- A value is loaded, and everything that is reflected in it is there under its name. -/
def LoadsTree (camelCase : String → String) (value : Reflection κ)
    (tree : NamedTree String (Reflected κ)) (options : Options) : Prop :=
  ∃ object, (loadObject camelCase value options).1 = .ok object ∧
    tree.Rel (Available camelCase (loadOptions (loadObjectDefaults options))) object

/-- The default of the version -/
theorem property_version (options : Options) :
    property (loadObjectDefaults options) "protobufjsVersion" =
      if (property options "protobufjsVersion").isUndefined then .string "detect"
      else property options "protobufjsVersion" := by
  have hother : (defaults options defaultGrpcOptions).lookup "protobufjsVersion" =
      options.lookup "protobufjsVersion" :=
    lookup_defaults_of_not_mem options (by decide) (by decide)
  have hproperty : property (defaults options defaultGrpcOptions) "protobufjsVersion" =
      property options "protobufjsVersion" := by
    rw [property, hother, property]
  rw [property, loadObjectDefaults, lookup_defaults _ (by simp), hproperty, hother]
  by_cases hundefined : (property options "protobufjsVersion").isUndefined = true
  · rw [if_pos hundefined, if_pos hundefined]
    rfl
  · rw [if_neg hundefined, if_neg hundefined]
    rfl

theorem resolveVersion_six {options : Options} (h : Expects6 options)
    (node : ProtobufJs6.Node κ) :
    resolveVersion (.js6 node) (property (loadObjectDefaults options) "protobufjsVersion") =
      .ok .six := by
  rw [property_version]
  rcases h with h | h | h <;> rw [h] <;> rfl

theorem loadObject_of_expects6 {options : Options} (h : Expects6 options)
    (camelCase : String → String) (node : ProtobufJs6.Node κ) :
    (loadObject camelCase (.js6 node) options).1 =
      ProtobufJs6.loadObject camelCase (some (loadOptions (loadObjectDefaults options))) node := by
  rw [loadObject, resolveVersion_six h]
  rfl

/-- **Loading keeps the tree exactly if there are no message types in it**, whereas the loader of
Protobuf.js 5 keeps every tree. Both need services with names that clients allow. -/
theorem loadsTree_iff (camelCase : String → String) :
    (∀ (tree : ProtobufJs6.ReflectionTree κ) (options : Options), Expects6 options →
      (LoadsTree camelCase (.js6 tree.root) tree.root.tree options ↔
        tree.root.tree.Forall fun reflected =>
          NamesAllowed camelCase reflected ∧ ¬ reflected.IsType)) ∧
    ∀ (tree : ProtobufJs5.ReflectionTree κ) (options : LoadOptions),
      (∃ object, ProtobufJs5.loadObject camelCase (some options) tree.root = .ok object ∧
        tree.root.tree.Rel (Available camelCase options) object) ↔
      tree.root.tree.Forall (NamesAllowed camelCase) := by
  refine ⟨fun tree options h => ?_, fun tree options => ?_⟩
  · unfold LoadsTree
    rw [loadObject_of_expects6 h]
    exact ProtobufJs6.loadObject_keeps_iff camelCase _ tree.root tree.wellNamed
  · exact ProtobufJs5.loadObject_keeps_iff camelCase options tree.root tree.wellNamed

/-- A namespace with a message type, in which nothing is nested -/
def messageTree : ProtobufJs6.ReflectionTree Unit where
  root := .nameSpace [("Message", .type () [])]
  wellNamed := by
    simp [WellNamed, ProtobufJs6.Node.tree, ProtobufJs6.Node.treeIn, NamedTree.WellNamed,
      NamedTree.WellNamedIn]

/-- In place of the type there is an empty object. -/
theorem not_loadsTree_message :
    (loadObject id (.js6 messageTree.root) .empty).1 = .ok (.node [("Message", .node [])]) ∧
    ¬ LoadsTree id (.js6 messageTree.root) messageTree.root.tree .empty := by
  have hmessage : ∀ options : LoadOptions,
      ProtobufJs6.loadObject id (some options) (.type () []) = .ok (.node []) := by
    intro options
    rw [ProtobufJs6.loadObject_of_nested id options (.type () []) rfl rfl,
      ProtobufJs6.loadNested]
    rfl
  have hload : (loadObject id (.js6 messageTree.root) .empty).1 =
      .ok (.node [("Message", .node [])]) := by
    rw [loadObject_of_expects6 (.inl rfl), messageTree,
      ProtobufJs6.loadObject_of_nested id _ (.nameSpace _) rfl rfl,
      ProtobufJs6.loadNested, hmessage, ProtobufJs6.loadNested]
    rfl
  refine ⟨hload, ?_⟩
  rintro ⟨object, hobject, hrel⟩
  obtain rfl := Except.ok.inj (hload.symm.trans hobject)
  rw [messageTree, ProtobufJs6.Node.tree, ProtobufJs6.Node.treeIn, ProtobufJs6.Node.tree] at hrel
  exact hrel.2.1.elim

end GrpcNode.NativeCore
