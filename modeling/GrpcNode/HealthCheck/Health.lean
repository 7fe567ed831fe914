import GrpcNode.Js.Object
import GrpcNode.Lib.OrderedMap

/-!
# GrpcNode.HealthCheck.Health

`health.js`: the statuses of services, and what is answered when a client asks for one.

The statuses are in a plain object, and `_.get` of lodash reads them: a name that is not in the
object is split into a path. So the name of a service may also lead to what objects inherit, or to
the members of a status (`answers_iff`).

How lodash splits a name may be any function here, and so may be the members of built-in objects.
-/

namespace GrpcNode.HealthCheck

open GrpcNode.Js

/-! ### Values -/

/-- A value that is read: a status, which is a number, or something that is built in -/
inductive Value (σ β : Type)
  | status (s : σ)
  | builtIn (b : β)
  deriving DecidableEq

/-- The members of what is built in. There is `none` where a member is `undefined` or `null`. -/
structure BuiltIns (σ β : Type) where
  /-- The members of `Object.prototype` -/
  ofObject : String → β
  /-- `status[name]` -/
  ofStatus : σ → String → Except JsError (Option β)
  /-- `value[name]`, where some getters throw -/
  ofBuiltIn : β → String → Except JsError (Option β)

variable {σ β : Type}

/-- `value[name]` -/
def BuiltIns.member (builtIns : BuiltIns σ β) : Value σ β → String → Except JsError (Option β)
  | .status s, name => builtIns.ofStatus s name
  | .builtIn b, name => builtIns.ofBuiltIn b name

/-- A plain object with statuses as its own properties -/
abbrev StatusMap (σ : Type) := OrderedMap String σ

/-- `name in statusMap` -/
def isIn (name : String) (statusMap : StatusMap σ) : Prop :=
  (statusMap.lookup name).isSome ∨ name ∈ objectPrototypeNames

instance (name : String) (statusMap : StatusMap σ) : Decidable (isIn name statusMap) :=
  inferInstanceAs (Decidable (_ ∨ _))

/-- `statusMap[name]` -/
def BuiltIns.read (builtIns : BuiltIns σ β) (statusMap : StatusMap σ) (name : String) :
    Option (Value σ β) :=
  match statusMap.lookup name with
  | some s => some (.status s)
  | none =>
      if name ∈ objectPrototypeNames then some (.builtIn (builtIns.ofObject name)) else none

/-- `statusMap[name] = s`. A number does not become the prototype. -/
def assign (statusMap : StatusMap σ) (name : String) (s : σ) : StatusMap σ :=
  if name = "__proto__" then statusMap else statusMap.put name s

/-! ### `_.get` -/

/-- The rest of the loop of `baseGet`, which ends at `undefined` and `null` -/
def BuiltIns.follow (builtIns : BuiltIns σ β) (value : Value σ β) :
    List String → Except JsError (Option (Value σ β))
  | [] => .ok (some value)
  | name :: path =>
      match builtIns.member value name with
      | .ok (some b) => follow builtIns (.builtIn b) path
      | .ok none => .ok none
      | .error e => .error e

/-- `_.get(statusMap, service, null)`, where `toPath` splits strings -/
def BuiltIns.get (builtIns : BuiltIns σ β) (toPath : String → List String)
    (statusMap : StatusMap σ) (service : String) : Except JsError (Option (Value σ β)) :=
  match if isIn service statusMap then [service] else toPath service with
  | [] => .ok none
  | name :: path =>
      match builtIns.read statusMap name with
      | some value => builtIns.follow value path
      | none => .ok none

/-! ### `HealthImplementation` -/

/-- What `check` calls back with -/
inductive Answer (σ β : Type)
  | notFound
  | response (status : Value σ β)
  deriving DecidableEq

structure HealthImplementation (σ : Type) where
  statusMap : StatusMap σ

namespace HealthImplementation

/-- `_.clone` assigns the own properties to a new object. -/
def new (statusMap : StatusMap σ) : HealthImplementation σ :=
  ⟨statusMap.entries.foldl (fun m e => assign m e.1 e.2) .empty⟩

def setStatus (health : HealthImplementation σ) (service : String) (status : σ) :
    HealthImplementation σ :=
  ⟨assign health.statusMap service status⟩

/-- `check`, of a request for a service. An exception is not called back with. -/
def check (builtIns : BuiltIns σ β) (toPath : String → List String)
    (health : HealthImplementation σ) (service : String) : Except JsError (Answer σ β) :=
  match builtIns.get toPath health.statusMap service with
  | .ok (some status) => .ok (.response status)
  | .ok none => .ok .notFound
  | .error e => .error e

/-- Calls of `setStatus`, one after the other -/
def setAll (health : HealthImplementation σ) (calls : List (String × σ)) :
    HealthImplementation σ :=
  calls.foldl (fun health call => health.setStatus call.1 call.2) health

end HealthImplementation

/-! ### The statuses that have been set -/

/-- The status that has been set last for a service -/
def lastStatus (initial : StatusMap σ) (calls : List (String × σ)) (service : String) : Option σ :=
  (OrderedMap.lookupIn service calls.reverse).or (initial.lookup service)

/-- The answer for exactly this service -/
def expected (initial : StatusMap σ) (calls : List (String × σ)) (service : String) : Answer σ β :=
  match lastStatus initial calls service with
  | some s => .response (.status s)
  | none => .notFound

/-- After these calls, a service is answered for as it should be. -/
def Answers (builtIns : BuiltIns σ β) (toPath : String → List String) (initial : StatusMap σ)
    (calls : List (String × σ)) (service : String) : Prop :=
  ((HealthImplementation.new initial).setAll calls).check builtIns toPath service =
    .ok (expected initial calls service)

theorem lookup_assign (statusMap : StatusMap σ) (name service : String) (s : σ) :
    (assign statusMap name s).lookup service =
      if service = "__proto__" then statusMap.lookup service
      else (statusMap.put name s).lookup service := by
  unfold assign
  split
  · rename_i hname
    split
    · rfl
    · rename_i hproto
      rw [OrderedMap.lookup_put_of_ne _ _ (hname ▸ hproto)]
  · rename_i hname
    split
    · rename_i hproto
      rw [OrderedMap.lookup_put_of_ne _ _ (hproto ▸ Ne.symm hname)]
    · rfl

/-- Assignments keep the last status of every name but `__proto__`. -/
theorem lookup_foldl_assign (calls : List (String × σ)) (statusMap : StatusMap σ)
    (service : String) :
    (calls.foldl (fun m e => assign m e.1 e.2) statusMap).lookup service =
      if service = "__proto__" then statusMap.lookup service
      else (OrderedMap.lookupIn service calls.reverse).or (statusMap.lookup service) := by
  by_cases hproto : service = "__proto__"
  · rw [if_pos hproto]
    induction calls generalizing statusMap with
    | nil => rfl
    | cons call calls ih => rw [List.foldl_cons, ih, lookup_assign, if_pos hproto]
  · rw [if_neg hproto, ← OrderedMap.lookup_foldl_put]
    -- The maps that assigning and putting lead to agree at every step.
    have hsame : ∀ m m' : StatusMap σ, m.lookup service = m'.lookup service →
        (calls.foldl (fun m e => assign m e.1 e.2) m).lookup service =
          (calls.foldl (fun m e => m.put e.1 e.2) m').lookup service := by
      induction calls with
      | nil => exact fun m m' h => h
      | cons call calls ih =>
          intro m m' h
          refine ih _ _ ?_
          rw [lookup_assign, if_neg hproto]
          by_cases hname : service = call.1
          · rw [hname, OrderedMap.lookup_put_self, OrderedMap.lookup_put_self]
          · rw [OrderedMap.lookup_put_of_ne _ _ hname, OrderedMap.lookup_put_of_ne _ _ hname, h]
    exact hsame statusMap statusMap rfl

theorem statusMap_setAll (health : HealthImplementation σ) (calls : List (String × σ)) :
    (health.setAll calls).statusMap =
      calls.foldl (fun m e => assign m e.1 e.2) health.statusMap := by
  induction calls generalizing health with
  | nil => rfl
  | cons call calls ih => exact ih (health.setStatus call.1 call.2)

/-- What is in the map after a run -/
theorem lookup_statusMap (initial : StatusMap σ) (calls : List (String × σ)) (service : String) :
    ((HealthImplementation.new initial).setAll calls).statusMap.lookup service =
      if service = "__proto__" then none else lastStatus initial calls service := by
  have hempty : (OrderedMap.empty : StatusMap σ).lookup service = none := rfl
  have hclone := OrderedMap.lookup_ofPairs_entries initial service
  rw [OrderedMap.lookup_ofPairs] at hclone
  rw [statusMap_setAll, lookup_foldl_assign, HealthImplementation.new, lookup_foldl_assign, hempty,
    Option.or_none, hclone, lastStatus]
  by_cases hproto : service = "__proto__"
  · rw [if_pos hproto, if_pos hproto, if_pos hproto]
  · rw [if_neg hproto, if_neg hproto, if_neg hproto]

/-! ### Names that lead nowhere -/

/-- From a value, the path does not lead to anything. -/
def NoMember (builtIns : BuiltIns σ β) : Value σ β → List String → Prop
  | _, [] => False
  | value, name :: path =>
      match builtIns.member value name with
      | .ok none => True
      | .ok (some b) => NoMember builtIns (.builtIn b) path
      | .error _ => False

/-- The path starts with no status and nothing that objects inherit, or leads from there to
nothing. -/
def Nowhere (builtIns : BuiltIns σ β) (statusMap : StatusMap σ) : List String → Prop
  | [] => True
  | name :: path => ∀ value, builtIns.read statusMap name = some value →
      NoMember builtIns value path

theorem follow_eq_none_iff (builtIns : BuiltIns σ β) (value : Value σ β) (path : List String) :
    builtIns.follow value path = .ok none ↔ NoMember builtIns value path := by
  induction path generalizing value with
  | nil => simp [BuiltIns.follow, NoMember]
  | cons name path ih =>
      rw [BuiltIns.follow, NoMember]
      cases builtIns.member value name with
      | error e => simp
      | ok member =>
          cases member with
          | none => simp
          | some b => exact ih (.builtIn b)

/-- What is inherited is read if there is no status. -/
theorem get_of_inherited (builtIns : BuiltIns σ β) (toPath : String → List String)
    {statusMap : StatusMap σ} {service : String} (h : statusMap.lookup service = none)
    (hinherited : service ∈ objectPrototypeNames) :
    builtIns.get toPath statusMap service =
      .ok (some (.builtIn (builtIns.ofObject service))) := by
  have hread : builtIns.read statusMap service = some (.builtIn (builtIns.ofObject service)) := by
    rw [BuiltIns.read, h]
    exact if_pos hinherited
  rw [BuiltIns.get, if_pos (.inr hinherited)]
  dsimp only
  rw [hread]
  rfl

/-- What is read of a name that is not in the map: nothing, unless its path leads somewhere -/
theorem get_eq_none_iff (builtIns : BuiltIns σ β) (toPath : String → List String)
    {statusMap : StatusMap σ} {service : String} (h : statusMap.lookup service = none) :
    builtIns.get toPath statusMap service = .ok none ↔
      service ∉ objectPrototypeNames ∧ Nowhere builtIns statusMap (toPath service) := by
  by_cases hinherited : service ∈ objectPrototypeNames
  · rw [get_of_inherited builtIns toPath h hinherited]
    exact iff_of_false (by simp) fun hn => hn.1 hinherited
  · have hnot : ¬ isIn service statusMap := by
      rintro (hown | hown)
      · simp [h] at hown
      · exact hinherited hown
    rw [BuiltIns.get, if_neg hnot, and_iff_right hinherited]
    cases toPath service with
    | nil => exact iff_of_true rfl trivial
    | cons name path =>
        dsimp only [Nowhere]
        cases builtIns.read statusMap name with
        | none => simp
        | some value => simpa using follow_eq_none_iff builtIns value path

/-! ### Answers -/

/-- **A service is answered for as it should be exactly if a status has been set for it, or if its
name leads nowhere**; no status can be set for the name `__proto__`. -/
theorem answers_iff (builtIns : BuiltIns σ β) (toPath : String → List String)
    (initial : StatusMap σ) (calls : List (String × σ)) (service : String) :
    Answers builtIns toPath initial calls service ↔
      (lastStatus initial calls service ≠ none ∧ service ≠ "__proto__") ∨
      (lastStatus initial calls service = none ∧ service ∉ objectPrototypeNames ∧
        Nowhere builtIns ((HealthImplementation.new initial).setAll calls).statusMap
          (toPath service)) := by
  have hlookup := lookup_statusMap initial calls service
  unfold Answers HealthImplementation.check expected
  generalize ((HealthImplementation.new initial).setAll calls).statusMap = statusMap at hlookup ⊢
  cases hlast : lastStatus initial calls service with
  | some s =>
      by_cases hproto : service = "__proto__"
      · -- What is read of this name is the prototype of the object.
        rw [if_pos hproto] at hlookup
        have hinherited : service ∈ objectPrototypeNames := by
          rw [hproto]
          decide
        rw [get_of_inherited builtIns toPath hlookup hinherited]
        exact iff_of_false (by simp) (by simp [hproto])
      · rw [if_neg hproto, hlast] at hlookup
        have hget : builtIns.get toPath statusMap service = .ok (some (.status s)) := by
          rw [BuiltIns.get, if_pos (.inl (by rw [hlookup]; rfl))]
          dsimp only
          rw [BuiltIns.read, hlookup]
          rfl
        rw [hget]
        exact iff_of_true rfl (.inl ⟨by simp, hproto⟩)
  | none =>
      have hnone : statusMap.lookup service = none := by
        rw [hlookup, hlast, ite_self]
      rw [← get_eq_none_iff builtIns toPath hnone]
      cases hget : builtIns.get toPath statusMap service with
      | error e => simp
      | ok value =>
          cases value with
          | none => simp
          | some value => simp

/-! ### The name `constructor` -/

/-- Names in place of values: a member is its name, and nothing has members of its own. -/
def named : BuiltIns Nat String where
  ofObject name := name
  ofStatus _ _ := .ok none
  ofBuiltIn _ _ := .ok none

/-- No status has been set, but there is one for the service `constructor`. -/
theorem not_answers_constructor :
    (HealthImplementation.new (.empty : StatusMap Nat)).check named ([·]) "constructor" =
      .ok (.response (.builtIn "constructor")) ∧
    ¬ ∀ service, Answers named ([·]) .empty [] service := by
  refine ⟨by decide, fun h => ?_⟩
  have hconstructor := h "constructor"
  unfold Answers at hconstructor
  exact absurd hconstructor (by decide)

end GrpcNode.HealthCheck
