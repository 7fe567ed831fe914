import GrpcNode.JsCore.GenerateMetadata
import GrpcNode.JsCore.MetadataMultimap
import GrpcNode.Lib.Runs

/-!
# GrpcNode.JsCore.ComposedMetadata

Composition of call credentials is concatenation.

Where `merge` appends key by key, what composed credentials make of the metadata of their parts
can be told by the generators alone, read from left to right (`summary`): by what each of them
passes to its callback first (`passed`). So it makes no difference how the credentials are nested
(`compose_concatenates`).
-/

namespace GrpcNode.JsCore

open GrpcNode.Js

namespace Metadata

/-! ### Merging ordinary objects -/

/-- What can be merged key by key: arrays, none of them under an inherited name. -/
def Mergeable (m : Metadata) : Prop :=
  ∀ e ∈ m.internalRepr.own.entries, e.2.isArray = true ∧ e.1 ∉ objectPrototypeNames

instance : DecidablePred Mergeable := fun m => inferInstanceAs
  (Decidable (∀ e ∈ m.internalRepr.own.entries, e.2.isArray = true ∧ e.1 ∉ objectPrototypeNames))

/-- What can be merged into: an object that besides inherits nothing else. -/
structure Ordinary (m : Metadata) : Prop where
  proto : m.internalRepr.proto = .object
  mergeable : Mergeable m

theorem Ordinary.new : Ordinary Metadata.new := ⟨rfl, by simp [Mergeable, Metadata.new,
  MetadataObject.empty, OrderedMap.empty]⟩

/-- The values of a key among entries. -/
def valuesIn (key : String) (es : List (String × PropertyValue)) : List MetadataValue :=
  match OrderedMap.lookupIn key es with
  | some (.array values) => values
  | _ => []

variable {m other : Metadata} {key : String}

theorem values_put {us : List MetadataValue} (hproto : key ≠ "__proto__") (k : String) :
    values ⟨m.internalRepr.put key (.array us)⟩ k = if k = key then us else m.values k := by
  unfold values
  simp only [MetadataObject.put, if_neg hproto]
  by_cases hk : k = key
  · simp [hk]
  · rw [OrderedMap.lookup_put_of_ne _ _ hk, if_neg hk]

theorem Ordinary.put (hm : Ordinary m) (hkey : key ∉ objectPrototypeNames)
    (us : List MetadataValue) : Ordinary ⟨m.internalRepr.put key (.array us)⟩ := by
  have hproto := ne_proto_of_not_mem hkey
  refine ⟨by simpa [MetadataObject.put, hproto] using hm.proto, fun e he => ?_⟩
  have hlookup := OrderedMap.mem_entries_iff.mp (show (e.1, e.2) ∈ _ from he)
  simp only [MetadataObject.put, if_neg hproto] at hlookup
  by_cases hk : e.1 = key
  · rw [hk, OrderedMap.lookup_put_self, Option.some.injEq] at hlookup
    rw [hk, ← hlookup]
    exact ⟨rfl, hkey⟩
  · rw [OrderedMap.lookup_put_of_ne _ _ hk] at hlookup
    exact hm.mergeable e (OrderedMap.mem_of_lookup hlookup)

/-- What `merge` finds under a key, and appends to. -/
theorem Ordinary.concat_get (hm : Ordinary m) (hkey : key ∉ objectPrototypeNames)
    (vs : List MetadataValue) :
    (m.internalRepr.get key).orEmptyArray.concat (.array vs) =
      .ok (.array (m.values key ++ vs)) := by
  unfold MetadataObject.get values
  cases hlookup : m.internalRepr.own.lookup key with
  | none =>
      simp [hm.proto, Prototype.get, hkey, Lookup.orEmptyArray, Lookup.truthy, Lookup.concat]
  | some v =>
      have harray := (hm.mergeable _ (OrderedMap.mem_of_lookup hlookup)).1
      cases v with
      | array us => rfl
      | string s => exact absurd harray (by simp [PropertyValue.isArray])

theorem Ordinary.mergeEntries {es : List (String × PropertyValue)}
    (hes : ∀ e ∈ es, e.2.isArray = true ∧ e.1 ∉ objectPrototypeNames)
    (hnodup : (es.map Prod.fst).Nodup) (hm : Ordinary m) :
    ∃ m', Metadata.mergeEntries m.internalRepr es = (m'.internalRepr, none) ∧ Ordinary m' ∧
      ∀ key, m'.values key = m.values key ++ valuesIn key es := by
  induction es generalizing m with
  | nil => exact ⟨m, rfl, hm, fun key => (List.append_nil _).symm⟩
  | cons e es ih =>
      obtain ⟨name, v⟩ := e
      obtain ⟨harray, hname⟩ := hes (name, v) List.mem_cons_self
      rw [List.map_cons, List.nodup_cons] at hnodup
      cases v with
      | string s => exact absurd harray (by simp [PropertyValue.isArray])
      | array vs =>
          obtain ⟨m', hrun, hordinary, hvalues⟩ :=
            ih (fun e he => hes e (List.mem_cons_of_mem _ he)) hnodup.2
              (hm.put hname (m.values name ++ vs))
          refine ⟨m', ?_, hordinary, fun key => ?_⟩
          · rw [Metadata.mergeEntries, hm.concat_get hname]
            exact hrun
          · rw [hvalues, values_put (ne_proto_of_not_mem hname)]
            unfold valuesIn
            by_cases hkey : key = name
            · rw [hkey, OrderedMap.lookupIn_eq_none.mpr hnodup.1]
              simp [OrderedMap.lookupIn]
            · simp [OrderedMap.lookupIn, hkey, Ne.symm hkey]

/-- **Merging appends key by key.** -/
theorem Ordinary.merge (hm : Ordinary m) (hother : Mergeable other) :
    ∃ m', m.merge other = (m', none) ∧ Ordinary m' ∧
      ∀ key, m'.values key = m.values key ++ other.values key := by
  obtain ⟨m', hrun, hordinary, hvalues⟩ := hm.mergeEntries hother other.internalRepr.own.nodup
  exact ⟨m', by rw [Metadata.merge, hrun], hordinary, hvalues⟩

/-- An inherited name stops the loop. -/
theorem Ordinary.mergeEntries_throws {es : List (String × PropertyValue)}
    (hes : ∀ e ∈ es, e.2.isArray = true) (hinherited : ∃ e ∈ es, e.1 ∈ objectPrototypeNames)
    (hm : Ordinary m) : (Metadata.mergeEntries m.internalRepr es).2 ≠ none := by
  induction es generalizing m with
  | nil => simp at hinherited
  | cons e es ih =>
      obtain ⟨name, v⟩ := e
      obtain ⟨harray, hrest⟩ := List.forall_mem_cons.mp hes
      rw [Metadata.mergeEntries]
      by_cases hname : name ∈ objectPrototypeNames
      · have hown : m.internalRepr.own.lookup name = none := by
          refine Option.eq_none_iff_forall_ne_some.mpr fun v hlookup => ?_
          exact (hm.mergeable _ (OrderedMap.mem_of_lookup hlookup)).2 hname
        simp [MetadataObject.get, hown, hm.proto, Prototype.get, hname, Lookup.orEmptyArray,
          Lookup.truthy, Lookup.concat]
      · cases v with
        | string s => simp [PropertyValue.isArray] at harray
        | array vs =>
            rw [hm.concat_get hname]
            refine ih hrest ?_ (hm.put hname (m.values name ++ vs))
            obtain ⟨e, he, hinherited⟩ := hinherited
            rcases List.mem_cons.mp he with rfl | he
            · exact absurd hinherited hname
            · exact ⟨e, he, hinherited⟩

/-- The mergeable objects are those for which merging is concatenation: with any other, `merge`
throws. -/
theorem mergeable_iff (harrays : ∀ e ∈ other.internalRepr.own.entries, e.2.isArray = true) :
    Mergeable other ↔ ∃ m', Metadata.new.merge other = (m', none) ∧
      ∀ key, m'.values key = Metadata.new.values key ++ other.values key := by
  constructor
  · intro hother
    obtain ⟨m', hmerge, -, hvalues⟩ := Ordinary.new.merge hother
    exact ⟨m', hmerge, hvalues⟩
  · intro h e he
    obtain ⟨m', hmerge, -⟩ := h
    refine ⟨harrays e he, fun hname => ?_⟩
    exact Ordinary.new.mergeEntries_throws harrays ⟨e, he, hname⟩ (congrArg Prod.snd hmerge)

theorem Ordinary.mergeAll {generated : List Metadata} (hm : Ordinary m)
    (h : ∀ gen ∈ generated, Mergeable gen) :
    ∃ m', m.mergeAll generated = .ok m' ∧ Mergeable m' ∧
      ∀ key, m'.values key = m.values key ++ generated.flatMap (·.values key) := by
  induction generated generalizing m with
  | nil => exact ⟨m, rfl, hm.mergeable, fun key => by simp⟩
  | cons gen generated ih =>
      obtain ⟨m₁, hmerge, hordinary, hvalues⟩ := hm.merge (h gen List.mem_cons_self)
      obtain ⟨m', hrun, hmergeable, hall⟩ :=
        ih hordinary fun g hg => h g (List.mem_cons_of_mem _ hg)
      refine ⟨m', ?_, hmergeable, fun key => ?_⟩
      · rw [Metadata.mergeAll, hmerge]
        exact hrun
      · rw [hall, hvalues, List.flatMap_cons, List.append_assoc]

end Metadata

namespace CallCredentials

open PromiseTree (GoodLeaves Summary Agrees DecidedBy Alike handleAt)

variable {γ ω ε : Type}

/-- The values of every key are those of a list of objects, one after the other. -/
def Concatenates (ms : List Metadata) (m : Metadata) : Prop :=
  ∀ key, m.values key = ms.flatMap (·.values key)

/-- **What is gathered is concatenated.** -/
theorem summary : Summary (gather : _ → Except (Reason ε) Metadata) Metadata.Mergeable Concatenates where
  leaf m _ key := by simp
  combine parts hparts := by
    have hall : ∀ gen ∈ parts.map Prod.snd, gen.Mergeable := by
      intro gen hgen
      obtain ⟨part, hpart, rfl⟩ := List.mem_map.mp hgen
      exact (hparts part hpart).1
    obtain ⟨m, hm, hmergeable, hvalues⟩ := Metadata.Ordinary.new.mergeAll hall
    refine ⟨m, by rw [gather, hm]; rfl, hmergeable, fun key => ?_⟩
    have hnew : Metadata.new.values key = [] := rfl
    rw [hvalues, hnew, List.nil_append, List.flatMap_map, List.flatMap_assoc]
    exact List.flatMap_congr fun part hpart => (hparts part hpart).2 key

/-- What the event loop does by itself. -/
def GenerationAct.Internal : GenerationAct ε → Prop
  | .callback .. => False
  | _ => True

/-! ### The start -/

mutual

theorem calls_generateMetadata (options : ω) : ∀ creds : CallCredentials γ,
    (generateMetadata options creds : Generation ε × List (γ × ω)).2 =
      creds.leaves.map fun g => (g, options)
  | empty => rfl
  | single _ => rfl
  | composed creds => calls_generateMetadataOf options creds

theorem calls_generateMetadataOf (options : ω) : ∀ creds : List (CallCredentials γ),
    (generateMetadataOf options creds : List (Generation ε) × List (γ × ω)).2 =
      (leavesOf creds).map fun g => (g, options)
  | [] => rfl
  | cred :: creds => by
      rw [generateMetadataOf, leavesOf, List.map_append, calls_generateMetadata options cred,
        calls_generateMetadataOf options creds]

end

mutual

/-- One leaf for each call of a generator; nobody has called back yet. -/
theorem leaves_generateMetadata (options : ω) : ∀ creds : CallCredentials γ,
    (generateMetadata options creds : Generation ε × List (γ × ω)).1.leaves =
      List.replicate creds.leaves.length none
  | empty => rfl
  | single _ => rfl
  | composed creds => leaves_generateMetadataOf options creds

theorem leaves_generateMetadataOf (options : ω) : ∀ creds : List (CallCredentials γ),
    PromiseTree.leavesOf
      (generateMetadataOf options creds : List (Generation ε) × List (γ × ω)).1 =
      List.replicate (leavesOf creds).length none
  | [] => rfl
  | cred :: creds => by
      rw [generateMetadataOf, leavesOf, List.length_append, PromiseTree.leavesOf,
        leaves_generateMetadata options cred, leaves_generateMetadataOf options creds,
        List.replicate_append_replicate]

end

mutual

theorem sound_generateMetadata (options : ω) : ∀ creds : CallCredentials γ,
    (generateMetadata options creds : Generation ε × List (γ × ω)).1.Sound gather
  | empty => .node (by simp) fun _ h => .inr ⟨[], rfl, (Option.some.inj h).symm⟩
  | single _ => .leaf none
  | composed creds => .node (sound_generateMetadataOf options creds) (by simp)

theorem sound_generateMetadataOf (options : ω) : ∀ creds : List (CallCredentials γ),
    ∀ g ∈ (generateMetadataOf options creds : List (Generation ε) × List (γ × ω)).1, g.Sound gather
  | [] => by simp [generateMetadataOf]
  | cred :: creds => by
      rw [generateMetadataOf]
      exact List.forall_mem_cons.mpr ⟨sound_generateMetadata options cred,
        sound_generateMetadataOf options creds⟩

end

/-! ### Compositions -/

/-- An expression built with `compose`. -/
inductive Composition (γ : Type)
  | empty
  | single (metadataGenerator : γ)
  | compose (left right : Composition γ)

/-- The credentials that the expression evaluates to. -/
def Composition.credentials : Composition γ → CallCredentials γ
  | empty => .empty
  | single metadataGenerator => .single metadataGenerator
  | compose left right => left.credentials.compose right.credentials

/-- The occurrences of single credentials, from left to right. -/
def Composition.leaves : Composition γ → List γ
  | empty => []
  | single metadataGenerator => [metadataGenerator]
  | compose left right => left.leaves ++ right.leaves

theorem Composition.leaves_credentials (c : Composition γ) : c.credentials.leaves = c.leaves := by
  induction c with
  | empty => rfl
  | single metadataGenerator => rfl
  | compose left right ihl ihr => rw [credentials, leaves_compose, ihl, ihr, leaves]

/-! ### What the generators pass to their callbacks -/

/-- The arguments with which the `k`-th generator has called its callback first -/
def passed (acts : List (GenerationAct ε)) (k : Nat) : Option (ε × Option Metadata) :=
  acts.findSome? fun
    | .callback k' err metadata => if k' = k then some (err, metadata) else none
    | .rejected .. | .fulfilled .. => none

/-- Some generator has failed. -/
def SomeFails (generators : List γ) (acts : List (GenerationAct ε)) : Prop :=
  ∃ k < generators.length, ∃ err, passed acts k = some (err, none)

/-- All generators have come up with metadata. -/
def AllPass (generators : List γ) (acts : List (GenerationAct ε)) (ms : List Metadata) : Prop :=
  ms.length = generators.length ∧
    ∀ k < generators.length, ∃ err, passed acts k = some (err, ms[k]?)

/-- For the metadata that generators have come up with, merging is concatenation. -/
def PassedMergeable (acts : List (GenerationAct ε)) : Prop :=
  ∀ k err m, passed acts k = some (err, some m) → m.Mergeable

/-- The generators are called once each, with the options, and what they pass to their callbacks
decides what the promise settles to. -/
structure FollowsLeaves (options : ω) (generators : List γ) (acts : List (GenerationAct ε))
    (s : Generating γ ω ε) : Prop where
  calls : s.calls = generators.map fun g => (g, options)
  /-- Each of them can call back at any time. -/
  callable : ∀ k < generators.length, ∀ err metadata,
    (s.step (.callback k err metadata)).isSome = true
  /-- At any time, the promise is only rejected with the error of a generator that has failed. -/
  failure : PassedMergeable acts → ∀ reason, s.generation.settled = some (.error reason) →
    ∃ k < generators.length, ∃ err, passed acts k = some (err, none) ∧ reason = .failure err
  /-- At any time, it is only fulfilled with the metadata of all generators. -/
  metadata : PassedMergeable acts → ∀ m, s.generation.settled = some (.ok m) →
    ∃ ms, AllPass generators acts ms ∧ Concatenates ms m
  rejects : PassedMergeable acts → s.generation.Quiescent gather →
    ((∃ reason, s.generation.settled = some (.error reason)) ↔ SomeFails generators acts)
  yields : PassedMergeable acts → s.generation.Quiescent gather →
    ∀ ms, AllPass generators acts ms →
      ∃ m, s.generation.settled = some (.ok m) ∧ Concatenates ms m
  /-- Between two callbacks, there are only so many steps. -/
  rests : ∀ act s', act.Internal → s.step act = some s' →
    s'.generation.waiting < s.generation.waiting

theorem passed_append (acts acts' : List (GenerationAct ε)) (k : Nat) :
    passed (acts ++ acts') k = (passed acts k).or (passed acts' k) :=
  List.findSome?_append

theorem callbackResult_eq_ok {err : ε} {metadata : Option Metadata} {m : Metadata} :
    callbackResult err metadata = .ok m ↔ metadata = some m := by
  cases metadata <;> simp [callbackResult]

theorem callbackResult_eq_error {err : ε} {metadata : Option Metadata} {reason : Reason ε} :
    callbackResult err metadata = .error reason ↔ metadata = none ∧ reason = .failure err := by
  cases metadata <;> simp [callbackResult, eq_comm]

variable {options : ω} {generators : List γ} {s s' : Generating γ ω ε} {act : GenerationAct ε}
  {acts : List (GenerationAct ε)}

/-- What every run keeps. -/
structure Invariant (options : ω) (generators : List γ) (acts : List (GenerationAct ε))
    (s : Generating γ ω ε) : Prop where
  calls : s.calls = generators.map fun g => (g, options)
  /-- Each leaf has settled to what its generator has passed to its callback first. -/
  leaves : ∀ k, s.generation.leaves[k]? = if k < generators.length then
    some ((passed acts k).map fun p => callbackResult p.1 p.2) else none
  sound : s.generation.Sound gather

theorem invariant_start (options : ω) (creds : CallCredentials γ) :
    Invariant options creds.leaves [] (.start options creds : Generating γ ω ε) where
  calls := calls_generateMetadata options creds
  leaves k := by
    rw [Generating.start, leaves_generateMetadata, List.getElem?_replicate]
    rfl
  sound := sound_generateMetadata options creds

/-- What one step does to the promises. -/
theorem step_eq_some (h : s.step act = some s') :
    ∃ path event generation, handleAt gather path event s.generation = some generation ∧
      s' = { s with generation } ∧ (act.Internal → event.Internal) := by
  obtain ⟨generation, hgeneration, rfl⟩ := Option.map_eq_some_iff.mp h
  cases act with
  | callback k err metadata =>
      obtain ⟨path, -, hsettles⟩ := Option.bind_eq_some_iff.mp hgeneration
      exact ⟨path, _, generation, hsettles, rfl, False.elim⟩
  | rejected path i => exact ⟨path, _, generation, hgeneration, rfl, fun _ => trivial⟩
  | fulfilled path => exact ⟨path, _, generation, hgeneration, rfl, fun _ => trivial⟩

/-- Only callbacks change leaves. -/
theorem leaves_step (hs : Invariant options generators acts s) (h : s.step act = some s') (k : Nat) :
    s'.generation.leaves[k]? = if k < generators.length then
      some ((passed (acts ++ [act]) k).map fun p => callbackResult p.1 p.2) else none := by
  rw [passed_append]
  obtain ⟨generation, hgeneration, rfl⟩ := Option.map_eq_some_iff.mp h
  have hinternal : ∀ {path event},
      handleAt gather path event s.generation = some generation → event.Internal →
      generation.leaves[k]? = if k < generators.length then
        some (((passed acts k).or none).map fun p => callbackResult p.1 p.2) else none := by
    intro path event hhandled hevent
    rw [PromiseTree.leaves_handleAt hevent hhandled, hs.leaves, Option.or_none]
  cases act with
  | callback i err metadata =>
      obtain ⟨path, hpath, hsettles⟩ := Option.bind_eq_some_iff.mp hgeneration
      rw [PromiseTree.leaves_settle hpath hsettles, hs.leaves]
      by_cases hki : k = i
      · subst hki
        have hnow : passed [GenerationAct.callback k err metadata] k = some (err, metadata) := by
          simp [passed]
        rw [if_pos rfl, hnow, Option.map_or]
        split <;> rfl
      · have hnow : passed [GenerationAct.callback i err metadata] k = none := by
          simp [passed, Ne.symm hki]
        rw [if_neg hki, hnow, Option.or_none]
  | rejected path i => exact hinternal hgeneration trivial
  | fulfilled path => exact hinternal hgeneration trivial

theorem invariant_step (hs : Invariant options generators acts s) (h : s.step act = some s') :
    Invariant options generators (acts ++ [act]) s' := by
  have hleaves := leaves_step hs h
  obtain ⟨path, event, generation, hgeneration, rfl, -⟩ := step_eq_some h
  exact ⟨hs.calls, hleaves, PromiseTree.sound_handleAt hs.sound hgeneration⟩

theorem invariant_run {acts' : List (GenerationAct ε)} (hs : Invariant options generators acts s)
    (h : Runs.exec Generating.step s acts' = some s') :
    Invariant options generators (acts ++ acts') s' := by
  induction acts' generalizing acts s with
  | nil =>
      obtain rfl := Option.some.inj h
      rwa [List.append_nil]
  | cons act acts' ih =>
      obtain ⟨s₁, hstep, hrest⟩ := Option.bind_eq_some_iff.mp h
      have hs₁ := ih (invariant_step hs hstep) hrest
      rwa [List.append_assoc, List.singleton_append] at hs₁

/-! ### What the leaves say -/

theorem Invariant.length_leaves (hs : Invariant options generators acts s) :
    s.generation.leaves.length = generators.length := by
  have hat := hs.leaves
  refine Nat.le_antisymm (List.getElem?_eq_none_iff.mp ?_) ?_
  · rw [hat, if_neg (Nat.lt_irrefl _)]
  · by_contra hlt
    have hlast := hat s.generation.leaves.length
    rw [if_pos (by omega), List.getElem?_eq_none (Nat.le_refl _)] at hlast
    exact absurd hlast nofun

/-- A leaf has settled to what its generator has passed. -/
theorem Invariant.mem_leaves (hs : Invariant options generators acts s)
    {result : Except (Reason ε) Metadata} :
    some result ∈ s.generation.leaves ↔ ∃ k < generators.length, ∃ p, passed acts k = some p ∧
      callbackResult p.1 p.2 = result := by
  rw [List.mem_iff_getElem?]
  refine exists_congr fun k => ?_
  rw [hs.leaves]
  split
  · rename_i hk
    rw [and_iff_right hk, Option.some.injEq, Option.map_eq_some_iff]
  · rename_i hk
    exact iff_of_false nofun fun h => hk h.1

theorem Invariant.goodLeaves (hs : Invariant options generators acts s)
    (hacts : PassedMergeable acts) : GoodLeaves Metadata.Mergeable s.generation.leaves := by
  intro m hm
  obtain ⟨k, -, ⟨err, metadata⟩, hpassed, hresult⟩ := hs.mem_leaves.mp hm
  obtain rfl := callbackResult_eq_ok.mp hresult
  exact hacts k err m hpassed

theorem Invariant.leaves_eq_iff (hs : Invariant options generators acts s) (ms : List Metadata) :
    s.generation.leaves = ms.map (fun m => some (.ok m)) ↔ AllPass generators acts ms := by
  constructor
  · intro heq
    have hlength : ms.length = generators.length := by
      rw [← hs.length_leaves, heq, List.length_map]
    refine ⟨hlength, fun k hk => ?_⟩
    have hat := hs.leaves k
    have hlt : k < ms.length := hlength.symm ▸ hk
    rw [heq, if_pos hk, List.getElem?_map, List.getElem?_eq_getElem hlt] at hat
    obtain ⟨⟨err, metadata⟩, hpassed, hresult⟩ :=
      Option.map_eq_some_iff.mp (Option.some.inj hat).symm
    obtain rfl : metadata = some ms[k] := callbackResult_eq_ok.mp hresult
    exact ⟨err, by rw [hpassed, List.getElem?_eq_getElem hlt]⟩
  · rintro ⟨hlength, hall⟩
    refine List.ext_getElem? fun k => ?_
    rw [hs.leaves, List.getElem?_map]
    split
    · rename_i hk
      obtain ⟨err, hpassed⟩ := hall k hk
      rw [hpassed, List.getElem?_eq_getElem (hlength.symm ▸ hk)]
      rfl
    · rename_i hk
      rw [List.getElem?_eq_none (by omega)]
      rfl

theorem Invariant.followsLeaves (hs : Invariant options generators acts s) :
    FollowsLeaves options generators acts s where
  calls := hs.calls
  callable k hk err metadata := by
    obtain ⟨path, generation, hpath, hsettles⟩ := PromiseTree.exists_settle gather
      (callbackResult err metadata) s.generation k (hs.length_leaves.symm ▸ hk)
    simp only [Generating.step, hpath, Option.bind_some, hsettles, Option.map_some]
    rfl
  failure hacts reason hsettled := by
    have hmem := (hs.sound.agrees summary (hs.goodLeaves hacts)).rejected reason hsettled
    obtain ⟨k, hk, ⟨err, metadata⟩, hpassed, hresult⟩ := hs.mem_leaves.mp hmem
    obtain ⟨rfl, rfl⟩ := callbackResult_eq_error.mp hresult
    exact ⟨k, hk, err, hpassed, rfl⟩
  metadata hacts m hsettled := by
    obtain ⟨-, ms, hms, hconcatenates⟩ :=
      (hs.sound.agrees summary (hs.goodLeaves hacts)).fulfilled m hsettled
    exact ⟨ms, (hs.leaves_eq_iff ms).mp hms, hconcatenates⟩
  rejects hacts hquiet := by
    rw [(hs.sound.decidedBy summary (hs.goodLeaves hacts) hquiet).rejected_iff]
    constructor
    · rintro ⟨reason, hmem⟩
      obtain ⟨k, hk, ⟨err, metadata⟩, hpassed, hresult⟩ := hs.mem_leaves.mp hmem
      obtain ⟨rfl, -⟩ := callbackResult_eq_error.mp hresult
      exact ⟨k, hk, err, hpassed⟩
    · rintro ⟨k, hk, err, hpassed⟩
      exact ⟨.failure err, hs.mem_leaves.mpr ⟨k, hk, _, hpassed, rfl⟩⟩
  yields hacts hquiet ms hms := by
    have hdecided := hs.sound.decidedBy summary (hs.goodLeaves hacts) hquiet
    rw [(hs.leaves_eq_iff ms).mpr hms] at hdecided
    exact hdecided.fulfilled_of_leaves
  rests act s' hact h := by
    obtain ⟨path, event, generation, hgeneration, rfl, hinternal⟩ := step_eq_some h
    exact PromiseTree.waiting_handleAt (hinternal hact) hgeneration

/-! ### Laws -/

/-- Both credentials call the same generators, and if these pass the same to their callbacks, in
whatever order, the credentials come to the same. -/
def Indistinguishable (ω ε : Type) (creds creds' : CallCredentials γ) : Prop :=
  ∀ (options : ω) (acts acts' : List (GenerationAct ε)) (s s' : Generating γ ω ε),
    Runs.exec Generating.step (.start options creds) acts = some s →
    Runs.exec Generating.step (.start options creds') acts' = some s' →
    s.calls = s'.calls ∧
    ((∀ k < s.calls.length, passed acts k = passed acts' k) → PassedMergeable acts →
      s.generation.Quiescent gather → s'.generation.Quiescent gather →
      Alike (fun m m' => ∀ key, m.values key = m'.values key)
        s.generation.settled s'.generation.settled)

theorem indistinguishable_of_leaves {creds creds' : CallCredentials γ}
    (h : creds.leaves = creds'.leaves) : Indistinguishable ω ε creds creds' := by
  intro options acts acts' s s' hrun hrun'
  have hs := invariant_run (invariant_start options creds) hrun
  have hs' := invariant_run (invariant_start options creds') hrun'
  rw [List.nil_append] at hs hs'
  rw [← h] at hs'
  refine ⟨hs.calls.trans hs'.calls.symm, fun hsame hacts hquiet hquiet' => ?_⟩
  have hleaves : s'.generation.leaves = s.generation.leaves := by
    refine List.ext_getElem? fun k => ?_
    rw [hs.leaves, hs'.leaves]
    split
    · rename_i hk
      rw [hsame k (by rwa [hs.calls, List.length_map])]
    · rfl
  have hgood := hs.goodLeaves hacts
  have hdecided := hs.sound.decidedBy summary hgood hquiet
  have hdecided' := hs'.sound.decidedBy summary (hleaves ▸ hgood) hquiet'
  rw [hleaves] at hdecided'
  exact hdecided.alike (fun ms m m' hm hm' key => (hm key).trans (hm' key).symm) hdecided'

/-- **Composition is concatenation.** Whatever expression the credentials come from, each of
its generators is called once, and the generated metadata is what the generators pass to their
callbacks, from left to right. So nobody can tell by the metadata how credentials have been
nested, or whether there are empty ones among them. -/
theorem compose_concatenates (γ ω ε : Type) :
    (∀ (options : ω) (c : Composition γ) (acts : List (GenerationAct ε)) (s : Generating γ ω ε),
      Runs.exec Generating.step (.start options c.credentials) acts = some s →
        FollowsLeaves options c.leaves acts s) ∧
    (∀ a b c : CallCredentials γ,
      Indistinguishable ω ε ((a.compose b).compose c) (a.compose (b.compose c))) ∧
    ∀ a : CallCredentials γ,
      Indistinguishable ω ε (empty.compose a) a ∧ Indistinguishable ω ε (a.compose empty) a := by
  refine ⟨fun options c acts s hrun => ?_, fun a b c => ?_, fun a => ⟨?_, ?_⟩⟩
  · have hs := invariant_run (invariant_start options c.credentials) hrun
    rw [List.nil_append, c.leaves_credentials] at hs
    exact hs.followsLeaves
  · exact indistinguishable_of_leaves (by simp only [leaves_compose, List.append_assoc])
  · exact indistinguishable_of_leaves rfl
  · exact indistinguishable_of_leaves (by rw [leaves_compose, leaves, List.append_nil])

/-- The second of two generators calls back first. -/
theorem compose_concatenates_two : ∃ s : Generating Nat Unit Unit,
    FollowsLeaves () [0, 1] [.callback 1 () (some Metadata.new), .callback 0 () none,
      .rejected [] 0] s :=
  ⟨_, (compose_concatenates Nat Unit Unit).1 () (.compose (.single 0) (.single 1)) _ _ rfl⟩

end CallCredentials

end GrpcNode.JsCore
