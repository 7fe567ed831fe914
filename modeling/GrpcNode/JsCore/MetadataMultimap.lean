import GrpcNode.JsCore.Metadata
import GrpcNode.Lib.Multimap
import GrpcNode.Lib.Runs

/-!
# GrpcNode.JsCore.MetadataMultimap

What `Metadata` is for: a multimap from lower-case keys to ordered values. A
`Metadata` `Represents` a `Multimap` when its own properties are the multimap's
non-empty lists; each operation then does to the object what the operation of the
same name does to the multimap, and the three observers read the multimap.

Two legal keys are exceptions, because `internalRepr` is an ordinary object.
`internalRepr['__proto__']` never is an own property, and `internalRepr['constructor']`
is inherited until it is set, which `add` and `merge` take for a value (`get` and
`remove` ask for ownership). `Op.Plain` is the condition that keeps away from both, and
`multimap_iff_plain` shows it to be exact along every run.
-/

namespace GrpcNode.JsCore

open GrpcNode.Js

/-- The multimap a `Metadata` stands for. -/
abbrev MetadataMap := Multimap String MetadataValue

namespace Metadata

/-- The own properties of `m` are the non-empty lists of `spec`, and `m` inherits from
`Object.prototype`. -/
structure Represents (m : Metadata) (spec : MetadataMap) : Prop where
  proto : m.internalRepr.proto = .object
  own : ∀ k, m.internalRepr.own.lookup k = if spec k = [] then none else some (.array (spec k))
  legal : ∀ k, spec k ≠ [] → isLegalKey k ∧ k ≠ "__proto__"

/-- The three observers read `spec`. -/
structure Agrees (m : Metadata) (spec : MetadataMap) : Prop where
  get : ∀ k, isLegalKey (normalizeKey k) → m.get k = .ok (.array (spec (normalizeKey k)))
  getMap : ∀ k, m.getMap.lookup k = (spec k).head?
  toHttp2Headers : ∃ headers, m.toHttp2Headers = .ok headers ∧
    ∀ k, headers.lookup k = if spec k = [] then none else some (.many ((spec k).map encodeValue))

/-! ### Legal keys -/

/-- All other members of `Object.prototype` have a capital letter. -/
theorem inherited_legal :
    ∀ key ∈ objectPrototypeNames, isLegalKey key → key = "__proto__" ∨ key = "constructor" := by
  decide

theorem ne_proto_of_not_mem {key : String} (h : key ∉ objectPrototypeNames) :
    key ≠ "__proto__" := by
  intro hproto
  subst hproto
  exact h (by decide)

theorem get_object_of_legal {key : String} (h : isLegalKey key) (hproto : key ≠ "__proto__")
    (hcons : key ≠ "constructor") : Prototype.object.get key = .undefined := by
  rw [Prototype.get, if_neg]
  intro hmem
  rcases inherited_legal key hmem h with hk | hk
  · exact hproto hk
  · exact hcons hk

/-! ### The observers -/

namespace Represents

variable {m other : Metadata} {spec spec' : MetadataMap} {key : String} {value : MetadataValue}

theorem hasOwnProperty (h : Represents m spec) (k : String) :
    m.internalRepr.hasOwnProperty k = true ↔ spec k ≠ [] := by
  rw [MetadataObject.hasOwnProperty, h.own]
  by_cases hk : spec k = [] <;> simp [hk]

theorem all_arrays (h : Represents m spec) :
    (m.internalRepr.own.entries.all fun e => e.2.isArray) = true := by
  rw [List.all_eq_true]
  rintro ⟨k, v⟩ hmem
  have hlookup := OrderedMap.mem_entries_iff.mp hmem
  rw [h.own] at hlookup
  by_cases hk : spec k = []
  · simp [hk] at hlookup
  · rw [if_neg hk, Option.some.injEq] at hlookup
    rw [← hlookup]
    rfl

theorem agrees (h : Represents m spec) : Agrees m spec where
  get k hk := by
    rw [get_of_legal hk, h.own]
    by_cases hempty : spec (normalizeKey k) = [] <;> simp [hempty]
  getMap k := by
    rw [Metadata.getMap, OrderedMap.lookup_filterMapValues, h.own]
    by_cases hk : spec k = [] <;> simp [hk, firstOf]
  toHttp2Headers := by
    rw [Metadata.toHttp2Headers, if_pos h.all_arrays]
    refine ⟨_, rfl, fun k => ?_⟩
    rw [OrderedMap.lookup_mapValues, h.own]
    by_cases hk : spec k = [] <;> simp [hk, encodeValues]

/-! ### The operations -/

theorem new : Represents Metadata.new .empty :=
  ⟨rfl, fun _ => rfl, fun _ h => absurd rfl h⟩

/-- Storing a non-empty list under a key other than `__proto__`. -/
theorem put (h : Represents m spec) {values : List MetadataValue} (hvalues : values ≠ [])
    (hlegal : isLegalKey key) (hkey : key ≠ "__proto__") :
    Represents ⟨m.internalRepr.put key (.array values)⟩ (Function.update spec key values) where
  proto := by simpa [MetadataObject.put, hkey] using h.proto
  own k := by
    by_cases hk : k = key
    · subst hk
      simp [MetadataObject.put, hkey, hvalues]
    · simpa [MetadataObject.put, hkey, OrderedMap.lookup_put_of_ne _ _ hk, hk] using h.own k
  legal k hk := by
    by_cases hkk : k = key
    · exact ⟨hkk ▸ hlegal, hkk ▸ hkey⟩
    · exact h.legal k (by simpa [hkk] using hk)

theorem set (h : Represents m spec)
    (hvalid : validate (normalizeKey key) (some value) = .ok ())
    (hkey : normalizeKey key ≠ "__proto__") :
    ∃ m', m.set key value = .ok m' ∧ Represents m' (spec.set (normalizeKey key) value) :=
  ⟨_, set_of_valid hvalid, h.put (by simp) (isLegalKey_of_validate hvalid) hkey⟩

theorem remove (h : Represents m spec) (hkey : isLegalKey (normalizeKey key)) :
    ∃ m', m.remove key = .ok m' ∧ Represents m' (spec.remove (normalizeKey key)) := by
  refine ⟨_, remove_of_legal hkey, ?_⟩
  by_cases hown : m.internalRepr.hasOwnProperty (normalizeKey key) = true
  · rw [if_pos hown]
    refine ⟨h.proto, fun k => ?_, fun k hk => ?_⟩
    · rw [Multimap.remove_apply]
      by_cases hk : k = normalizeKey key
      · simp [hk]
      · simpa [OrderedMap.lookup_erase_of_ne _ hk, hk] using h.own k
    · rw [Multimap.remove_apply] at hk
      exact h.legal k fun hempty => hk (by rw [hempty, ite_self])
  · have hempty : spec (normalizeKey key) = [] := by
      by_contra hne
      exact hown ((h.hasOwnProperty _).mpr hne)
    have hsame : spec.remove (normalizeKey key) = spec := by
      rw [Multimap.remove, ← hempty, Function.update_eq_self]
    rwa [if_neg hown, hsame]

theorem clone (h : Represents m spec) :
    ∃ m', m.clone = .ok m' ∧ Represents m' spec := by
  refine ⟨⟨{ own := m.internalRepr.own, proto := .object }⟩, ?_, rfl, h.own, h.legal⟩
  simp only [Metadata.clone, cloneMetadataObject, if_pos h.all_arrays]
  rfl

/-- What `internalRepr[key]` gives. -/
theorem get_internalRepr (h : Represents m spec) (k : String) :
    m.internalRepr.get k =
      if spec k = [] then Prototype.object.get k else .value (.array (spec k)) := by
  rw [MetadataObject.get, h.own, h.proto]
  by_cases hk : spec k = [] <;> simp [hk]

theorem add (h : Represents m spec)
    (hvalid : validate (normalizeKey key) (some value) = .ok ())
    (hkey : normalizeKey key ≠ "__proto__")
    (hcons : normalizeKey key = "constructor" → spec (normalizeKey key) ≠ []) :
    ∃ m', m.add key value = .ok m' ∧ Represents m' (spec.add (normalizeKey key) value) := by
  have hlegal := isLegalKey_of_validate hvalid
  have hput := h.put (List.append_ne_nil_of_right_ne_nil (spec (normalizeKey key))
    (List.cons_ne_nil value [])) hlegal hkey
  refine ⟨_, ?_, hput⟩
  by_cases hempty : spec (normalizeKey key) = []
  · have hget := get_object_of_legal hlegal hkey fun hk => hcons hk hempty
    rw [hempty, List.nil_append]
    exact add_of_not_truthy hvalid (by rw [h.get_internalRepr, if_pos hempty, hget]; rfl)
  · exact add_of_array hvalid (by rw [h.get_internalRepr, if_neg hempty])

/-- Reading a key to append to it: its values, when it has some or is not inherited. -/
theorem concat_get (h : Represents m spec) {k : String} {values : List MetadataValue}
    (hlegal : isLegalKey k) (hkey : k ≠ "__proto__") (hcons : k = "constructor" → spec k ≠ []) :
    (m.internalRepr.get k).orEmptyArray.concat (.array values) =
      .ok (.array (spec k ++ values)) := by
  rw [h.get_internalRepr]
  by_cases hempty : spec k = []
  · rw [if_pos hempty, get_object_of_legal hlegal hkey fun hk => hcons hk hempty, hempty]
    rfl
  · rw [if_neg hempty]
    rfl

theorem mem_keys (h : Represents m spec) {k : String} :
    k ∈ m.internalRepr.own.entries.map Prod.fst ↔ spec k ≠ [] := by
  have hnone : m.internalRepr.own.lookup k = none ↔ spec k = [] := by
    rw [h.own]
    by_cases hk : spec k = [] <;> simp [hk]
  rw [← not_iff_not, not_not, ← hnone]
  exact OrderedMap.lookup_eq_none.symm

/-- What the entries of a represented object look like. -/
theorem entries (h : Represents m spec) {e : String × PropertyValue}
    (he : e ∈ m.internalRepr.own.entries) :
    e.2 = .array (spec e.1) ∧ spec e.1 ≠ [] := by
  have hlookup := OrderedMap.mem_entries_iff.mp (show (e.1, e.2) ∈ _ from he)
  rw [h.own] at hlookup
  by_cases hk : spec e.1 = []
  · simp [hk] at hlookup
  · rw [if_neg hk, Option.some.injEq] at hlookup
    exact ⟨hlookup.symm, hk⟩

/-- The loop of `merge` over entries that stand for `spec'`. -/
theorem mergeEntries :
    ∀ {es : List (String × PropertyValue)} {m : Metadata} {spec : MetadataMap},
      Represents m spec → (es.map Prod.fst).Nodup →
      (∀ e ∈ es, e.2 = .array (spec' e.1) ∧ spec' e.1 ≠ []) →
      (∀ e ∈ es, isLegalKey e.1 ∧ e.1 ≠ "__proto__") →
      ("constructor" ∈ es.map Prod.fst → spec "constructor" ≠ []) →
      ∃ repr, Metadata.mergeEntries m.internalRepr es = (repr, none) ∧
        Represents ⟨repr⟩ fun k => spec k ++ if k ∈ es.map Prod.fst then spec' k else [] := by
  intro es
  induction es with
  | nil => intro m spec h _ _ _ _; exact ⟨m.internalRepr, rfl, by simpa using h⟩
  | cons e es ih =>
      intro m spec h hnodup hvalues hlegal hcons
      rw [List.map_cons, List.nodup_cons] at hnodup
      obtain ⟨harray, hne⟩ := hvalues e List.mem_cons_self
      obtain ⟨hkey, hproto⟩ := hlegal e List.mem_cons_self
      have hget : (m.internalRepr.get e.1).orEmptyArray.concat e.2 =
          .ok (.array (spec e.1 ++ spec' e.1)) := by
        rw [harray]
        exact h.concat_get hkey hproto fun hk => hk ▸ hcons (List.mem_cons.mpr (Or.inl hk.symm))
      have hput := h.put (List.append_ne_nil_of_right_ne_nil (spec e.1) hne) hkey hproto
      obtain ⟨repr, hrun, hrepr⟩ := ih hput hnodup.2
        (fun e' he' => hvalues e' (List.mem_cons_of_mem _ he'))
        (fun e' he' => hlegal e' (List.mem_cons_of_mem _ he')) (by
          intro hmem
          -- The entry `constructor` is still to come, so storing this one did not touch it.
          have hold := hcons (List.mem_cons_of_mem _ hmem)
          by_cases hk : e.1 = "constructor"
          · exact absurd (hk ▸ hmem) hnodup.1
          · simpa [Function.update_of_ne (Ne.symm hk)] using hold)
      refine ⟨repr, ?_, ?_⟩
      · simpa only [Metadata.mergeEntries, hget] using hrun
      · convert hrepr using 2 with k
        by_cases hk : k = e.1
        · subst hk
          simp [hnodup.1]
        · simp only [List.map_cons, List.mem_cons, hk, false_or, Function.update_of_ne hk]

theorem merge (h : Represents m spec) (h' : Represents other spec')
    (hcons : spec' "constructor" ≠ [] → spec "constructor" ≠ []) :
    ∃ m', m.merge other = (m', none) ∧ Represents m' (spec.merge spec') := by
  obtain ⟨repr, hrun, hrepr⟩ := h.mergeEntries other.internalRepr.own.nodup
    (fun e he => h'.entries he) (fun e he => h'.legal e.1 (h'.entries he).2)
    fun hk => hcons (h'.mem_keys.mp hk)
  refine ⟨⟨repr⟩, by rw [Metadata.merge, hrun], ?_⟩
  convert hrepr using 2 with k
  by_cases hk : spec' k = []
  · simp [hk]
  · rw [if_pos (h'.mem_keys.mpr hk), Multimap.merge_apply]

/-! ### The two exceptions -/

/-- `set('__proto__', value)` changes the prototype and makes no entry. -/
theorem set_proto (h : Represents m spec)
    (hvalid : validate (normalizeKey key) (some value) = .ok ())
    (hkey : normalizeKey key = "__proto__") :
    ∃ m', m.set key value = .ok m' ∧ ¬ Agrees m' (spec.set (normalizeKey key) value) := by
  refine ⟨_, set_of_valid hvalid, fun hagrees => ?_⟩
  have hlegal := isLegalKey_of_validate hvalid
  have hempty : spec "__proto__" = [] := by
    by_contra hne
    exact (h.legal _ hne).2 rfl
  have hown := h.own "__proto__"
  rw [if_pos hempty] at hown
  have hget := hagrees.get key hlegal
  rw [get_of_legal hlegal, hkey] at hget
  simp [MetadataObject.put, hown, Multimap.set] at hget

/-- `add` pushes onto whatever is inherited under the key. -/
theorem add_inherited (h : Represents m spec)
    (hvalid : validate (normalizeKey key) (some value) = .ok ())
    (hkey : normalizeKey key ∈ objectPrototypeNames) (hempty : spec (normalizeKey key) = []) :
    ∃ e, m.add key value = .error e := by
  refine ⟨_, add_of_builtin hvalid ?_⟩
  rw [h.get_internalRepr, if_pos hempty, Prototype.get, if_pos hkey]

/-- `merge` concatenates to the inherited `constructor`. -/
theorem mergeEntries_inherited :
    ∀ {es : List (String × PropertyValue)} {m : Metadata} {spec : MetadataMap},
      Represents m spec → (∀ e ∈ es, e.2 = .array (spec' e.1) ∧ spec' e.1 ≠ []) →
      (∀ e ∈ es, isLegalKey e.1 ∧ e.1 ≠ "__proto__") →
      "constructor" ∈ es.map Prod.fst → spec "constructor" = [] →
      ∃ repr e, Metadata.mergeEntries m.internalRepr es = (repr, some e) := by
  intro es
  induction es with
  | nil => intro m spec _ _ _ hmem; simp at hmem
  | cons e es ih =>
      intro m spec h hvalues hlegal hmem hempty
      obtain ⟨harray, hne⟩ := hvalues e List.mem_cons_self
      obtain ⟨hkey, hproto⟩ := hlegal e List.mem_cons_self
      by_cases hk : e.1 = "constructor"
      · -- The loop stops here: the function that is found has no `concat`.
        have hget : m.internalRepr.get e.1 = .builtin := by
          rw [h.get_internalRepr, hk, if_pos hempty]
          rfl
        refine ⟨m.internalRepr,
          .typeError "(this.internalRepr[key] || []).concat is not a function", ?_⟩
        simp [Metadata.mergeEntries, hget, Lookup.orEmptyArray, Lookup.truthy, Lookup.concat]
      · have hget : (m.internalRepr.get e.1).orEmptyArray.concat e.2 =
            .ok (.array (spec e.1 ++ spec' e.1)) := by
          rw [harray]
          exact h.concat_get hkey hproto fun hc => absurd hc hk
        have hput := h.put (List.append_ne_nil_of_right_ne_nil (spec e.1) hne) hkey hproto
        have hmem' : "constructor" ∈ es.map Prod.fst := by
          rcases List.mem_cons.mp hmem with hc | hc
          · exact absurd hc.symm hk
          · exact hc
        obtain ⟨repr, err, hrun⟩ := ih hput
          (fun e' he' => hvalues e' (List.mem_cons_of_mem _ he'))
          (fun e' he' => hlegal e' (List.mem_cons_of_mem _ he')) hmem'
          (by rw [Function.update_of_ne (Ne.symm hk)]; exact hempty)
        exact ⟨repr, err, by simpa only [Metadata.mergeEntries, hget] using hrun⟩

theorem merge_inherited (h : Represents m spec) (h' : Represents other spec')
    (hother : spec' "constructor" ≠ []) (hempty : spec "constructor" = []) :
    ∃ m' e, m.merge other = (m', some e) := by
  obtain ⟨repr, e, hrun⟩ := h.mergeEntries_inherited (fun e he => h'.entries he)
    (fun e he => h'.legal e.1 (h'.entries he).2) (h'.mem_keys.mpr hother) hempty
  exact ⟨⟨repr⟩, e, by rw [Metadata.merge, hrun]⟩

end Represents

end Metadata

/-! ### Histories

Several `Metadata` objects, each beside the multimap it should stand for. The objects
never share an array: `set` and `clone` make new ones, `merge` concatenates into a new
one, and `add` changes the object's own. -/

/-- The objects made so far, with what they should hold, and the last exception. -/
structure MetadataHeap where
  objects : List (Metadata × MetadataMap)
  thrown : Option JsError

/-- A call of the class. -/
inductive Op
  | new
  | set (i : Nat) (key : String) (value : MetadataValue)
  | add (i : Nat) (key : String) (value : MetadataValue)
  | remove (i : Nat) (key : String)
  | merge (i j : Nat)
  | clone (i : Nat)

namespace MetadataHeap

/-- Nothing has been made yet. -/
def empty : MetadataHeap := ⟨[], none⟩

/-- Object `i` becomes `result`, or stays what it is when the call throws. -/
def store (s : MetadataHeap) (i : Nat) (m : Metadata) (spec : MetadataMap) :
    Except JsError Metadata → MetadataHeap
  | .ok m' => { s with objects := s.objects.set i (m', spec) }
  | .error e => { objects := s.objects.set i (m, spec), thrown := some e }

/-- A call with a legal key and a value of the right kind, done to the object and to its
multimap. Other calls are not considered. -/
def step (s : MetadataHeap) : Op → Option MetadataHeap
  | .new => some { s with objects := s.objects ++ [(Metadata.new, .empty)] }
  | .set i key value =>
      match s.objects[i]?, validate (normalizeKey key) (some value) with
      | some (m, spec), .ok () =>
          some (s.store i m (spec.set (normalizeKey key) value) (m.set key value))
      | _, _ => none
  | .add i key value =>
      match s.objects[i]?, validate (normalizeKey key) (some value) with
      | some (m, spec), .ok () =>
          some (s.store i m (spec.add (normalizeKey key) value) (m.add key value))
      | _, _ => none
  | .remove i key =>
      match s.objects[i]?, validate (normalizeKey key) none with
      | some (m, spec), .ok () =>
          some (s.store i m (spec.remove (normalizeKey key)) (m.remove key))
      | _, _ => none
  | .merge i j =>
      match s.objects[i]?, s.objects[j]? with
      | some (m, spec), some (other, spec') =>
          let r := m.merge other
          some { objects := s.objects.set i (r.1, spec.merge spec'), thrown := r.2.or s.thrown }
      | _, _ => none
  | .clone i =>
      match s.objects[i]? with
      | some (m, spec) =>
          match m.clone with
          | .ok m' => some { s with objects := s.objects ++ [(m', spec)] }
          | .error e => some { s with thrown := some e }
      | none => none

/-- No call has thrown, and the observers of every object read its multimap. -/
structure Agrees (s : MetadataHeap) : Prop where
  thrown : s.thrown = none
  objects : ∀ p ∈ s.objects, p.1.Agrees p.2

/-- Object `i` has the own property `key`. -/
def Owns (s : MetadataHeap) (i : Nat) (key : String) : Prop :=
  ∃ m spec, s.objects[i]? = some (m, spec) ∧ m.internalRepr.hasOwnProperty key = true

/-- The call stays clear of what `internalRepr` inherits: it writes no `__proto__`, and
it appends to `constructor` only where that is an own property. -/
def Plain (s : MetadataHeap) : Op → Prop
  | .set _ key _ => normalizeKey key ≠ "__proto__"
  | .add i key _ => normalizeKey key ≠ "__proto__" ∧
      (normalizeKey key = "constructor" → s.Owns i "constructor")
  | .merge i j => s.Owns j "constructor" → s.Owns i "constructor"
  | _ => True

/-- Every object stands for its multimap. -/
def Represents (s : MetadataHeap) : Prop := ∀ p ∈ s.objects, p.1.Represents p.2

variable {s : MetadataHeap} {i j : Nat} {m : Metadata} {spec : MetadataMap}

theorem Represents.at (h : s.Represents) (hi : s.objects[i]? = some (m, spec)) :
    m.Represents spec :=
  h (m, spec) (List.mem_of_getElem? hi)

theorem Represents.owns (h : s.Represents) (hi : s.objects[i]? = some (m, spec)) (key : String) :
    s.Owns i key ↔ spec key ≠ [] := by
  rw [← (h.at hi).hasOwnProperty key]
  constructor
  · rintro ⟨m', spec', hi', hown⟩
    rw [hi, Option.some.injEq, Prod.mk.injEq] at hi'
    rw [hi'.1]
    exact hown
  · exact fun hown => ⟨m, spec, hi, hown⟩

theorem Represents.agrees (h : s.Represents) (hthrown : s.thrown = none) : s.Agrees :=
  ⟨hthrown, fun p hp => (h p hp).agrees⟩

/-- Replacing an object by one that stands for its multimap. -/
theorem Represents.store (h : s.Represents) {m' : Metadata} {spec' : MetadataMap}
    (h' : m'.Represents spec') : (s.store i m spec' (.ok m')).Represents := by
  intro p hp
  rcases List.mem_or_eq_of_mem_set hp with hp | rfl
  · exact h p hp
  · exact h'

theorem Represents.append (h : s.Represents) (h' : m.Represents spec) :
    ({ s with objects := s.objects ++ [(m, spec)] } : MetadataHeap).Represents := by
  intro p hp
  rcases List.mem_append.mp hp with hp | hp
  · exact h p hp
  · obtain rfl := List.mem_singleton.mp hp
    exact h'

theorem store_not_agrees {m' : Metadata} {spec' : MetadataMap} (hi : i < s.objects.length)
    (h : ¬ m'.Agrees spec') : ¬ (s.store i m spec' (.ok m')).Agrees := fun hagrees =>
  h (hagrees.objects (m', spec') (List.mem_set hi (m', spec')))

/-! ### One call -/

/-- What an enabled call on an existing object with a validated argument looks like. -/
theorem step_set {key : String} {value : MetadataValue} {s' : MetadataHeap}
    (h : s.step (.set i key value) = some s') :
    ∃ m spec, s.objects[i]? = some (m, spec) ∧
      validate (normalizeKey key) (some value) = .ok () ∧
      s' = s.store i m (spec.set (normalizeKey key) value) (m.set key value) := by
  simp only [step] at h
  split at h
  · rename_i m spec hi hvalid
    exact ⟨m, spec, hi, hvalid, (Option.some.inj h).symm⟩
  · exact absurd h nofun

theorem step_add {key : String} {value : MetadataValue} {s' : MetadataHeap}
    (h : s.step (.add i key value) = some s') :
    ∃ m spec, s.objects[i]? = some (m, spec) ∧
      validate (normalizeKey key) (some value) = .ok () ∧
      s' = s.store i m (spec.add (normalizeKey key) value) (m.add key value) := by
  simp only [step] at h
  split at h
  · rename_i m spec hi hvalid
    exact ⟨m, spec, hi, hvalid, (Option.some.inj h).symm⟩
  · exact absurd h nofun

theorem step_remove {key : String} {s' : MetadataHeap}
    (h : s.step (.remove i key) = some s') :
    ∃ m spec, s.objects[i]? = some (m, spec) ∧ isLegalKey (normalizeKey key) ∧
      s' = s.store i m (spec.remove (normalizeKey key)) (m.remove key) := by
  simp only [step] at h
  split at h
  · rename_i m spec hi hvalid
    exact ⟨m, spec, hi, Metadata.validate_none.mp hvalid, (Option.some.inj h).symm⟩
  · exact absurd h nofun

theorem step_merge {s' : MetadataHeap} (h : s.step (.merge i j) = some s') :
    ∃ m spec other spec', s.objects[i]? = some (m, spec) ∧ s.objects[j]? = some (other, spec') ∧
      s' = { objects := s.objects.set i ((m.merge other).1, spec.merge spec'),
             thrown := (m.merge other).2.or s.thrown } := by
  simp only [step] at h
  split at h
  · rename_i m spec other spec' hi hj
    exact ⟨m, spec, other, spec', hi, hj, (Option.some.inj h).symm⟩
  · exact absurd h nofun

/-- A plain call keeps every object standing for its multimap, and does not throw. -/
theorem Represents.step_of_plain (h : s.Represents) (hthrown : s.thrown = none) {op : Op}
    {s' : MetadataHeap} (hstep : s.step op = some s') (hplain : s.Plain op) :
    s'.Represents ∧ s'.thrown = none := by
  cases op with
  | new =>
      obtain rfl := Option.some.inj hstep
      exact ⟨h.append .new, hthrown⟩
  | set i key value =>
      obtain ⟨m, spec, hi, hvalid, rfl⟩ := step_set hstep
      obtain ⟨m', hset, hm'⟩ := (h.at hi).set hvalid hplain
      rw [hset]
      exact ⟨h.store hm', hthrown⟩
  | add i key value =>
      obtain ⟨m, spec, hi, hvalid, rfl⟩ := step_add hstep
      obtain ⟨m', hadd, hm'⟩ := (h.at hi).add hvalid hplain.1 fun hk => by
        rw [hk]
        exact (h.owns hi _).mp (hplain.2 hk)
      rw [hadd]
      exact ⟨h.store hm', hthrown⟩
  | remove i key =>
      obtain ⟨m, spec, hi, hlegal, rfl⟩ := step_remove hstep
      obtain ⟨m', hremove, hm'⟩ := (h.at hi).remove hlegal
      rw [hremove]
      exact ⟨h.store hm', hthrown⟩
  | merge i j =>
      obtain ⟨m, spec, other, spec', hi, hj, rfl⟩ := step_merge hstep
      obtain ⟨m', hmerge, hm'⟩ := (h.at hi).merge (h.at hj) fun hother =>
        (h.owns hi _).mp (hplain ((h.owns hj _).mpr hother))
      rw [hmerge]
      exact ⟨h.store (m := m) hm', hthrown⟩
  | clone i =>
      simp only [step] at hstep
      split at hstep
      · rename_i m spec hi
        obtain ⟨m', hclone, hm'⟩ := (h.at hi).clone
        rw [hclone] at hstep
        obtain rfl := Option.some.inj hstep
        exact ⟨h.append hm', hthrown⟩
      · exact absurd hstep nofun

/-- A call that is not plain throws, or leaves an object that is read differently. -/
theorem Represents.step_of_not_plain (h : s.Represents) {op : Op} {s' : MetadataHeap}
    (hstep : s.step op = some s') (hplain : ¬ s.Plain op) : ¬ s'.Agrees := by
  cases op with
  | new => exact absurd trivial hplain
  | remove i key => exact absurd trivial hplain
  | clone i => exact absurd trivial hplain
  | set i key value =>
      obtain ⟨m, spec, hi, hvalid, rfl⟩ := step_set hstep
      obtain ⟨m', hset, hm'⟩ := (h.at hi).set_proto hvalid (not_not.mp hplain)
      rw [hset]
      exact store_not_agrees (List.getElem?_eq_some_iff.mp hi).1 hm'
  | add i key value =>
      obtain ⟨m, spec, hi, hvalid, rfl⟩ := step_add hstep
      have hkey : normalizeKey key ∈ objectPrototypeNames ∧ spec (normalizeKey key) = [] := by
        by_cases hproto : normalizeKey key = "__proto__"
        · rw [hproto]
          refine ⟨by decide, ?_⟩
          by_contra hne
          exact ((h.at hi).legal _ hne).2 rfl
        · have hcons : ¬ (normalizeKey key = "constructor" → s.Owns i "constructor") :=
            fun hc => hplain ⟨hproto, hc⟩
          rw [Classical.not_imp, h.owns hi, not_not] at hcons
          rw [hcons.1]
          exact ⟨by decide, hcons.2⟩
      obtain ⟨e, hadd⟩ := (h.at hi).add_inherited hvalid hkey.1 hkey.2
      rw [hadd]
      exact fun hagrees => absurd hagrees.thrown nofun
  | merge i j =>
      obtain ⟨m, spec, other, spec', hi, hj, rfl⟩ := step_merge hstep
      have hcons : ¬ (s.Owns j "constructor" → s.Owns i "constructor") := hplain
      rw [Classical.not_imp, h.owns hi, h.owns hj, not_not] at hcons
      obtain ⟨m', e, hmerge⟩ := (h.at hi).merge_inherited (h.at hj) hcons.1 hcons.2
      rw [hmerge]
      exact fun hagrees => absurd hagrees.thrown nofun

/-- **`Metadata` is an ordered multimap as long as the calls are plain**, and not
beyond: along any history, no call throws and every object is read as its multimap
after every call, if and only if every call on the way stays clear of the inherited
keys. -/
theorem multimap_iff_plain (ops : List Op) :
    Runs.Always step Agrees empty ops ↔ Runs.Guarded step Plain empty ops := by
  have hempty : empty.Represents := fun p hp => absurd hp List.not_mem_nil
  refine Runs.always_iff_guarded ?_ ?_ hempty (hempty.agrees rfl)
  · intro s op s' hs hagrees hstep
    constructor
    · intro hagrees'
      by_contra hplain
      exact hs.step_of_not_plain hstep hplain hagrees'
    · intro hplain
      obtain ⟨hs', hthrown⟩ := hs.step_of_plain hagrees.thrown hstep hplain
      exact hs'.agrees hthrown
  · intro s op s' hs hagrees hagrees' hstep
    by_cases hplain : s.Plain op
    · exact (hs.step_of_plain hagrees.thrown hstep hplain).1
    · exact absurd hagrees' (hs.step_of_not_plain hstep hplain)

/-- `add('constructor', 'x')` on a fresh object throws. -/
theorem add_constructor_throws :
    ¬ ∀ ops, Runs.Always step Agrees empty ops := by
  intro h
  have hlast : Agrees _ := Runs.Always.last (h [.new, .add 0 "constructor" (.string "x")]) rfl
  exact absurd hlast.thrown (by decide)

end MetadataHeap

end GrpcNode.JsCore
