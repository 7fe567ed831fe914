import GrpcNode.JsCore.MetadataHeaders

/-!
# GrpcNode.JsCore.MetadataWire

What a `Metadata` can put on the wire.

`set` and `add` validate what they store; `merge` and `clone` rely on the object they copy
from, and `merge` besides reads what is inherited, which may be an array that somebody set as
`__proto__`. `Clean` is what all of them keep, also when they throw: everything stored under a
key would pass `validate` there. It is all that `toHttp2Headers` needs (`safeHeaders_always`),
and it makes `fromHttp2Headers` the inverse of `toHttp2Headers` (`headersRoundTrip_always`).
-/

namespace GrpcNode.JsCore

open GrpcNode.Js

/-! ### Histories

Several objects, and calls of the class with any arguments. A call that throws leaves the
objects as they are, save for `merge`, which keeps what it has merged before. -/

namespace MetadataCalls

/-- A call of the class. -/
inductive Call
  | new
  | set (i : Nat) (key : String) (value : MetadataValue)
  | add (i : Nat) (key : String) (value : MetadataValue)
  | remove (i : Nat) (key : String)
  | merge (i j : Nat)
  | clone (i : Nat)
  | fromHttp2Headers (headers : Headers)

/-- Object `i` becomes the result, if there is one. -/
def store (objects : List Metadata) (i : Nat) : Except JsError Metadata → List Metadata
  | .ok m => objects.set i m
  | .error _ => objects

/-- The result is a new object, if there is one. -/
def create (objects : List Metadata) : Except JsError Metadata → List Metadata
  | .ok m => objects ++ [m]
  | .error _ => objects

def step (objects : List Metadata) : Call → Option (List Metadata)
  | .new => some (create objects (.ok Metadata.new))
  | .set i key value => objects[i]?.map fun m => store objects i (m.set key value)
  | .add i key value => objects[i]?.map fun m => store objects i (m.add key value)
  | .remove i key => objects[i]?.map fun m => store objects i (m.remove key)
  | .merge i j => do
      let m ← objects[i]?
      let other ← objects[j]?
      return objects.set i (m.merge other).1
  | .clone i => objects[i]?.map fun m => create objects m.clone
  | .fromHttp2Headers headers => some (create objects (Metadata.fromHttp2Headers headers))

end MetadataCalls

/-! ### Legal text -/

theorem isLegalNonBinaryValue_iff {s : String} :
    isLegalNonBinaryValue s = true ↔ s ≠ "" ∧ ∀ c ∈ s.toList, ' ' ≤ c ∧ c ≤ '~' := by
  simp [isLegalNonBinaryValue, List.all_eq_true]

theorem isLegalKey_iff {key : String} :
    isLegalKey key = true ↔ key ≠ "" ∧ ∀ c ∈ key.toList, isLegalKeyChar c = true := by
  simp [isLegalKey, List.all_eq_true]

theorem isLegalNonBinaryValue_append {s t : String} (hs : isLegalNonBinaryValue s = true)
    (ht : ∀ c ∈ t.toList, ' ' ≤ c ∧ c ≤ '~') : isLegalNonBinaryValue (s ++ t) = true := by
  rw [isLegalNonBinaryValue_iff] at hs ⊢
  refine ⟨fun hempty => hs.1 (String.append_eq_empty_iff.mp hempty).1, ?_⟩
  intro c hc
  rw [String.toList_append, List.mem_append] at hc
  rcases hc with hc | hc
  · exact hs.2 c hc
  · exact ht c hc

/-- Joining printable texts with commas. -/
theorem printable_intercalate {texts : List String}
    (h : ∀ text ∈ texts, ∀ c ∈ text.toList, ' ' ≤ c ∧ c ≤ '~') :
    ∀ c ∈ (String.intercalate "," texts).toList, ' ' ≤ c ∧ c ≤ '~' := by
  induction texts with
  | nil => simp
  | cons text texts ih =>
      have hcomma : ' ' ≤ ',' ∧ ',' ≤ '~' := by decide
      have hrest := ih fun t ht => h t (List.mem_cons_of_mem _ ht)
      cases texts with
      | nil => simpa using h text List.mem_cons_self
      | cons next texts =>
          intro c hc
          rw [String.intercalate_cons_cons, String.toList_append, String.toList_append,
            List.mem_append, List.mem_append] at hc
          rcases hc with (hc | hc) | hc
          · exact h text List.mem_cons_self c hc
          · obtain rfl : c = ',' := by simpa using hc
            exact hcomma
          · exact hrest c hc

theorem le_iff_toNat {c d : Char} : c ≤ d ↔ c.toNat ≤ d.toNat := by
  rw [Char.le_def, UInt32.le_iff_toNat_le]
  rfl

theorem lowerChar_of_legal {c : Char} (h : isLegalKeyChar c = true) : lowerChar c = [c] := by
  have hrange : (48 ≤ c.toNat ∧ c.toNat ≤ 57) ∨ (97 ≤ c.toNat ∧ c.toNat ≤ 122) ∨ c.toNat = 95 ∨
      c.toNat = 46 ∨ c.toNat = 45 := by
    simp only [isLegalKeyChar, decide_eq_true_eq, le_iff_toNat] at h
    rcases h with h | h | rfl | rfl | rfl
    · exact .inl h
    · exact .inr (.inl h)
    all_goals decide
  have hupper : ¬ ('A' ≤ c ∧ c ≤ 'Z') := by
    rw [le_iff_toNat, le_iff_toNat]
    intro h
    have hlow : 65 ≤ c.toNat := h.1
    have hhigh : c.toNat ≤ 90 := h.2
    omega
  have hkelvin : c ≠ '\u212A' := by
    rintro rfl
    exact absurd hrange (by decide)
  have hdotted : c ≠ '\u0130' := by
    rintro rfl
    exact absurd hrange (by decide)
  rw [lowerChar, if_neg hupper, if_neg hkelvin, if_neg hdotted]

/-- Legal keys are in lower case. -/
theorem normalizeKey_of_legal {key : String} (h : isLegalKey key = true) :
    normalizeKey key = key := by
  have hflat : ∀ cs : List Char, (∀ c ∈ cs, isLegalKeyChar c = true) →
      cs.flatMap lowerChar = cs := by
    intro cs hcs
    induction cs with
    | nil => rfl
    | cons c cs ih =>
        rw [List.flatMap_cons, lowerChar_of_legal (hcs c List.mem_cons_self),
          ih fun d hd => hcs d (List.mem_cons_of_mem _ hd)]
        rfl
  rw [normalizeKey, toLowerCase, hflat _ (isLegalKey_iff.mp h).2, String.ofList_toList]

namespace Metadata

theorem valid_string {key s : String} : Valid key (.string s) ↔
    isLegalKey key = true ∧ isBinaryKey key = false ∧ isLegalNonBinaryValue s = true := by
  cases hkey : isLegalKey key <;> cases hbinary : isBinaryKey key <;>
    cases hs : isLegalNonBinaryValue s <;> simp [Valid, validate, hkey, hbinary, hs]

theorem valid_buffer {key : String} {b : Buffer} :
    Valid key (.buffer b) ↔ isLegalKey key = true ∧ isBinaryKey key = true := by
  cases hkey : isLegalKey key <;> cases hbinary : isBinaryKey key <;>
    simp [Valid, validate, hkey, hbinary]

/-! ### What is stored -/

/-- What a property holds would pass `validate` under the key. -/
def StoredUnder (key : String) : PropertyValue → Prop
  | .array values => values ≠ [] ∧ ∀ v ∈ values, Valid key v
  | .string s => Valid key (.string s)

/-- The invariant of the representation. A string that is no array appears only if the
object inherits from one. -/
structure Clean (m : Metadata) : Prop where
  own : ∀ key v, m.internalRepr.own.lookup key = some v →
    isLegalKey key = true ∧ key ≠ "__proto__" ∧ StoredUnder key v
  proto : ∀ values, m.internalRepr.proto = .array values → StoredUnder "__proto__" (.array values)
  arrays : m.internalRepr.proto = .object →
    ∀ key v, m.internalRepr.own.lookup key = some v → v.isArray = true

theorem Clean.new : Clean Metadata.new := ⟨nofun, nofun, nofun⟩

variable {m other : Metadata} {key : String} {v w : PropertyValue}

/-- What is found under a key is stored under it, also if it is inherited. -/
def FoundUnder (m : Metadata) (key : String) (v : PropertyValue) : Prop :=
  StoredUnder key v ∧ (m.internalRepr.proto = .object → v.isArray = true)

theorem Clean.put (hm : Clean m) (hkey : isLegalKey key = true) (hv : FoundUnder m key v) :
    Clean ⟨m.internalRepr.put key v⟩ := by
  unfold MetadataObject.put
  by_cases hproto : key = "__proto__"
  · subst hproto
    cases v with
    | array values =>
        refine ⟨hm.own, ?_, nofun⟩
        rintro _ ⟨⟩
        exact hv.1
    | string s => exact hm
  · rw [if_neg hproto]
    refine ⟨fun k w hw => ?_, hm.proto, fun hobject k w hw => ?_⟩
    · by_cases hk : k = key
      · subst hk
        obtain rfl : v = w := by simpa using hw
        exact ⟨hkey, hproto, hv.1⟩
      · exact hm.own k w ((OrderedMap.lookup_put_of_ne _ _ hk).symm.trans hw)
    · by_cases hk : k = key
      · subst hk
        obtain rfl : v = w := by simpa using hw
        exact hv.2 hobject
      · exact hm.arrays hobject k w ((OrderedMap.lookup_put_of_ne _ _ hk).symm.trans hw)

/-- The name of an element has digits only, so it is no key for buffers. -/
theorem not_isBinaryKey_toString (n : Nat) : isBinaryKey (toString n) = false := by
  rw [isBinaryKey, endsWith, Bool.eq_false_iff, ne_eq, List.isSuffixOf_iff_suffix]
  intro hsuffix
  have hmem : 'b' ∈ (toString n).toList := hsuffix.subset (by simp)
  rw [Nat.toString_eq_ofList_toDigits, String.toList_ofList] at hmem
  exact absurd (Nat.isDigit_of_mem_toDigits (by decide) (by decide) hmem) (by decide)

theorem Clean.get (hm : Clean m) (hkey : isLegalKey key = true)
    (hget : m.internalRepr.get key = .value v) : FoundUnder m key v := by
  unfold MetadataObject.get at hget
  split at hget
  · rename_i w hlookup
    obtain rfl := Lookup.value.inj hget
    exact ⟨(hm.own key w hlookup).2.2, fun hobject => hm.arrays hobject key w hlookup⟩
  · cases hproto : m.internalRepr.proto with
    | object =>
        rw [hproto, Prototype.get] at hget
        split at hget <;> exact absurd hget (by simp)
    | array values =>
        have helements := hm.proto values hproto
        refine ⟨?_, fun hobject => absurd (hobject.symm.trans hproto) (by simp)⟩
        rw [hproto, Prototype.get] at hget
        split at hget
        · rename_i hkey'
          obtain rfl := Lookup.value.inj hget
          exact hkey' ▸ helements
        · split at hget
          · rename_i s hs
            obtain rfl := Lookup.value.inj hget
            obtain ⟨i, -, hi⟩ := List.exists_of_findSome?_eq_some hs
            split at hi
            · rename_i hname
              have hvalid := valid_string.mp (helements.2 _ (List.mem_of_getElem? hi))
              rw [← hname] at hkey ⊢
              exact valid_string.mpr ⟨hkey, not_isBinaryKey_toString i, hvalid.2.2⟩
            · exact absurd hi (by simp)
          · exact absurd hget (by simp)
          · split at hget <;> exact absurd hget (by simp)

/-- Under a key for strings, the text of what is stored is printable. -/
theorem printable_toText {value : MetadataValue} (hbinary : isBinaryKey key = false)
    (h : Valid key value) : ∀ c ∈ value.toText.toList, ' ' ≤ c ∧ c ≤ '~' := by
  cases value with
  | string s => exact (isLegalNonBinaryValue_iff.mp (valid_string.mp h).2.2).2
  | buffer b => exact absurd (hbinary.symm.trans (valid_buffer.mp h).2) nofun

/-- Appending to an array. -/
theorem storedUnder_append {us : List MetadataValue} (hus : ∀ u ∈ us, Valid key u)
    {values : PropertyValue} (hvalues : StoredUnder key values)
    (h : (Lookup.value (.array us)).concat values = .ok v) :
    StoredUnder key v ∧ v.isArray = true := by
  cases values with
  | array vs =>
      obtain rfl := Except.ok.inj h
      refine ⟨⟨List.append_ne_nil_of_right_ne_nil us hvalues.1, ?_⟩, rfl⟩
      exact List.forall_mem_append.mpr ⟨hus, hvalues.2⟩
  | string t =>
      obtain rfl := Except.ok.inj h
      refine ⟨⟨List.append_ne_nil_of_right_ne_nil us (List.cons_ne_nil _ _), ?_⟩, rfl⟩
      exact List.forall_mem_append.mpr ⟨hus, List.forall_mem_singleton.mpr hvalues⟩

/-- Appending to a string, which happens only where something is inherited. -/
theorem storedUnder_append_string {s : String} (hs : Valid key (.string s))
    {values : PropertyValue} (hvalues : StoredUnder key values)
    (h : (Lookup.value (.string s)).concat values = .ok v) : StoredUnder key v := by
  obtain ⟨hkey, hbinary, hlegal⟩ := valid_string.mp hs
  cases values with
  | array vs =>
      obtain rfl := Except.ok.inj h
      refine valid_string.mpr ⟨hkey, hbinary, isLegalNonBinaryValue_append hlegal ?_⟩
      refine printable_intercalate fun text htext => ?_
      obtain ⟨value, hvalue, rfl⟩ := List.mem_map.mp htext
      exact printable_toText hbinary (hvalues.2 value hvalue)
  | string t =>
      obtain rfl := Except.ok.inj h
      refine valid_string.mpr ⟨hkey, hbinary, isLegalNonBinaryValue_append hlegal ?_⟩
      exact (isLegalNonBinaryValue_iff.mp (valid_string.mp hvalues).2.2).2

/-- What `merge` writes back under a key. -/
theorem Clean.concat (hm : Clean m) (hkey : isLegalKey key = true) {values : PropertyValue}
    (hvalues : StoredUnder key values)
    (h : (m.internalRepr.get key).orEmptyArray.concat values = .ok v) : FoundUnder m key v := by
  have hempty : (Lookup.value (.array [])).concat values = .ok v →
      FoundUnder m key v := by
    intro h
    obtain ⟨hstored, harray⟩ := storedUnder_append (by simp) hvalues h
    exact ⟨hstored, fun _ => harray⟩
  cases hget : m.internalRepr.get key with
  | undefined =>
      rw [hget] at h
      exact hempty h
  | builtin =>
      rw [hget] at h
      cases values <;> simp [Lookup.orEmptyArray, Lookup.truthy, Lookup.concat] at h
  | value w =>
      have hfound := hm.get hkey hget
      rw [hget] at h
      cases w with
      | array us =>
          obtain ⟨hstored, harray⟩ := storedUnder_append hfound.1.2 hvalues h
          exact ⟨hstored, fun _ => harray⟩
      | string s =>
          by_cases hs : s = ""
          · subst hs
            exact hempty h
          · have htruthy : (Lookup.value (.string s)).orEmptyArray = .value (.string s) := by
              simp [Lookup.orEmptyArray, Lookup.truthy, hs]
            rw [htruthy] at h
            exact ⟨storedUnder_append_string hfound.1 hvalues h,
              fun hobject => absurd (hfound.2 hobject) (by simp [PropertyValue.isArray])⟩

/-! ### The operations -/

theorem Clean.set (hm : Clean m) {value : MetadataValue} {m' : Metadata}
    (h : m.set key value = .ok m') : Clean m' := by
  have hvalid := valid_of_set h
  obtain rfl := Except.ok.inj ((set_of_valid hvalid).symm.trans h)
  refine hm.put (isLegalKey_of_validate hvalid) ⟨⟨List.cons_ne_nil _ _, ?_⟩, fun _ => rfl⟩
  exact List.forall_mem_singleton.mpr hvalid

theorem Clean.add (hm : Clean m) {value : MetadataValue} {m' : Metadata}
    (h : m.add key value = .ok m') : Clean m' := by
  by_cases hvalid : Valid (normalizeKey key) value
  · have hkey := isLegalKey_of_validate hvalid
    cases htruthy : (m.internalRepr.get (normalizeKey key)).truthy with
    | false =>
        obtain rfl := Except.ok.inj ((add_of_not_truthy hvalid htruthy).symm.trans h)
        refine hm.put hkey ⟨⟨List.cons_ne_nil _ _, ?_⟩, fun _ => rfl⟩
        exact List.forall_mem_singleton.mpr hvalid
    | true =>
        by_cases harray : ∃ values, m.internalRepr.get (normalizeKey key) = .value (.array values)
        · obtain ⟨values, hget⟩ := harray
          obtain rfl := Except.ok.inj ((add_of_array hvalid hget).symm.trans h)
          have hvalues := (hm.get hkey hget).1
          refine hm.put hkey ⟨⟨List.append_ne_nil_of_left_ne_nil hvalues.1 _, ?_⟩, fun _ => rfl⟩
          exact List.forall_mem_append.mpr ⟨hvalues.2, List.forall_mem_singleton.mpr hvalid⟩
        · have hthrows := add_of_not_array hvalid htruthy fun values hget =>
            harray ⟨values, hget⟩
          exact absurd (hthrows.symm.trans h) nofun
  · obtain ⟨e, he⟩ := add_of_not_valid hvalid
    exact absurd (he.symm.trans h) nofun

theorem Clean.remove (hm : Clean m) {m' : Metadata} (h : m.remove key = .ok m') : Clean m' := by
  by_cases hkey : isLegalKey (normalizeKey key) = true
  · obtain rfl := Except.ok.inj ((remove_of_legal hkey).symm.trans h)
    split
    · have hlookup : ∀ k v, (m.internalRepr.own.erase (normalizeKey key)).lookup k = some v →
          m.internalRepr.own.lookup k = some v := by
        intro k v hk
        by_cases hne : k = normalizeKey key
        · rw [hne, OrderedMap.lookup_erase_self] at hk
          exact absurd hk (by simp)
        · rwa [OrderedMap.lookup_erase_of_ne _ hne] at hk
      exact ⟨fun k v hk => hm.own k v (hlookup k v hk), hm.proto,
        fun hobject k v hk => hm.arrays hobject k v (hlookup k v hk)⟩
    · exact hm
  · exfalso
    rw [Bool.not_eq_true] at hkey
    simp only [Metadata.remove, validate, hkey] at h
    exact absurd h (by simp [bind, Except.bind])

theorem Clean.clone (hm : Clean m) {m' : Metadata} (h : m.clone = .ok m') : Clean m' := by
  unfold Metadata.clone cloneMetadataObject at h
  split at h
  · rename_i hall
    obtain rfl := Except.ok.inj h
    refine ⟨hm.own, nofun, fun _ k v hk => ?_⟩
    exact List.all_eq_true.mp hall _ (OrderedMap.mem_of_lookup hk)
  · exact absurd h nofun

/-- The loop of `merge`, also when it stops before the end. -/
theorem Clean.mergeEntries {es : List (String × PropertyValue)}
    (hes : ∀ e ∈ es, isLegalKey e.1 = true ∧ StoredUnder e.1 e.2) (hm : Clean m) :
    Clean ⟨(Metadata.mergeEntries m.internalRepr es).1⟩ := by
  induction es generalizing m with
  | nil => exact hm
  | cons e es ih =>
      obtain ⟨hkey, hstored⟩ := hes e List.mem_cons_self
      cases hconcat : (m.internalRepr.get e.1).orEmptyArray.concat e.2 with
      | error err =>
          simp only [Metadata.mergeEntries, hconcat]
          exact hm
      | ok v =>
          simp only [Metadata.mergeEntries, hconcat]
          exact ih (fun e' he' => hes e' (List.mem_cons_of_mem _ he'))
            (hm.put hkey (hm.concat hkey hstored hconcat))

theorem Clean.merge (hm : Clean m) (hother : Clean other) : Clean (m.merge other).1 := by
  refine hm.mergeEntries fun e he => ?_
  obtain ⟨hkey, -, hstored⟩ := hother.own e.1 e.2 (OrderedMap.mem_entries_iff.mp he)
  exact ⟨hkey, hstored⟩

theorem Clean.fromHttp2Headers {headers : Headers} (h : fromHttp2Headers headers = .ok m) :
    Clean m := by
  rw [fromHttp2Headers_eq] at h
  have hfold : ∀ (fs : List (String × String)) (m' : Metadata), Clean m' →
      fs.foldlM addField m' = .ok m → Clean m := by
    intro fs
    induction fs with
    | nil =>
        intro m' hm' h
        obtain rfl := Except.ok.inj h
        exact hm'
    | cons field fs ih =>
        intro m' hm' h
        rw [List.foldlM_cons] at h
        cases hadd : addField m' field with
        | ok m₁ =>
            rw [hadd] at h
            exact ih m₁ (hm'.add hadd) h
        | error e =>
            rw [hadd] at h
            exact absurd h nofun
  exact hfold _ _ Clean.new h

end Metadata

/-! ### Every object of a history -/

namespace MetadataCalls

open Metadata (Clean)

variable {objects objects' : List Metadata} {i : Nat} {m : Metadata} {r : Except JsError Metadata}

theorem clean_store (h : ∀ m ∈ objects, Clean m) (hr : ∀ m, r = .ok m → Clean m) :
    ∀ m ∈ store objects i r, Clean m := by
  cases r with
  | ok m' =>
      intro m hm
      rcases List.mem_or_eq_of_mem_set hm with hm | rfl
      · exact h m hm
      · exact hr m rfl
  | error e => exact h

theorem clean_create (h : ∀ m ∈ objects, Clean m) (hr : ∀ m, r = .ok m → Clean m) :
    ∀ m ∈ create objects r, Clean m := by
  cases r with
  | ok m' =>
      intro m hm
      rcases List.mem_append.mp hm with hm | hm
      · exact h m hm
      · exact hr m (by rw [List.mem_singleton.mp hm])
  | error e => exact h

/-- **Every call keeps every object clean.** -/
theorem clean_step {call : Call} (h : ∀ m ∈ objects, Clean m)
    (hstep : step objects call = some objects') : ∀ m ∈ objects', Clean m := by
  have at_index : ∀ {i : Nat} {m : Metadata}, objects[i]? = some m → Clean m :=
    fun hi => h _ (List.mem_of_getElem? hi)
  cases call with
  | new =>
      obtain rfl := Option.some.inj hstep
      exact clean_create h (by rintro _ ⟨⟩; exact Clean.new)
  | set i key value =>
      obtain ⟨m, hi, rfl⟩ := Option.map_eq_some_iff.mp hstep
      exact clean_store h fun m' hm' => (at_index hi).set hm'
  | add i key value =>
      obtain ⟨m, hi, rfl⟩ := Option.map_eq_some_iff.mp hstep
      exact clean_store h fun m' hm' => (at_index hi).add hm'
  | remove i key =>
      obtain ⟨m, hi, rfl⟩ := Option.map_eq_some_iff.mp hstep
      exact clean_store h fun m' hm' => (at_index hi).remove hm'
  | merge i j =>
      obtain ⟨m, hi, hstep⟩ := Option.bind_eq_some_iff.mp hstep
      obtain ⟨other, hj, hstep⟩ := Option.bind_eq_some_iff.mp hstep
      obtain rfl := Option.some.inj hstep
      exact clean_store (r := .ok (m.merge other).1) h
        (by rintro _ ⟨⟩; exact (at_index hi).merge (at_index hj))
  | clone i =>
      obtain ⟨m, hi, rfl⟩ := Option.map_eq_some_iff.mp hstep
      exact clean_create h fun m' hm' => (at_index hi).clone hm'
  | fromHttp2Headers headers =>
      obtain rfl := Option.some.inj hstep
      exact clean_create h fun m' hm' => Clean.fromHttp2Headers hm'

theorem clean_always (calls : List Call) :
    Runs.Always step (fun objects => ∀ m ∈ objects, Clean m) [] calls :=
  Runs.always_of_invariant (fun _ _ _ h hstep => clean_step h hstep) (by simp) calls

end MetadataCalls

namespace Metadata

/-! ### Outgoing headers -/

/-- Nothing but legal names and printable values, and nothing that is not stored. -/
structure SafeHeaders (m : Metadata) (headers : Headers) : Prop where
  names : ∀ e ∈ headers.entries, e.1 ≠ "" ∧ ∀ c ∈ e.1.toList, isLegalKeyChar c = true
  printable : ∀ e ∈ headers.entries, ∀ text ∈ headerStrings e.2,
    ∀ c ∈ text.toList, ' ' ≤ c ∧ c ≤ '~'
  /-- Under a name that ends in `-bin` the base64 texts of stored buffers, and stored strings
  under any other. -/
  stored : ∀ e ∈ headers.entries, ∃ values,
    m.internalRepr.own.lookup e.1 = some (.array values) ∧
    ∀ text ∈ headerStrings e.2,
      (isBinaryKey e.1 = true ∧ ∃ b, .buffer b ∈ values ∧ text = toBase64 b) ∨
      (isBinaryKey e.1 = false ∧ text ≠ "" ∧ .string text ∈ values)

variable {m : Metadata} {headers : Headers}

/-- The headers are the own properties, all of which are arrays. -/
theorem entries_toHttp2Headers (h : m.toHttp2Headers = .ok headers)
    {e : String × HeaderValue} (he : e ∈ headers.entries) :
    ∃ values, m.internalRepr.own.lookup e.1 = some (.array values) ∧
      e.2 = .many (values.map encodeValue) := by
  unfold toHttp2Headers at h
  split at h
  · rename_i hall
    obtain rfl := Except.ok.inj h
    obtain ⟨⟨key, v⟩, hown, rfl⟩ := List.mem_map.mp he
    have harray := List.all_eq_true.mp hall _ hown
    cases v with
    | array values => exact ⟨values, OrderedMap.mem_entries_iff.mp hown, rfl⟩
    | string s => exact absurd harray nofun
  · exact absurd h nofun

theorem Clean.safeHeaders (hm : Clean m) (h : m.toHttp2Headers = .ok headers) :
    SafeHeaders m headers := by
  have hstored : ∀ e ∈ headers.entries, ∃ values,
      m.internalRepr.own.lookup e.1 = some (.array values) ∧
      ∀ text ∈ headerStrings e.2,
        (isBinaryKey e.1 = true ∧ ∃ b, .buffer b ∈ values ∧ text = toBase64 b) ∨
        (isBinaryKey e.1 = false ∧ isLegalNonBinaryValue text = true ∧ .string text ∈ values) := by
    intro e he
    obtain ⟨values, hlookup, hvalue⟩ := entries_toHttp2Headers h he
    obtain ⟨-, -, -, hvalid⟩ := hm.own e.1 _ hlookup
    refine ⟨values, hlookup, fun text htext => ?_⟩
    rw [hvalue] at htext
    obtain ⟨v, hv, rfl⟩ := List.mem_map.mp htext
    cases v with
    | buffer b => exact .inl ⟨(valid_buffer.mp (hvalid _ hv)).2, b, hv, rfl⟩
    | string s =>
        obtain ⟨-, hbinary, hlegal⟩ := valid_string.mp (hvalid _ hv)
        exact .inr ⟨hbinary, hlegal, hv⟩
  refine ⟨fun e he => ?_, fun e he text htext c hc => ?_, fun e he => ?_⟩
  · obtain ⟨values, hlookup, -⟩ := hstored e he
    exact isLegalKey_iff.mp (hm.own e.1 _ hlookup).1
  · obtain ⟨values, -, htexts⟩ := hstored e he
    rcases htexts text htext with ⟨-, b, -, rfl⟩ | ⟨-, hlegal, -⟩
    · exact printable_toBase64 hc
    · exact (isLegalNonBinaryValue_iff.mp hlegal).2 c hc
  · obtain ⟨values, hlookup, htexts⟩ := hstored e he
    refine ⟨values, hlookup, fun text htext => ?_⟩
    rcases htexts text htext with hbinary | ⟨hbinary, hlegal, hmem⟩
    · exact .inl hbinary
    · exact .inr ⟨hbinary, (isLegalNonBinaryValue_iff.mp hlegal).1, hmem⟩

/-- **No header can be injected**: whatever calls are made with whatever arguments, the headers
of every object are safe, whenever `toHttp2Headers` returns any. -/
theorem safeHeaders_always (calls : List MetadataCalls.Call) :
    Runs.Always MetadataCalls.step
      (fun objects => ∀ m ∈ objects, ∀ headers, m.toHttp2Headers = .ok headers →
        SafeHeaders m headers) [] calls := by
  refine (MetadataCalls.clean_always calls).mono ?_
  intro objects h m hm headers hheaders
  exact (h m hm).safeHeaders hheaders

/-! ### There and back -/

/-- There is a value under the key: the object's own, or one that it inherits from an array
that was set as `__proto__`. -/
def HasKey (m : Metadata) (key : String) : Prop := ∃ v, m.internalRepr.get key = .value v

theorem decodeValue_encodeValue {key : String} {value : MetadataValue} (h : Valid key value) :
    decodeValue key (encodeValue value) = value := by
  cases value with
  | string s =>
      rw [encodeValue, decodeValue, if_neg (by simp [(valid_string.mp h).2.1])]
  | buffer b =>
      rw [encodeValue, decodeValue, if_pos (valid_buffer.mp h).2, fromBase64_toBase64]

variable {repr : MetadataObject} {key : String}

/-- The header of a value is added back to the values before it. -/
theorem add_encodeValue (repr : MetadataObject) (us : List MetadataValue) {value : MetadataValue}
    (hproto : key ≠ "__proto__") (h : Valid key value) :
    add ⟨repr.put key (.array us)⟩ key (decodeValue key (encodeValue value)) =
      .ok ⟨repr.put key (.array (us ++ [value]))⟩ := by
  have hnormal := normalizeKey_of_legal (isLegalKey_of_validate h)
  have hvalid : Valid (normalizeKey key) value := by rwa [hnormal]
  have hget : (repr.put key (.array us)).get (normalizeKey key) = .value (.array us) := by
    simp [hnormal, MetadataObject.get, MetadataObject.put, hproto]
  rw [decodeValue_encodeValue h, add_of_array (m := ⟨repr.put key (.array us)⟩) hvalid hget,
    hnormal]
  simp only [MetadataObject.put, if_neg hproto, OrderedMap.put_put]

theorem addHeader_more {vs : List MetadataValue} (hproto : key ≠ "__proto__")
    (h : ∀ v ∈ vs, Valid key v) (us : List MetadataValue) :
    addHeader key ⟨repr.put key (.array us)⟩ (vs.map encodeValue) =
      .ok ⟨repr.put key (.array (us ++ vs))⟩ := by
  induction vs generalizing us with
  | nil => rw [List.append_nil]; rfl
  | cons v vs ih =>
      have hrest := ih (fun w hw => h w (List.mem_cons_of_mem _ hw)) (us ++ [v])
      have hadd := add_encodeValue repr us hproto (h v List.mem_cons_self)
      rw [decodeValue] at hadd
      rw [List.map_cons, addHeader, hadd]
      rw [List.append_assoc] at hrest
      exact hrest

/-- The header of a key puts its array, if there is nothing under the key. -/
theorem addHeader_encodeValues {values : List MetadataValue} (hproto : key ≠ "__proto__")
    (hget : repr.get key = .undefined) (h : StoredUnder key (.array values)) :
    addHeader key ⟨repr⟩ (values.map encodeValue) = .ok ⟨repr.put key (.array values)⟩ := by
  obtain ⟨hne, hvalid⟩ := h
  obtain ⟨v, vs, rfl⟩ := List.exists_cons_of_ne_nil hne
  have hv := hvalid v List.mem_cons_self
  have hnormal := normalizeKey_of_legal (isLegalKey_of_validate hv)
  have hadd : add ⟨repr⟩ key (decodeValue key (encodeValue v)) =
      .ok ⟨repr.put key (.array [v])⟩ := by
    rw [decodeValue_encodeValue hv, add_of_not_truthy (hnormal.symm ▸ hv)
      (by rw [hnormal, hget]; rfl), hnormal]
  rw [decodeValue] at hadd
  rw [List.map_cons, addHeader, hadd]
  exact addHeader_more hproto (fun w hw => hvalid w (List.mem_cons_of_mem _ hw)) [v]

/-- What a clean ordinary object without inherited names has for entries. -/
def PlainEntry (e : String × PropertyValue) : Prop :=
  e.1 ∉ objectPrototypeNames ∧ ∃ values, e.2 = .array values ∧ StoredUnder e.1 (.array values)

/-- The headers of entries are entered after those that are there. -/
theorem foldlM_addHeader {es : List (String × PropertyValue)} (result : Metadata)
    (hproto : result.internalRepr.proto = .object)
    (hnodup : ((result.internalRepr.own.entries ++ es).map Prod.fst).Nodup)
    (hes : ∀ e ∈ es, PlainEntry e) :
    ∃ result', (es.map fun e => (e.1, encodeValues e.2)).foldlM
        (fun result e => addHeader e.1 result (headerStrings e.2)) result = .ok result' ∧
      result'.internalRepr.proto = .object ∧
      result'.internalRepr.own.entries = result.internalRepr.own.entries ++ es := by
  induction es generalizing result with
  | nil => exact ⟨result, rfl, hproto, (List.append_nil _).symm⟩
  | cons e es ih =>
      obtain ⟨hname, values, hvalue, hstored⟩ := hes e List.mem_cons_self
      have hlookup : result.internalRepr.own.lookup e.1 = none := by
        rw [OrderedMap.lookup_eq_none]
        intro hmem
        rw [List.map_append] at hnodup
        exact (List.nodup_append.mp hnodup).2.2 _ hmem _ List.mem_cons_self rfl
      have hget : result.internalRepr.get e.1 = .undefined := by
        rw [MetadataObject.get, hlookup, hproto]
        exact if_neg hname
      have hne := ne_proto_of_not_mem hname
      have hadd := addHeader_encodeValues hne hget hstored
      have hentries : (result.internalRepr.put e.1 (.array values)).own.entries =
          result.internalRepr.own.entries ++ [e] := by
        rw [MetadataObject.put, if_neg hne, ← hvalue]
        exact OrderedMap.entries_put_of_lookup e.2 hlookup
      obtain ⟨result', hrun, hobject, hall⟩ := ih
        ⟨result.internalRepr.put e.1 (.array values)⟩
        (by rw [MetadataObject.put, if_neg hne]; exact hproto)
        (by rwa [hentries, List.append_assoc]) (fun e' he' => hes e' (List.mem_cons_of_mem _ he'))
      refine ⟨result', ?_, hobject, ?_⟩
      · rw [List.map_cons, List.foldlM_cons, hvalue]
        exact (congrArg (· >>= _) hadd).trans hrun
      · rw [hall, hentries, List.append_assoc]
        rfl

/-- **`fromHttp2Headers` undoes `toHttp2Headers`** on an ordinary clean object without
inherited names. -/
theorem Clean.fromHttp2Headers_toHttp2Headers (hm : Clean m)
    (hproto : m.internalRepr.proto = .object)
    (hkeys : ∀ key ∈ objectPrototypeNames, m.internalRepr.own.lookup key = none) :
    ∃ headers, m.toHttp2Headers = .ok headers ∧ Metadata.fromHttp2Headers headers = .ok m := by
  have hlookup : ∀ e ∈ m.internalRepr.own.entries, m.internalRepr.own.lookup e.1 = some e.2 :=
    fun e he => OrderedMap.mem_entries_iff.mp he
  have hentries : ∀ e ∈ m.internalRepr.own.entries, PlainEntry e := by
    intro e he
    refine ⟨fun hmem => absurd ((hlookup e he).symm.trans (hkeys _ hmem)) nofun, ?_⟩
    have harray := hm.arrays hproto _ _ (hlookup e he)
    have hstored := (hm.own _ _ (hlookup e he)).2.2
    cases hvalue : e.2 with
    | array values => exact ⟨values, rfl, hvalue ▸ hstored⟩
    | string s => exact absurd (hvalue ▸ harray) nofun
  refine ⟨m.internalRepr.own.mapValues fun _ values => encodeValues values, ?_, ?_⟩
  · rw [toHttp2Headers, if_pos]
    rw [List.all_eq_true]
    intro e he
    exact hm.arrays hproto e.1 e.2 (hlookup e he)
  · obtain ⟨⟨⟨own, proto⟩⟩, hrun, hobject, hall⟩ :=
      foldlM_addHeader Metadata.new rfl m.internalRepr.own.nodup hentries
    obtain rfl : proto = .object := hobject
    have hsame : own = m.internalRepr.own := OrderedMap.ext hall
    rw [Metadata.fromHttp2Headers]
    refine hrun.trans (congrArg Except.ok ?_)
    rw [hsame, ← hproto]

/-- **Metadata survives its header form**: whatever calls are made with whatever arguments,
`fromHttp2Headers` makes of the headers of an object the object again, with the same keys and
the same values in the same order, unless a member of `Object.prototype` has become a key. -/
theorem headersRoundTrip_always (calls : List MetadataCalls.Call) :
    Runs.Always MetadataCalls.step
      (fun objects => ∀ m ∈ objects, (∀ key ∈ objectPrototypeNames, ¬ HasKey m key) →
        ∃ headers, m.toHttp2Headers = .ok headers ∧
          Metadata.fromHttp2Headers headers = .ok m) [] calls := by
  refine (MetadataCalls.clean_always calls).mono ?_
  intro objects h m hm hkeys
  have hown : ∀ key ∈ objectPrototypeNames, m.internalRepr.own.lookup key = none := by
    intro key hkey
    cases hlookup : m.internalRepr.own.lookup key with
    | none => rfl
    | some v => exact absurd ⟨v, by rw [MetadataObject.get, hlookup]⟩ (hkeys key hkey)
  have hproto : m.internalRepr.proto = .object := by
    cases hproto : m.internalRepr.proto with
    | object => rfl
    | array values =>
        have hname : "__proto__" ∈ objectPrototypeNames := by decide
        refine absurd ⟨.array values, ?_⟩ (hkeys _ hname)
        simp [MetadataObject.get, hown _ hname, hproto, Prototype.get]
  exact (h m hm).fromHttp2Headers_toHttp2Headers hproto hown

end Metadata

end GrpcNode.JsCore
