import GrpcNode.Js.Base64
import GrpcNode.JsCore.MetadataMultimap

/-!
# GrpcNode.JsCore.MetadataHeaders

`fromHttp2Headers` as a conversion.

A header object is a list of fields, one for each value. `fromHttp2Headers` adds them to a
new object one by one, and the first that is not accepted makes it throw: the conversion is
all or nothing. If it succeeds, the object stands for the multimap of the decoded fields
(`fromHttp2Headers_represents`).
-/

namespace GrpcNode.JsCore

open GrpcNode.Js

namespace Metadata

/-- What `validate` lets pass under a key. -/
def Valid (key : String) (value : MetadataValue) : Prop := validate key (some value) = .ok ()

instance (key : String) (value : MetadataValue) : Decidable (Valid key value) :=
  inferInstanceAs (Decidable (_ = _))

/-! ### Fields -/

/-- The fields of a header object. -/
def fields (headers : Headers) : List (String × String) :=
  headers.entries.flatMap fun e => (headerStrings e.2).map fun text => (e.1, text)

/-- The value that the text of a field stands for. -/
def decodeValue (key text : String) : MetadataValue :=
  if isBinaryKey key then .buffer (fromBase64 text) else .string text

/-- What is done with one field. -/
def addField (result : Metadata) (field : String × String) : Except JsError Metadata :=
  result.add field.1 (decodeValue field.1 field.2)

theorem addHeader_eq (key : String) (texts : List String) (result : Metadata) :
    addHeader key result texts = (texts.map fun text => (key, text)).foldlM addField result := by
  induction texts generalizing result with
  | nil => rfl
  | cons text texts ih =>
      rw [List.map_cons, List.foldlM_cons, addHeader]
      exact congrArg (Except.bind _) (funext ih)

theorem fromHttp2Headers_eq (headers : Headers) :
    fromHttp2Headers headers = (fields headers).foldlM addField new := by
  rw [fromHttp2Headers, fields]
  generalize new = result
  induction headers.entries generalizing result with
  | nil => rfl
  | cons e es ih =>
      rw [List.foldlM_cons, List.flatMap_cons, List.foldlM_append, addHeader_eq]
      exact congrArg (Except.bind _) (funext ih)

/-- The multimap of the decoded fields. -/
def multimapOf (fields : List (String × String)) : MetadataMap := fun key =>
  (fields.filter fun field => normalizeKey field.1 = key).map fun field =>
    decodeValue field.1 field.2

theorem fields_erase (headers : Headers) (name : String) :
    fields (headers.erase name) = (fields headers).filter fun field => field.1 ≠ name := by
  show (headers.entries.filter _).flatMap _ = (headers.entries.flatMap _).filter _
  induction headers.entries with
  | nil => rfl
  | cons e es ih =>
      rw [List.flatMap_cons, List.filter_append, ← ih, List.filter_cons]
      by_cases h : e.1 = name <;> simp [h, List.filter_map, Function.comp_def]

theorem mem_fields {headers : Headers} {field : String × String} :
    field ∈ fields headers ↔
      ∃ value, headers.lookup field.1 = some value ∧ field.2 ∈ headerStrings value := by
  simp only [fields, List.mem_flatMap, List.mem_map]
  constructor
  · intro h
    obtain ⟨e, he, text, htext, rfl⟩ := h
    exact ⟨e.2, OrderedMap.mem_entries_iff.mp he, htext⟩
  · intro h
    obtain ⟨value, hlookup, htext⟩ := h
    exact ⟨(field.1, value), OrderedMap.mem_entries_iff.mpr hlookup, field.2, htext, rfl⟩

theorem mem_multimapOf {fs : List (String × String)} {field : String × String}
    (h : field ∈ fs) : multimapOf fs (normalizeKey field.1) ≠ [] := by
  intro hnil
  have hmem : Metadata.decodeValue field.1 field.2 ∈ multimapOf fs (normalizeKey field.1) :=
    List.mem_map.mpr ⟨field, List.mem_filter.mpr ⟨h, by simp⟩, rfl⟩
  rw [hnil] at hmem
  exact absurd hmem List.not_mem_nil

/-- A field that can be added where nothing has been added under an inherited name. -/
def AcceptsField (field : String × String) : Prop :=
  Valid (normalizeKey field.1) (decodeValue field.1 field.2) ∧
    normalizeKey field.1 ∉ objectPrototypeNames

instance : DecidablePred AcceptsField := fun _ => inferInstanceAs (Decidable (_ ∧ _))

/-- `Metadata` accepts the headers. -/
def Accepts (headers : Headers) : Prop := ∀ field ∈ fields headers, AcceptsField field

instance : DecidablePred Accepts := fun headers =>
  inferInstanceAs (Decidable (∀ field ∈ fields headers, AcceptsField field))

theorem multimapOf_cons (field : String × String) (rest : List (String × String)) :
    multimapOf (field :: rest) = Multimap.merge
      (Multimap.empty.add (normalizeKey field.1) (decodeValue field.1 field.2))
      (multimapOf rest) := by
  funext key
  by_cases h : normalizeKey field.1 = key
  · subst h
    simp [multimapOf, Multimap.add, Multimap.empty]
  · simp [multimapOf, Multimap.add, Multimap.empty, h, Function.update_of_ne (Ne.symm h)]

/-! ### Adding fields -/

variable {m : Metadata} {spec : MetadataMap}

theorem add_of_not_valid {key : String} {value : MetadataValue}
    (h : ¬ Valid (normalizeKey key) value) : ∃ e, m.add key value = .error e := by
  cases hvalid : validate (normalizeKey key) (some value) with
  | ok u => exact absurd hvalid h
  | error e => exact ⟨e, by simp only [add, hvalid]; rfl⟩

/-- No value is stored under an inherited name. -/
def Uninherited (spec : MetadataMap) : Prop := ∀ key ∈ objectPrototypeNames, spec key = []

theorem Uninherited.add (h : Uninherited spec) {key : String} (value : MetadataValue)
    (hkey : key ∉ objectPrototypeNames) : Uninherited (spec.add key value) := by
  intro k hk
  have hne : k ≠ key := fun heq => hkey (heq ▸ hk)
  rw [Multimap.add, Function.update_of_ne hne]
  exact h k hk

theorem Represents.addField (h : Represents m spec) {field : String × String}
    (hfield : AcceptsField field) :
    ∃ m', Metadata.addField m field = .ok m' ∧
      Represents m' (spec.add (normalizeKey field.1) (decodeValue field.1 field.2)) := by
  obtain ⟨hvalid, hkey⟩ := hfield
  refine h.add hvalid (fun hproto => hkey ?_) (fun hcons => absurd ?_ hkey)
  · rw [hproto]
    decide
  · rw [hcons]
    decide

theorem Represents.addField_error (h : Represents m spec) (huninherited : Uninherited spec)
    {field : String × String} (hfield : ¬ AcceptsField field) :
    ∃ e, Metadata.addField m field = .error e := by
  by_cases hvalid : Valid (normalizeKey field.1) (decodeValue field.1 field.2)
  · have hkey : normalizeKey field.1 ∈ objectPrototypeNames := by
      by_contra hkey
      exact hfield ⟨hvalid, hkey⟩
    exact h.add_inherited hvalid hkey (huninherited _ hkey)
  · exact add_of_not_valid hvalid

theorem merge_add (spec spec' : MetadataMap) (key : String) (value : MetadataValue) :
    Multimap.merge spec (Multimap.merge (Multimap.empty.add key value) spec') =
      Multimap.merge (spec.add key value) spec' := by
  funext k
  by_cases h : k = key
  · subst h
    simp [Multimap.add, Multimap.empty]
  · simp [Multimap.add, Multimap.empty, Function.update_of_ne h]

/-- Fields that are accepted are appended, each to the values of its key. -/
theorem Represents.foldlM_addField {fs : List (String × String)} (h : Represents m spec)
    (hfs : ∀ field ∈ fs, AcceptsField field) :
    ∃ m', fs.foldlM Metadata.addField m = .ok m' ∧
      Represents m' (spec.merge (multimapOf fs)) := by
  induction fs generalizing m spec with
  | nil =>
      have hsame : Multimap.merge spec (multimapOf []) = spec := by
        funext key
        simp [multimapOf]
      exact ⟨m, rfl, by rwa [hsame]⟩
  | cons field fs ih =>
      obtain ⟨m₁, hadd, h₁⟩ := h.addField (hfs field List.mem_cons_self)
      obtain ⟨m', hrest, h'⟩ := ih h₁ fun f hf => hfs f (List.mem_cons_of_mem _ hf)
      refine ⟨m', ?_, ?_⟩
      · rw [List.foldlM_cons, hadd]
        exact hrest
      · rwa [multimapOf_cons, merge_add]

/-- The first field that is not accepted ends the conversion. -/
theorem Represents.foldlM_addField_error {fs : List (String × String)} (h : Represents m spec)
    (huninherited : Uninherited spec) (hfs : ¬ ∀ field ∈ fs, AcceptsField field) :
    ∃ e, fs.foldlM Metadata.addField m = .error e := by
  induction fs generalizing m spec with
  | nil => exact absurd (by simp) hfs
  | cons field fs ih =>
      by_cases hfield : AcceptsField field
      · obtain ⟨m₁, hadd, h₁⟩ := h.addField hfield
        have hrest : ¬ ∀ f ∈ fs, AcceptsField f := by
          intro hrest
          exact hfs (List.forall_mem_cons.mpr ⟨hfield, hrest⟩)
        obtain ⟨e, he⟩ := ih h₁ (huninherited.add _ hfield.2) hrest
        exact ⟨e, by rw [List.foldlM_cons, hadd]; exact he⟩
      · obtain ⟨e, he⟩ := h.addField_error huninherited hfield
        exact ⟨e, by rw [List.foldlM_cons, he]; rfl⟩

/-! ### The conversion -/

/-- **What `fromHttp2Headers` gives**, if all fields are accepted: the multimap of the
decoded fields. -/
theorem fromHttp2Headers_represents {headers : Headers} (h : Accepts headers) :
    ∃ m, fromHttp2Headers headers = .ok m ∧ Represents m (multimapOf (fields headers)) := by
  rw [fromHttp2Headers_eq]
  exact Represents.new.foldlM_addField h

theorem fromHttp2Headers_error {headers : Headers} (h : ¬ Accepts headers) :
    ∃ e, fromHttp2Headers headers = .error e := by
  rw [fromHttp2Headers_eq]
  exact Represents.new.foldlM_addField_error (fun _ _ => rfl) h

end Metadata

end GrpcNode.JsCore
