import GrpcNode.JsCore.CallStreamTrailers
import GrpcNode.JsCore.MetadataHeaders

/-!
# GrpcNode.JsCore.TrailingMetadata

The user's headers in a trailers block.

The `'trailers'` handler takes `grpc-status` out of the headers before it converts them to
metadata, but leaves `grpc-message` in. The conversion then either keeps `grpc-message` as if
it were the user's, or throws because of it, and the handler goes on with empty metadata.
If there is a status at all, nothing is lost or added exactly if there is no `grpc-message`, or
one that throws where there is nothing to lose (`trailersPreserved_iff`).
-/

namespace GrpcNode.JsCore.CallStream

open GrpcNode.Js
open Metadata (fields multimapOf mem_fields fields_erase Accepts AcceptsField)

/-! ### Trailers blocks -/

/-- What the block holds besides the two headers of the protocol. -/
def userHeaders (headers : Headers) : Headers :=
  (headers.erase "grpc-status").erase "grpc-message"

/-- A `grpc-status`, possibly a `grpc-message` that can be percent-decoded, and headers of
the user that `Metadata` accepts. -/
structure TrailersBlock (headers : Headers) : Prop where
  status : ∃ s, headers.lookup "grpc-status" = some (.one s)
  message : headers.lookup "grpc-message" = none ∨
    ∃ s details, headers.lookup "grpc-message" = some (.one s) ∧ decodeURI s = .ok details
  accepted : Accepts (userHeaders headers)
  /-- In any spelling, the two names are the protocol's. -/
  names : ∀ field ∈ fields (userHeaders headers),
    normalizeKey field.1 ≠ "grpc-status" ∧ normalizeKey field.1 ≠ "grpc-message"

/-- The status of the block has the user's headers for its metadata, with all their values,
and neither header of the protocol. -/
def TrailersPreserved (mappedStatusCode : Status) (headers : HeaderObject) : Prop :=
  ∃ status, trailersStatus mappedStatusCode headers = .ok status ∧
    status.metadata.Agrees (multimapOf (fields (userHeaders headers.own))) ∧
    status.metadata.get "grpc-status" = .ok (.array []) ∧
    status.metadata.get "grpc-message" = .ok (.array [])

/-! ### The fields of the block -/

/-- As a metadata field, `grpc-message` is accepted if it is a legal value. -/
theorem acceptsField_message (s : String) :
    AcceptsField ("grpc-message", s) ↔ isLegalNonBinaryValue s = true := by
  have hnormal : normalizeKey "grpc-message" = "grpc-message" := by decide
  have hlegal : isLegalKey "grpc-message" = true := by decide
  have hbinary : isBinaryKey "grpc-message" = false := by decide
  have hinherited : "grpc-message" ∉ objectPrototypeNames := by decide
  cases hs : isLegalNonBinaryValue s <;>
    simp [AcceptsField, Metadata.Valid, Metadata.decodeValue, validate, hnormal, hlegal, hbinary,
      hinherited, hs]

variable {headers : Headers}

/-- Without a message, taking `grpc-status` out leaves the user's headers. -/
theorem userHeaders_of_none (h : headers.lookup "grpc-message" = none) :
    userHeaders headers = headers.erase "grpc-status" :=
  OrderedMap.erase_of_lookup ((OrderedMap.lookup_erase_of_ne _ (by decide)).trans h)

/-- What is converted: the fields of the user, and the message. -/
theorem fields_cases {s : String} (h : headers.lookup "grpc-message" = some (.one s))
    {field : String × String} (hfield : field ∈ fields (headers.erase "grpc-status")) :
    field ∈ fields (userHeaders headers) ∨ field = ("grpc-message", s) := by
  by_cases hname : field.1 = "grpc-message"
  · obtain ⟨value, hlookup, htext⟩ := mem_fields.mp hfield
    rw [hname, OrderedMap.lookup_erase_of_ne _ (by decide), h, Option.some.injEq] at hlookup
    rw [← hlookup] at htext
    exact .inr (Prod.ext hname (List.mem_singleton.mp htext))
  · refine .inl ?_
    rw [userHeaders, fields_erase]
    exact List.mem_filter.mpr ⟨hfield, by simpa using hname⟩

theorem message_mem_fields {s : String} (h : headers.lookup "grpc-message" = some (.one s)) :
    ("grpc-message", s) ∈ fields (headers.erase "grpc-status") := by
  have hlookup : (headers.erase "grpc-status").lookup "grpc-message" = some (.one s) :=
    (OrderedMap.lookup_erase_of_ne _ (by decide)).trans h
  exact mem_fields.mpr ⟨.one s, hlookup, List.mem_singleton.mpr rfl⟩

/-! ### The metadata of the status -/

/-- With a message that can be decoded, the status has the metadata that the conversion gives,
or none if it throws. -/
theorem trailersPreserved_of_readable {mappedStatusCode : Status} {headers : HeaderObject}
    (h : Readable headers) :
    TrailersPreserved mappedStatusCode headers ↔
      ∃ m, m = (match Metadata.fromHttp2Headers (headers.own.erase "grpc-status") with
        | .ok metadata => metadata
        | .error _ => Metadata.new) ∧
        m.Agrees (multimapOf (fields (userHeaders headers.own))) ∧
        m.get "grpc-status" = .ok (.array []) ∧ m.get "grpc-message" = .ok (.array []) := by
  obtain ⟨details, hdetails⟩ := (decodable_iff_trailersDetails h.accessible).mp h.decodable
  obtain ⟨code, hcode⟩ := trailersCode_of_accessible h.accessible mappedStatusCode
  have hstatus : trailersStatus mappedStatusCode headers = .ok
      ⟨code, details,
        match Metadata.fromHttp2Headers (headers.own.erase "grpc-status") with
        | .ok metadata => metadata
        | .error _ => Metadata.new⟩ := by
    rw [trailersStatus, hcode, hdetails]
    rfl
  unfold TrailersPreserved
  rw [hstatus]
  constructor
  · rintro ⟨status, heq, hagrees⟩
    exact ⟨status.metadata, by rw [← Except.ok.inj heq], hagrees⟩
  · rintro ⟨m, rfl, hagrees⟩
    exact ⟨_, rfl, hagrees⟩

theorem TrailersBlock.decodable (h : TrailersBlock headers) : Decodable headers := by
  intro message hmessage
  rcases h.message with hnone | ⟨s, details, hsome, hdecode⟩
  · exact absurd (hnone.symm.trans hmessage) nofun
  · obtain rfl := Option.some.inj (hsome.symm.trans hmessage)
    exact ⟨details, hdecode⟩

/-- No user header has the name of a header of the protocol. -/
theorem TrailersBlock.no_values (h : TrailersBlock headers) {name : String}
    (hname : name = "grpc-status" ∨ name = "grpc-message") :
    multimapOf (fields (userHeaders headers)) name = [] := by
  rw [multimapOf, List.map_eq_nil_iff, List.filter_eq_nil_iff]
  intro field hfield
  obtain ⟨hstatus, hmessage⟩ := h.names field hfield
  rcases hname with rfl | rfl
  · simpa using hstatus
  · simpa using hmessage

/-- An object that stands for the user's headers is what the status should have. -/
theorem TrailersBlock.preserved_of_represents (h : TrailersBlock headers) {m : Metadata}
    (hm : m.Represents (multimapOf (fields (userHeaders headers)))) :
    m.Agrees (multimapOf (fields (userHeaders headers))) ∧
      m.get "grpc-status" = .ok (.array []) ∧ m.get "grpc-message" = .ok (.array []) := by
  have hstatus := hm.agrees.get "grpc-status" (by decide)
  have hmessage := hm.agrees.get "grpc-message" (by decide)
  have hnormal : normalizeKey "grpc-status" = "grpc-status" := by decide
  have hnormal' : normalizeKey "grpc-message" = "grpc-message" := by decide
  rw [hnormal, h.no_values (.inl rfl)] at hstatus
  rw [hnormal', h.no_values (.inr rfl)] at hmessage
  exact ⟨hm.agrees, hstatus, hmessage⟩

/-- A legal message becomes a value of the metadata. -/
theorem TrailersBlock.message_kept (h : TrailersBlock headers) {s : String}
    (hsome : headers.lookup "grpc-message" = some (.one s))
    (hlegal : isLegalNonBinaryValue s = true) :
    ∃ m, Metadata.fromHttp2Headers (headers.erase "grpc-status") = .ok m ∧
      m.get "grpc-message" ≠ .ok (.array []) := by
  have haccepts : Accepts (headers.erase "grpc-status") := by
    intro field hfield
    rcases fields_cases hsome hfield with huser | rfl
    · exact h.accepted field huser
    · exact (acceptsField_message s).mpr hlegal
  obtain ⟨m, hm, hrepr⟩ := Metadata.fromHttp2Headers_represents haccepts
  have hnormal : normalizeKey "grpc-message" = "grpc-message" := by decide
  have hvalues := Metadata.mem_multimapOf (message_mem_fields hsome)
  have hget := hrepr.agrees.get "grpc-message" (by decide)
  rw [hnormal] at hvalues hget
  refine ⟨m, hm, fun hempty => ?_⟩
  rw [hget] at hempty
  exact hvalues (PropertyValue.array.inj (Except.ok.inj hempty))

/-- A message that is not legal makes the conversion throw. -/
theorem conversion_throws {s : String} (hsome : headers.lookup "grpc-message" = some (.one s))
    (hillegal : isLegalNonBinaryValue s ≠ true) :
    ∃ e, Metadata.fromHttp2Headers (headers.erase "grpc-status") = .error e := by
  refine Metadata.fromHttp2Headers_error fun haccepts => hillegal ?_
  exact (acceptsField_message s).mp (haccepts _ (message_mem_fields hsome))

/-- Empty metadata is right for a user without headers only. -/
theorem TrailersBlock.fields_eq_nil (h : TrailersBlock headers)
    (hagrees : Metadata.new.Agrees (multimapOf (fields (userHeaders headers)))) :
    fields (userHeaders headers) = [] := by
  by_contra hfields
  obtain ⟨field, hfield⟩ := List.exists_mem_of_ne_nil _ hfields
  have hkey := Metadata.isLegalKey_of_validate (h.accepted field hfield).1
  have hget := hagrees.get field.1 hkey
  rw [Metadata.get_of_legal hkey] at hget
  have hempty := PropertyValue.array.inj (Except.ok.inj hget)
  exact Metadata.mem_multimapOf hfield hempty.symm

/-- The metadata of a block that can be read. -/
theorem TrailersBlock.preserved_iff {headers : HeaderObject} (h : TrailersBlock headers.own)
    (haccessible : headers.Accessible) (mappedStatusCode : Status) :
    TrailersPreserved mappedStatusCode headers ↔ headers.own.lookup "grpc-message" = none ∨
      (∃ s, headers.own.lookup "grpc-message" = some (.one s) ∧
        isLegalNonBinaryValue s = false) ∧ fields (userHeaders headers.own) = [] := by
  rw [trailersPreserved_of_readable ⟨haccessible, h.decodable⟩]
  rcases h.message with hnone | ⟨s, details, hsome, hdecode⟩
  · -- The headers that are converted are the user's.
    refine iff_of_true ?_ (.inl hnone)
    obtain ⟨m, hm, hrepr⟩ := Metadata.fromHttp2Headers_represents h.accepted
    rw [← userHeaders_of_none hnone, hm]
    exact ⟨m, rfl, h.preserved_of_represents hrepr⟩
  · have hne : headers.own.lookup "grpc-message" ≠ none := by simp [hsome]
    simp only [hne, false_or]
    by_cases hlegal : isLegalNonBinaryValue s = true
    · obtain ⟨m, hm, hkept⟩ := h.message_kept hsome hlegal
      refine iff_of_false ?_ ?_
      · intro hpreserved
        obtain ⟨m', hm', -, -, hempty⟩ := hpreserved
        rw [hm] at hm'
        rw [hm'] at hempty
        exact hkept hempty
      · intro hillegal
        obtain ⟨⟨s', hs', hillegal⟩, -⟩ := hillegal
        obtain rfl := HeaderValue.one.inj (Option.some.inj (hsome.symm.trans hs'))
        exact absurd (hlegal.symm.trans hillegal) (by simp)
    · -- The metadata of the status is empty.
      obtain ⟨e, he⟩ := conversion_throws hsome hlegal
      rw [he]
      constructor
      · intro hpreserved
        obtain ⟨m, rfl, hagrees, -, -⟩ := hpreserved
        exact ⟨⟨s, hsome, by simpa using hlegal⟩, h.fields_eq_nil hagrees⟩
      · intro hempty
        have hrepr : Metadata.new.Represents (multimapOf (fields (userHeaders headers.own))) := by
          rw [hempty.2]
          exact Metadata.Represents.new
        exact ⟨_, rfl, h.preserved_of_represents hrepr⟩

/-- **When trailing metadata is preserved.** The status of a trailers block has exactly the
user's headers for its metadata, with all their values, if and only if `hasOwnProperty` can be
called on the header object, and the block has no `grpc-message`, or one that is not a legal
metadata value while there are no headers of the user. -/
theorem trailersPreserved_iff (mappedStatusCode : Status) {headers : HeaderObject}
    (h : TrailersBlock headers.own) :
    TrailersPreserved mappedStatusCode headers ↔ headers.Accessible ∧
      (headers.own.lookup "grpc-message" = none ∨
        (∃ s, headers.own.lookup "grpc-message" = some (.one s) ∧
          isLegalNonBinaryValue s = false) ∧ fields (userHeaders headers.own) = []) := by
  by_cases haccessible : headers.Accessible
  · rw [h.preserved_iff haccessible, and_iff_right haccessible]
  · refine iff_of_false ?_ fun hcondition => haccessible hcondition.1
    rintro ⟨status, hstatus, -⟩
    exact absurd ((trailersStatus_of_not_accessible haccessible _).symm.trans hstatus) nofun

/-- A successful call with the trailer `x: 1`, and with the given further headers. -/
def trailersWith (more : List (String × HeaderValue)) : HeaderObject where
  own := more.foldl (fun headers e => headers.put e.1 e.2)
    (OrderedMap.empty.put "grpc-status" (.one "0") |>.put "x" (.one "1"))

theorem trailersPreserved_without_message : TrailersPreserved .unknown (trailersWith []) := by
  have hblock : TrailersBlock (trailersWith []).own :=
    ⟨⟨"0", by decide⟩, .inl (by decide), by decide, by decide⟩
  exact (trailersPreserved_iff .unknown hblock).mpr ⟨by decide, .inl (by decide)⟩

/-- An empty `grpc-message` takes the trailer away. -/
theorem trailers_lost : ¬ ∀ headers : HeaderObject, TrailersBlock headers.own →
    TrailersPreserved .unknown headers := by
  intro h
  have hblock : TrailersBlock (trailersWith [("grpc-message", .one "")]).own :=
    ⟨⟨"0", by decide⟩, .inr ⟨"", "", by decide, rfl⟩, by decide, by decide⟩
  obtain ⟨status, hstatus, hagrees, -⟩ := h _ hblock
  obtain rfl := Except.ok.inj (hstatus.symm.trans
    (show _ = Except.ok (StatusObject.mk .ok "" Metadata.new) from rfl))
  exact absurd (hagrees.get "x" (by decide)) (by decide)

end GrpcNode.JsCore.CallStream
