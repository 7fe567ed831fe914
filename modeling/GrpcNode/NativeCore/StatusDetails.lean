import GrpcNode.Js.Utf8
import GrpcNode.NativeCore.Batch

/-!
# GrpcNode.NativeCore.StatusDetails

The way of the details of a status from the server to the client: into a slice in
`SendServerStatusOp::ParseOp` and out of it again in `ClientStatusOp::GetNodeValue`.

`CreateSliceFromString` takes the bytes of the UTF-8 form and the length of the UTF-16 form. So
a string that is not ASCII loses its end, and `statusDetails_iff` says which strings arrive.
-/

namespace GrpcNode.NativeCore

open GrpcNode.Js
open GrpcNode.JsCore (MetadataObject MetadataValue)

/-- `CopyStringFromSlice` -/
def copyStringFromSlice (slice : Buffer) : String :=
  if slice.length = 0 then "" else fromUtf8 slice

/-- `CreateBufferFromSlice` -/
def createBufferFromSlice (slice : Buffer) : Buffer := slice

variable (core : Core)

/-- One element of the array, in `ParseMetadata`. -/
def parseMetadataElement (metadataObject : MetadataObject) (elem : Buffer × Buffer) :
    MetadataObject :=
  let keyString := copyStringFromSlice elem.1
  let array := match metadataObject.get keyString with
    | .value (.array array) => array
    | _ => []
  let value : MetadataValue :=
    if core.isBinaryHeader elem.1 then .buffer (createBufferFromSlice elem.2)
    else .string (copyStringFromSlice elem.2)
  metadataObject.put keyString (.array (array ++ [value]))

/-- `ParseMetadata` -/
def parseMetadata (metadataArray : MetadataArray) : MetadataObject :=
  metadataArray.foldl (parseMetadataElement core) .empty

/-- `ClientStatusOp`, when the core has filled it. -/
structure ClientStatusOp where
  metadataArray : MetadataArray
  status : Nat
  statusDetails : Buffer
  deriving Repr, DecidableEq

/-- The object that `ClientStatusOp::GetNodeValue` makes. -/
structure ClientStatus where
  code : Nat
  details : String
  metadata : MetadataObject

/-- `ClientStatusOp::GetNodeValue` -/
def ClientStatusOp.getNodeValue (op : ClientStatusOp) : ClientStatus where
  code := op.status
  details := copyStringFromSlice op.statusDetails
  metadata := parseMetadata core op.metadataArray

/-! ### The two lengths -/

theorem copyStringFromSlice_eq (slice : Buffer) : copyStringFromSlice slice = fromUtf8 slice := by
  cases slice with
  | nil => rfl
  | cons b rest => rfl

/-- A character of ASCII. -/
def IsAscii (c : Char) : Prop := c.toNat < 0x80

/-- What a character counts in `utf16Length`. -/
def utf16Units (c : Char) : Nat := if c.toNat < 0x10000 then 1 else 2

theorem utf16Units_eq_of_isAscii {c : Char} (h : IsAscii c) :
    utf16Units c = (String.utf8EncodeChar c).length := by
  have hsize : c.utf8Size = 1 := Char.utf8Size_eq_one_iff.mpr (Nat.le_of_lt_succ h)
  rw [String.length_utf8EncodeChar, hsize, utf16Units, if_pos (Nat.lt_trans h (by decide))]

theorem utf16Units_lt_of_not_isAscii {c : Char} (h : ¬ IsAscii c) :
    utf16Units c < (String.utf8EncodeChar c).length := by
  rw [String.length_utf8EncodeChar, utf16Units]
  have hone : c.utf8Size ≠ 1 := fun hsize => h (Nat.lt_succ_of_le (Char.utf8Size_eq_one_iff.mp hsize))
  have hpos := c.utf8Size_pos
  split
  · omega
  · rename_i hlarge
    have hfour : c.utf8Size = 4 := Char.utf8Size_eq_four_iff.mpr
      (UInt32.lt_iff_toNat_lt.mpr (Nat.lt_of_lt_of_le (by decide) (Nat.le_of_not_lt hlarge)))
    omega

theorem utf16Units_le (c : Char) : utf16Units c ≤ (String.utf8EncodeChar c).length := by
  by_cases h : IsAscii c
  · exact Nat.le_of_eq (utf16Units_eq_of_isAscii h)
  · exact Nat.le_of_lt (utf16Units_lt_of_not_isAscii h)

theorem sum_utf16Units_eq {cs : List Char} (h : ∀ c ∈ cs, IsAscii c) :
    (cs.map utf16Units).sum = (cs.flatMap String.utf8EncodeChar).length := by
  induction cs with
  | nil => rfl
  | cons c cs ih =>
      rw [List.map_cons, List.sum_cons, List.flatMap_cons, List.length_append,
        utf16Units_eq_of_isAscii (h c (.head cs)), ih fun d hd => h d (.tail c hd)]

theorem sum_utf16Units_le (cs : List Char) :
    (cs.map utf16Units).sum ≤ (cs.flatMap String.utf8EncodeChar).length := by
  induction cs with
  | nil => exact Nat.le_refl 0
  | cons c cs ih =>
      rw [List.map_cons, List.sum_cons, List.flatMap_cons, List.length_append]
      exact Nat.add_le_add (utf16Units_le c) ih

theorem isAscii_of_sum_utf16Units {cs : List Char}
    (h : (cs.flatMap String.utf8EncodeChar).length ≤ (cs.map utf16Units).sum) :
    ∀ c ∈ cs, IsAscii c := by
  induction cs with
  | nil => exact fun c hc => absurd hc List.not_mem_nil
  | cons c cs ih =>
      rw [List.map_cons, List.sum_cons, List.flatMap_cons, List.length_append] at h
      have hrest := sum_utf16Units_le cs
      have hc : IsAscii c := by
        by_contra hnot
        have hlt := utf16Units_lt_of_not_isAscii hnot
        omega
      have hunits := utf16Units_eq_of_isAscii hc
      intro d hd
      rcases List.mem_cons.mp hd with rfl | hd
      · exact hc
      · exact ih (by omega) d hd

/-! ### What arrives -/

/-- A cut through the bytes of some characters leaves whole characters, and of one more less than
all its bytes. -/
theorem take_flatMap_encodeChar {cs : List Char} {n : Nat}
    (h : n < (cs.flatMap String.utf8EncodeChar).length) :
    ∃ whole c rest bytes, cs = whole ++ c :: rest ∧
      (cs.flatMap String.utf8EncodeChar).take n =
        whole.flatMap String.utf8EncodeChar ++ bytes ∧
      bytes <+: String.utf8EncodeChar c ∧ bytes ≠ String.utf8EncodeChar c := by
  induction cs generalizing n with
  | nil => exact absurd h (Nat.not_lt_zero n)
  | cons c cs ih =>
      rw [List.flatMap_cons, List.length_append] at h
      by_cases hn : n < (String.utf8EncodeChar c).length
      · refine ⟨[], c, cs, (String.utf8EncodeChar c).take n, rfl, ?_, List.take_prefix _ _, ?_⟩
        · rw [List.flatMap_cons, List.take_append_of_le_length (Nat.le_of_lt hn)]
          rfl
        · intro heq
          have hlength := congrArg List.length heq
          rw [List.length_take] at hlength
          omega
      · obtain ⟨whole, d, rest, bytes, rfl, htake, hprefix, hcut⟩ :=
          ih (n := n - (String.utf8EncodeChar c).length) (by omega)
        refine ⟨c :: whole, d, rest, bytes, rfl, ?_, hprefix, hcut⟩
        rw [List.flatMap_cons, List.take_append, List.take_of_length_le (Nat.le_of_not_lt hn), htake,
          List.flatMap_cons, List.append_assoc]

/-- The strings that arrive: those of ASCII, and those of ASCII but for a last U+FFFD, which is
what the remains of the last character are read as. -/
def Carried (s : String) : Prop :=
  (∀ c ∈ s.toList, IsAscii c) ∨
    ∃ ascii, (∀ c ∈ ascii, IsAscii c) ∧ s.toList = ascii ++ [replacementCharacter]

theorem createSliceFromString_eq (s : String) : createSliceFromString s =
    (s.toList.flatMap String.utf8EncodeChar).take (s.toList.map utf16Units).sum := rfl

theorem carried_of_copyStringFromSlice {s : String}
    (h : copyStringFromSlice (createSliceFromString s) = s) : Carried s := by
  have hchars : utf8Chars (createSliceFromString s) = s.toList := by
    rw [← String.toList_ofList (l := utf8Chars _)]
    exact congrArg String.toList ((copyStringFromSlice_eq _).symm.trans h)
  rw [createSliceFromString_eq] at hchars
  by_cases hlt : (s.toList.map utf16Units).sum < (s.toList.flatMap String.utf8EncodeChar).length
  · right
    obtain ⟨whole, c, rest, bytes, hs, htake, hprefix, hcut⟩ := take_flatMap_encodeChar hlt
    have hlength := congrArg List.length htake
    rw [htake, hs, utf8Chars_flatMap_append] at hchars
    have hbytes : utf8Chars bytes = c :: rest := List.append_cancel_left hchars
    have hnil : bytes ≠ [] := by
      rintro rfl
      exact absurd hbytes nofun
    -- What is left of `c` is read as U+FFFD, so this is what `c` has to be.
    rw [utf8Chars_cutChar hprefix hnil hcut, List.cons.injEq] at hbytes
    obtain ⟨rfl, rfl⟩ := hbytes
    refine ⟨whole, isAscii_of_sum_utf16Units ?_, hs⟩
    have hpos := List.length_pos_of_ne_nil hnil
    rw [List.length_take, Nat.min_eq_left (Nat.le_of_lt hlt), hs, List.map_append, List.sum_append,
      List.length_append] at hlength
    have hunits : ([replacementCharacter].map utf16Units).sum = 1 := rfl
    omega
  · exact .inl (isAscii_of_sum_utf16Units (Nat.le_of_not_lt hlt))

/-- The two lengths of an ASCII string are the same. -/
theorem createSliceFromString_eq_toUtf8 {s : String} (h : ∀ c ∈ s.toList, IsAscii c) :
    createSliceFromString s = toUtf8 s := by
  rw [createSliceFromString_eq, sum_utf16Units_eq h, List.take_length]
  rfl

theorem copyStringFromSlice_of_carried {s : String} (h : Carried s) :
    copyStringFromSlice (createSliceFromString s) = s := by
  rw [copyStringFromSlice_eq]
  rcases h with hascii | ⟨ascii, hascii, hs⟩
  · rw [createSliceFromString_eq_toUtf8 hascii, fromUtf8_toUtf8]
  · have hslice : createSliceFromString s = ascii.flatMap String.utf8EncodeChar ++ [0xEF] := by
      rw [createSliceFromString_eq, hs, List.map_append, List.sum_append, sum_utf16Units_eq hascii,
        List.flatMap_append, List.take_length_add_append]
      rfl
    rw [hslice, fromUtf8, utf8Chars_flatMap_append, ← String.ofList_toList (s := s), hs]
    rfl

theorem copyStringFromSlice_createSliceFromString_iff {s : String} :
    copyStringFromSlice (createSliceFromString s) = s ↔ Carried s :=
  ⟨carried_of_copyStringFromSlice, copyStringFromSlice_of_carried⟩

variable {core}

/-- The details in the operation that `ParseOp` fills. -/
theorem statusDetails_of_parseOp {value : JsValue} {status : ServerStatus} {s : String}
    (h : SendServerStatusOp.parseOp core value = some (.sendStatusFromServer status))
    (hs : value.get "details" = .string s) : status.statusDetails = createSliceFromString s := by
  unfold SendServerStatusOp.parseOp at h
  rw [hs] at h
  split at h
  · exact absurd h nofun
  dsimp only at h
  split at h
  · exact absurd h nofun
  simp only [Option.bind_eq_bind, Option.bind_eq_some_iff, Option.pure_def, Option.some.injEq] at h
  obtain ⟨code, -, details, hdetails, array, -, hop⟩ := h
  obtain rfl : s = details := Option.some.inj hdetails
  rw [← CoreOp.sendStatusFromServer.inj hop]

/-- **The details of a status arrive exactly if they are ASCII**, or ASCII and one U+FFFD at the
end: for the conversion by itself, and from what a server puts into a batch to what the client
gets, if the core carries the bytes. -/
theorem statusDetails_iff (core : Core) (s : String) :
    (copyStringFromSlice (createSliceFromString s) = s ↔ Carried s) ∧
    ∀ (value : JsValue) (status : ServerStatus) (op : ClientStatusOp),
      SendServerStatusOp.parseOp core value = some (.sendStatusFromServer status) →
      value.get "details" = .string s → op.statusDetails = status.statusDetails →
      ((op.getNodeValue core).details = s ↔ Carried s) := by
  refine ⟨copyStringFromSlice_createSliceFromString_iff, ?_⟩
  intro value status op hparse hdetails hcarried
  rw [ClientStatusOp.getNodeValue, hcarried, statusDetails_of_parseOp hparse hdetails]
  exact copyStringFromSlice_createSliceFromString_iff

/-- A status object with details that are not ASCII. -/
def umlautStatus : JsValue :=
  .object [("code", .number (.finite 5)), ("details", .string "für"), ("metadata", .object [])]

theorem statusDetails_umlaut :
    (copyStringFromSlice (createSliceFromString "für") = "für" ↔ Carried "für") ∧
      (ClientStatusOp.getNodeValue Core.ascii ⟨[], 5, createSliceFromString "für"⟩).details ≠
        "für" := by
  have hmain := statusDetails_iff Core.ascii "für"
  refine ⟨hmain.1, ?_⟩
  rw [ne_eq, hmain.2 umlautStatus ⟨[], 5, createSliceFromString "für"⟩ _ rfl rfl rfl, ← hmain.1]
  decide

/-- The last byte of three characters and four bytes is lost. -/
theorem copyStringFromSlice_umlaut :
    copyStringFromSlice (createSliceFromString "für") = "fü" ∧
      ¬ ∀ s, copyStringFromSlice (createSliceFromString s) = s := by
  have hlost : copyStringFromSlice (createSliceFromString "für") = "fü" := by decide
  refine ⟨hlost, fun h => ?_⟩
  exact absurd ((h "für").symm.trans hlost) (by decide)

end GrpcNode.NativeCore
