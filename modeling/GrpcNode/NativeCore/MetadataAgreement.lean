import GrpcNode.Lib.Runs
import GrpcNode.NativeCore.StatusDetails

/-!
# GrpcNode.NativeCore.MetadataAgreement

The two `Metadata` classes, side by side.

One asks regular expressions about the characters of a key or a value, the other asks the C core
about the bytes of a slice. The slice is too short for a string that is not ASCII, but what is
left of it is not ASCII either. So the answers differ in two places only: the empty value, and
the key `-bin`, which is too short for the core to be binary (`sameCheck_iff`).

The calls of a program go to both classes; `agreement_iff` says of which calls the two agree.
-/

namespace GrpcNode.NativeCore

open GrpcNode.Js
open GrpcNode.JsCore (MetadataObject MetadataValue PropertyValue)

/-! ### The core -/

/-- `[0-9a-z_.-]` -/
def IsKeyByte (b : UInt8) : Prop :=
  (48 ≤ b.toNat ∧ b.toNat ≤ 57) ∨ (97 ≤ b.toNat ∧ b.toNat ≤ 122) ∨ b.toNat = 95 ∨ b.toNat = 46 ∨
    b.toNat = 45

/-- Printable ASCII. -/
def IsValueByte (b : UInt8) : Prop := 32 ≤ b.toNat ∧ b.toNat ≤ 126

/-- What gRPC documents of the three functions. -/
structure Core.Documented (core : Core) : Prop where
  headerKeyIsLegal (slice : Buffer) :
    core.headerKeyIsLegal slice = true ↔ slice ≠ [] ∧ ∀ b ∈ slice, IsKeyByte b
  headerNonbinValueIsLegal (slice : Buffer) :
    core.headerNonbinValueIsLegal slice = true ↔ ∀ b ∈ slice, IsValueByte b
  isBinaryHeader (slice : Buffer) :
    core.isBinaryHeader slice = true ↔ 5 ≤ slice.length ∧ toUtf8 "-bin" <:+ slice

theorem Core.ascii_documented : Core.ascii.Documented where
  headerKeyIsLegal slice := by
    have hbyte : ∀ b : UInt8, ((48 ≤ b && b ≤ 57) || (97 ≤ b && b ≤ 122) || b = 95 || b = 46 ||
        b = 45) = true ↔ IsKeyByte b := by
      intro b
      simp only [Bool.or_eq_true, Bool.and_eq_true, decide_eq_true_iff, UInt8.le_iff_toNat_le,
        ← UInt8.toNat_inj, or_assoc]
      rfl
    simp only [Core.ascii, Bool.and_eq_true, decide_eq_true_iff, List.all_eq_true, hbyte]
  headerNonbinValueIsLegal slice := by
    have hbyte : ∀ b : UInt8, (32 ≤ b && b ≤ 126) = true ↔ IsValueByte b := by
      intro b
      simp only [Bool.and_eq_true, decide_eq_true_iff, UInt8.le_iff_toNat_le]
      rfl
    simp only [Core.ascii, List.all_eq_true, hbyte]
  isBinaryHeader slice := by simp [Core.ascii]

/-! ### The bytes of a string -/

theorem utf8EncodeChar_of_isAscii {c : Char} (h : IsAscii c) :
    String.utf8EncodeChar c = [UInt8.ofNat c.toNat] := by
  have hle : c.toNat ≤ 127 := Nat.le_of_lt_succ h
  simp [String.utf8EncodeChar, hle]

theorem exists_cons_of_not_isAscii {c : Char} (h : ¬ IsAscii c) :
    ∃ b rest, String.utf8EncodeChar c = b :: rest ∧ 128 ≤ b.toNat := by
  rcases Utf8Decoder.encodeChar_cases c with ⟨hascii, -⟩ | ⟨b, n, decoder, hbytes, hstep, -⟩
  · exact absurd hascii h
  · refine ⟨b, _, hbytes, ?_⟩
    by_contra hlt
    rw [Utf8Decoder.step, Utf8Decoder.lead, if_pos (not_le.mp hlt)] at hstep
    simp at hstep

/-- A test of ASCII bytes, and the same test of ASCII characters. -/
structure SameTest (p : UInt8 → Prop) (q : Char → Prop) : Prop where
  iff {c : Char} : IsAscii c → (p (UInt8.ofNat c.toNat) ↔ q c)
  byte {b : UInt8} : p b → b.toNat < 128
  char {c : Char} : q c → IsAscii c

/-- The bytes of the slice pass it exactly if the characters of the string do: the first byte of
a character that is not ASCII is in the slice. -/
theorem SameTest.forall_iff {p : UInt8 → Prop} {q : Char → Prop} (h : SameTest p q) (s : String) :
    (∀ b ∈ createSliceFromString s, p b) ↔ ∀ c ∈ s.toList, q c := by
  rw [createSliceFromString_eq]
  induction s.toList with
  | nil => simp
  | cons c cs ih =>
      rw [List.map_cons, List.sum_cons, List.flatMap_cons]
      by_cases hc : IsAscii c
      · rw [utf16Units_eq_of_isAscii hc, List.take_length_add_append, utf8EncodeChar_of_isAscii hc,
          List.singleton_append, List.forall_mem_cons, List.forall_mem_cons, ih, h.iff hc]
      · obtain ⟨b, rest, hbytes, hb⟩ := exists_cons_of_not_isAscii hc
        obtain ⟨k, hk⟩ : ∃ k, utf16Units c = k + 1 := by
          unfold utf16Units
          split
          · exact ⟨0, rfl⟩
          · exact ⟨1, rfl⟩
        refine iff_of_false (fun hall => ?_) fun hall => hc (h.char (hall c (.head cs)))
        have hfirst := h.byte (hall b (by
          rw [hbytes, hk, Nat.add_right_comm, List.cons_append, List.take_succ_cons]
          exact .head _))
        omega

theorem createSliceFromString_eq_nil_iff {s : String} : createSliceFromString s = [] ↔ s = "" := by
  have hnone : SameTest (fun _ => False) (fun _ => False) := ⟨fun _ => .rfl, False.elim, False.elim⟩
  have hiff := hnone.forall_iff s
  rw [← List.eq_nil_iff_forall_not_mem, ← List.eq_nil_iff_forall_not_mem] at hiff
  rw [hiff, String.toList_eq_nil_iff]

theorem createSliceFromString_of_isAscii {s : String} (h : ∀ c ∈ s.toList, IsAscii c) :
    createSliceFromString s = s.toList.map fun c => UInt8.ofNat c.toNat := by
  rw [createSliceFromString_eq, sum_utf16Units_eq h, List.take_length]
  generalize s.toList = cs at h
  induction cs with
  | nil => rfl
  | cons c cs ih =>
      rw [List.flatMap_cons, List.map_cons, utf8EncodeChar_of_isAscii (h c (.head cs)),
        ih fun d hd => h d (.tail c hd)]
      rfl

/-! ### The questions of the two classes -/

theorem char_le_iff {c d : Char} : c ≤ d ↔ c.toNat ≤ d.toNat := UInt32.le_iff_toNat_le

theorem isLegalKeyChar_iff {c : Char} : JsCore.isLegalKeyChar c = true ↔
    (48 ≤ c.toNat ∧ c.toNat ≤ 57) ∨ (97 ≤ c.toNat ∧ c.toNat ≤ 122) ∨ c.toNat = 95 ∨ c.toNat = 46 ∨
      c.toNat = 45 := by
  simp only [JsCore.isLegalKeyChar, Bool.decide_or, Bool.decide_and, Bool.or_eq_true,
    Bool.and_eq_true, decide_eq_true_iff, char_le_iff, ← Char.toNat_inj]
  rfl

theorem toNat_ofNat_of_isAscii {c : Char} (h : IsAscii c) :
    (UInt8.ofNat c.toNat).toNat = c.toNat := by
  rw [UInt8.toNat_ofNat', Nat.mod_eq_of_lt (Nat.lt_trans h (by decide))]

/-- The bytes of ASCII characters end with the bytes of others exactly if these end the
characters. -/
theorem map_suffix_iff {suffix cs : List Char} (hsuffix : ∀ c ∈ suffix, IsAscii c)
    (hcs : ∀ c ∈ cs, IsAscii c) :
    (suffix.map fun c => UInt8.ofNat c.toNat) <:+ (cs.map fun c => UInt8.ofNat c.toNat) ↔
      suffix <:+ cs := by
  have hback : ∀ {l : List Char}, (∀ c ∈ l, IsAscii c) →
      ((l.map fun c => UInt8.ofNat c.toNat).map fun b => Char.ofNat b.toNat) = l := by
    intro l hl
    rw [List.map_map]
    refine (List.map_congr_left fun c hc => ?_).trans (List.map_id l)
    simp only [Function.comp, toNat_ofNat_of_isAscii (hl c hc), Char.ofNat_toNat, id]
  constructor
  · intro h
    have hmap := h.map fun b => Char.ofNat b.toNat
    rwa [hback hsuffix, hback hcs] at hmap
  · exact fun h => h.map _

theorem sameTest_key : SameTest IsKeyByte (fun c => JsCore.isLegalKeyChar c = true) where
  iff h := by rw [IsKeyByte, toNat_ofNat_of_isAscii h, isLegalKeyChar_iff]
  byte h := by
    unfold IsKeyByte at h
    omega
  char h := by
    rw [isLegalKeyChar_iff] at h
    unfold IsAscii
    omega

theorem sameTest_value : SameTest IsValueByte (fun c => ' ' ≤ c ∧ c ≤ '~') where
  iff h := by
    rw [IsValueByte, toNat_ofNat_of_isAscii h, char_le_iff, char_le_iff]
    rfl
  byte h := by
    unfold IsValueByte at h
    omega
  char h := by
    rw [char_le_iff, char_le_iff, show ' '.toNat = 32 from rfl, show '~'.toNat = 126 from rfl] at h
    unfold IsAscii
    omega

namespace Core.Documented

variable {core : Core}

/-- Both classes take the same keys. -/
theorem key_iff (h : core.Documented) (key : String) :
    core.headerKeyIsLegal (createSliceFromString key) = true ↔ JsCore.isLegalKey key = true := by
  rw [h.headerKeyIsLegal, sameTest_key.forall_iff, ne_eq, createSliceFromString_eq_nil_iff,
    JsCore.isLegalKey, Bool.and_eq_true, decide_eq_true_iff, List.all_eq_true]

/-- The core takes an empty value, too. -/
theorem value_iff (h : core.Documented) (value : String) :
    core.headerNonbinValueIsLegal (createSliceFromString value) = true ↔
      value = "" ∨ JsCore.isLegalNonBinaryValue value = true := by
  rw [h.headerNonbinValueIsLegal, sameTest_value.forall_iff, JsCore.isLegalNonBinaryValue,
    Bool.and_eq_true, decide_eq_true_iff, List.all_eq_true]
  simp only [decide_eq_true_iff]
  constructor
  · intro hall
    by_cases hempty : value = ""
    · exact .inl hempty
    · exact .inr ⟨hempty, hall⟩
  · rintro (rfl | ⟨-, hall⟩)
    · exact nofun
    · exact hall

/-- A legal key is binary for both, unless nothing stands before `-bin`. -/
theorem binary_iff (h : core.Documented) {key : String} (hkey : JsCore.isLegalKey key = true) :
    core.isBinaryHeader (createSliceFromString key) = true ↔
      JsCore.isBinaryKey key = true ∧ key ≠ "-bin" := by
  have hascii : ∀ c ∈ key.toList, IsAscii c := by
    rw [JsCore.isLegalKey, Bool.and_eq_true, List.all_eq_true] at hkey
    exact fun c hc => sameTest_key.char (hkey.2 c hc)
  rw [h.isBinaryHeader, createSliceFromString_of_isAscii hascii, JsCore.isBinaryKey, endsWith,
    List.isSuffixOf_iff_suffix, List.length_map]
  have hbytes : toUtf8 "-bin" = "-bin".toList.map fun c => UInt8.ofNat c.toNat := by decide
  have hbin : ∀ c ∈ "-bin".toList, c.toNat < 0x80 := by simp
  rw [hbytes, map_suffix_iff hbin hascii]
  constructor
  · rintro ⟨hlength, hbin⟩
    refine ⟨hbin, ?_⟩
    rintro rfl
    exact absurd hlength (by decide)
  · rintro ⟨hbin, hne⟩
    refine ⟨?_, hbin⟩
    by_contra hlength
    have heq := hbin.eq_of_length (le_antisymm hbin.length_le (Nat.le_of_lt_succ (not_le.mp hlength)))
    exact hne (String.toList_inj.mp heq.symm)

end Core.Documented

/-! ### The checks of `set` and `add` -/

/-- The one class takes a key and a value, which its `normalizeKey` has made lower-case, -/
def JsAccepts (key : String) (value : MetadataValue) : Prop :=
  JsCore.validate key (some value) = .ok ()

/-- and so does the other. -/
def Accepts (core : Core) (key : String) (value : MetadataValue) : Prop :=
  core.headerKeyIsLegal (createSliceFromString key) = true ∧ validate core key value = .ok ()

/-- The checks have the same outcome: a legal key is not `-bin`, nor the value empty, unless the
value is refused anyway. -/
def SameCheck (key : String) (value : MetadataValue) : Prop :=
  JsCore.isLegalKey key = true →
    match value with
    | .buffer _ => key ≠ "-bin"
    | .string s =>
        if key = "-bin" then s ≠ "" ∧ JsCore.isLegalNonBinaryValue s = false
        else JsCore.isBinaryKey key = false → s ≠ ""

theorem jsAccepts_iff {key : String} {value : MetadataValue} :
    JsAccepts key value ↔ JsCore.isLegalKey key = true ∧
      match value with
      | .buffer _ => JsCore.isBinaryKey key = true
      | .string s => JsCore.isBinaryKey key = false ∧ JsCore.isLegalNonBinaryValue s = true := by
  unfold JsAccepts JsCore.validate
  cases JsCore.isLegalKey key <;> cases value <;> cases JsCore.isBinaryKey key <;> simp

theorem accepts_iff {core : Core} (h : core.Documented) {key : String} {value : MetadataValue} :
    Accepts core key value ↔ JsCore.isLegalKey key = true ∧
      match value with
      | .buffer _ => JsCore.isBinaryKey key = true ∧ key ≠ "-bin"
      | .string s => ¬ (JsCore.isBinaryKey key = true ∧ key ≠ "-bin") ∧
          (s = "" ∨ JsCore.isLegalNonBinaryValue s = true) := by
  unfold Accepts
  rw [h.key_iff]
  refine and_congr_right fun hkey => ?_
  rw [← h.binary_iff hkey]
  unfold validate
  cases value with
  | buffer b => cases core.isBinaryHeader (createSliceFromString key) <;> simp
  | string s =>
      dsimp only
      rw [← h.value_iff s]
      cases core.isBinaryHeader (createSliceFromString key) <;> simp

theorem sameCheck_iff {core : Core} (h : core.Documented) {key : String} {value : MetadataValue} :
    (JsAccepts key value ↔ Accepts core key value) ↔ SameCheck key value := by
  have hbin : JsCore.isBinaryKey "-bin" = true := by decide
  have hempty : JsCore.isLegalNonBinaryValue "" = false := by decide
  rw [jsAccepts_iff, accepts_iff h]
  unfold SameCheck
  by_cases hkey : JsCore.isLegalKey key = true
  · simp only [hkey, true_and, forall_const]
    cases value with
    | buffer b =>
        by_cases hk : key = "-bin"
        · simp [hk, hbin]
        · simp [hk]
    | string s =>
        by_cases hk : key = "-bin"
        · simp [hk, hbin]
        · by_cases hs : s = ""
          · simp [hk, hs, hempty]
          · simp [hk, hs]
  · simp [hkey]

/-! ### What a call makes of the object -/

/-- The object behind a `Metadata` of the one class, unless there was an exception, -/
def jsRepr? : Except JsError JsCore.Metadata → Option MetadataObject
  | .ok m => some m.internalRepr
  | .error _ => none

/-- and behind one of the other. -/
def repr? {core : Core} : Except JsError (Metadata core) → Option MetadataObject
  | .ok m => some m.internalRepr
  | .error _ => none

@[simp] theorem jsRepr?_ok (m : JsCore.Metadata) : jsRepr? (.ok m) = some m.internalRepr := rfl

@[simp] theorem repr?_ok {core : Core} (m : Metadata core) :
    repr? (.ok m) = some m.internalRepr := rfl

/-- The end of `add`, which throws where something without a `push` is inherited. -/
def pushed? (repr : MetadataObject) (key : String) (value : MetadataValue) : Option MetadataObject :=
  if !(repr.get key).truthy then some (repr.put key (.array [value]))
  else match repr.get key with
    | .value (.array values) => some (repr.put key (.array (values ++ [value])))
    | _ => none

/-- The end of `remove`. -/
def removed (repr : MetadataObject) (key : String) : MetadataObject :=
  if repr.hasOwnProperty key then { repr with own := repr.own.erase key } else repr

section

variable {repr : MetadataObject} {key : String} (value : MetadataValue)

theorem pushed?_of_not_truthy (h : (repr.get key).truthy = false) :
    pushed? repr key value = some (repr.put key (.array [value])) := by
  rw [pushed?, h]
  rfl

theorem pushed?_of_array {values : List MetadataValue}
    (h : repr.get key = .value (.array values)) :
    pushed? repr key value = some (repr.put key (.array (values ++ [value]))) := by
  simp only [pushed?, h]
  rfl

theorem pushed?_of_not_array (htruthy : (repr.get key).truthy = true)
    (h : ∀ values, repr.get key ≠ .value (.array values)) : pushed? repr key value = none := by
  rw [pushed?, htruthy]
  cases hget : repr.get key with
  | undefined => rfl
  | builtin => rfl
  | value v =>
      cases v with
      | string s => rfl
      | array values => exact absurd hget (h values)

/-- What a call gives if its check succeeds. -/
theorem eq_some_iff {α : Type*} {A : Prop} {x y : Option α} {r : α} (hA : A) (h : x = y) :
    x = some r ↔ A ∧ y = some r := by
  rw [h]
  exact ⟨fun heq => ⟨hA, heq⟩, fun heq => heq.2⟩

end

section

variable (m : JsCore.Metadata) (key : String) (value : MetadataValue) {r : MetadataObject}

theorem jsRepr?_set : jsRepr? (m.set key value) = some r ↔
    JsAccepts (toLowerCase key) value ∧
      some (m.internalRepr.put (toLowerCase key) (.array [value])) = some r := by
  cases hvalid : JsCore.validate (JsCore.normalizeKey key) (some value) with
  | ok u =>
      simp only [JsCore.Metadata.set_of_valid hvalid, jsRepr?_ok, JsCore.normalizeKey]
      exact eq_some_iff hvalid rfl
  | error e =>
      have hset : m.set key value = .error e := by
        simp only [JsCore.Metadata.set, hvalid]
        rfl
      rw [hset]
      exact iff_of_false (by simp [jsRepr?]) fun h => absurd (hvalid.symm.trans h.1) (by simp)

theorem jsRepr?_add : jsRepr? (m.add key value) = some r ↔
    JsAccepts (toLowerCase key) value ∧ pushed? m.internalRepr (toLowerCase key) value = some r := by
  cases hvalid : JsCore.validate (JsCore.normalizeKey key) (some value) with
  | ok u =>
      refine eq_some_iff hvalid ?_
      cases htruthy : (m.internalRepr.get (JsCore.normalizeKey key)).truthy with
      | false =>
          simp only [JsCore.Metadata.add_of_not_truthy hvalid htruthy, jsRepr?_ok, JsCore.normalizeKey]
          exact (pushed?_of_not_truthy value htruthy).symm
      | true =>
          by_cases harray : ∃ values, m.internalRepr.get (JsCore.normalizeKey key) =
              .value (.array values)
          · obtain ⟨values, hget⟩ := harray
            simp only [JsCore.Metadata.add_of_array hvalid hget, jsRepr?_ok, JsCore.normalizeKey]
            exact (pushed?_of_array value hget).symm
          · rw [JsCore.Metadata.add_of_not_array hvalid htruthy (not_exists.mp harray)]
            exact (pushed?_of_not_array value htruthy (not_exists.mp harray)).symm
  | error e =>
      have hadd : m.add key value = .error e := by
        simp only [JsCore.Metadata.add, hvalid]
        rfl
      rw [hadd]
      exact iff_of_false (by simp [jsRepr?]) fun h => absurd (hvalid.symm.trans h.1) (by simp)

theorem jsRepr?_remove : jsRepr? (m.remove key) = some r ↔
    JsCore.isLegalKey (toLowerCase key) = true ∧
      some (removed m.internalRepr (toLowerCase key)) = some r := by
  cases hlegal : JsCore.isLegalKey (JsCore.normalizeKey key) with
  | true =>
      refine eq_some_iff hlegal ?_
      rw [JsCore.Metadata.remove_of_legal hlegal]
      show jsRepr? (.ok _) = some (removed m.internalRepr (JsCore.normalizeKey key))
      rw [removed]
      split <;> rfl
  | false =>
      have hremove : ∃ e, m.remove key = .error e := by
        simp only [JsCore.Metadata.remove, JsCore.validate, hlegal]
        exact ⟨_, rfl⟩
      obtain ⟨e, hremove⟩ := hremove
      rw [hremove]
      exact iff_of_false (by simp [jsRepr?]) fun h => absurd (hlegal.symm.trans h.1) (by simp)

end

section

variable {core : Core} (m : Metadata core) (key : String) (value : MetadataValue)
  {r : MetadataObject}

theorem normalizeKey_eq (core : Core) (key : String) :
    (core.headerKeyIsLegal (createSliceFromString (toLowerCase key)) = true ∧
      normalizeKey core key = .ok (toLowerCase key)) ∨
    (core.headerKeyIsLegal (createSliceFromString (toLowerCase key)) = false ∧
      ∃ e, normalizeKey core key = .error e) := by
  unfold normalizeKey
  cases h : core.headerKeyIsLegal (createSliceFromString (toLowerCase key)) with
  | true => exact .inl ⟨rfl, by simp [h]⟩
  | false => exact .inr ⟨rfl, by simp [h]⟩

theorem repr?_set : repr? (m.set key value) = some r ↔
    Accepts core (toLowerCase key) value ∧
      some (m.internalRepr.put (toLowerCase key) (.array [value])) = some r := by
  unfold Accepts Metadata.set
  rcases normalizeKey_eq core key with ⟨hlegal, hnormal⟩ | ⟨hillegal, e, hnormal⟩
  · rw [hnormal]
    dsimp only
    split
    · rename_i e hvalid
      exact iff_of_false nofun fun h => absurd (hvalid.symm.trans h.1.2) nofun
    · rename_i hvalid
      simp only [repr?_ok]
      exact eq_some_iff ⟨hlegal, hvalid⟩ rfl
  · rw [hnormal]
    exact iff_of_false nofun fun h => absurd (hillegal.symm.trans h.1.1) nofun

theorem repr?_add : repr? (m.add key value) = some r ↔
    Accepts core (toLowerCase key) value ∧
      pushed? m.internalRepr (toLowerCase key) value = some r := by
  unfold Accepts Metadata.add
  rcases normalizeKey_eq core key with ⟨hlegal, hnormal⟩ | ⟨hillegal, e, hnormal⟩
  · rw [hnormal]
    dsimp only
    split
    · rename_i e hvalid
      exact iff_of_false nofun fun h => absurd (hvalid.symm.trans h.1.2) nofun
    · rename_i hvalid
      refine eq_some_iff ⟨hlegal, hvalid⟩ ?_
      split
      · rename_i htruthy
        simp only [repr?_ok]
        exact (pushed?_of_not_truthy value (Bool.not_eq_true' _ |>.mp htruthy)).symm
      · rename_i htruthy
        rw [Bool.not_eq_true', Bool.not_eq_false] at htruthy
        split
        · rename_i hget
          simp only [repr?_ok]
          exact (pushed?_of_array value hget).symm
        · rename_i hnot
          exact (pushed?_of_not_array value htruthy fun values hget => hnot values hget).symm
  · rw [hnormal]
    exact iff_of_false nofun fun h => absurd (hillegal.symm.trans h.1.1) nofun

theorem repr?_remove : repr? (m.remove key) = some r ↔
    core.headerKeyIsLegal (createSliceFromString (toLowerCase key)) = true ∧
      some (removed m.internalRepr (toLowerCase key)) = some r := by
  unfold Metadata.remove
  rcases normalizeKey_eq core key with ⟨hlegal, hnormal⟩ | ⟨hillegal, e, hnormal⟩
  · rw [hnormal]
    dsimp only
    refine eq_some_iff hlegal ?_
    unfold removed
    split <;> rfl
  · rw [hnormal]
    exact iff_of_false nofun fun h => absurd (hillegal.symm.trans h.1) nofun

end

/-! ### Calls -/

/-- A call of a method. -/
inductive MetadataOp
  | set (key : String) (value : MetadataValue)
  | add (key : String) (value : MetadataValue)
  | remove (key : String)
  | get (key : String)
  | getMap
  | clone

/-- What it gives. A new object is told by its number. -/
inductive MetadataResult
  | throws
  | undefined
  | values (v : PropertyValue)
  | map (entries : OrderedMap String MetadataValue)
  | object (i : Nat)
  deriving DecidableEq

/-- A class with these methods. -/
structure MetadataClass (M : Type) where
  set : M → String → MetadataValue → Except JsError M
  add : M → String → MetadataValue → Except JsError M
  remove : M → String → Except JsError M
  get : M → String → Except JsError PropertyValue
  getMap : M → OrderedMap String MetadataValue
  clone : M → Except JsError M

/-- The class of `grpc-js-core`. -/
def jsClass : MetadataClass JsCore.Metadata where
  set := JsCore.Metadata.set
  add := JsCore.Metadata.add
  remove := JsCore.Metadata.remove
  get := JsCore.Metadata.get
  getMap := JsCore.Metadata.getMap
  clone := JsCore.Metadata.clone

/-- The class of `grpc-native-core`. -/
def nativeClass (core : Core) : MetadataClass (Metadata core) where
  set := Metadata.set
  add := Metadata.add
  remove := Metadata.remove
  get := Metadata.get
  getMap := Metadata.getMap
  clone m := .ok m.clone

namespace MetadataClass

variable {M : Type} (c : MetadataClass M)

/-- A method that changes the `i`-th object has returned or thrown. -/
def changed (objects : List M) (i : Nat) : Except JsError M → List M × MetadataResult
  | .ok m => (objects.set i m, .undefined)
  | .error _ => (objects, .throws)

/-- A call of a method of the `i`-th object, which is `m`. -/
def call (objects : List M) (i : Nat) (m : M) : MetadataOp → List M × MetadataResult
  | .set key value => changed objects i (c.set m key value)
  | .add key value => changed objects i (c.add m key value)
  | .remove key => changed objects i (c.remove m key)
  | .get key =>
      match c.get m key with
      | .ok v => (objects, .values v)
      | .error _ => (objects, .throws)
  | .getMap => (objects, .map (c.getMap m))
  | .clone =>
      match c.clone m with
      | .ok m => (objects ++ [m], .object objects.length)
      | .error _ => (objects, .throws)

end MetadataClass

/-- The objects of the two classes, and the results of the calls so far. -/
structure BothClasses (core : Core) where
  js : List JsCore.Metadata
  native : List (Metadata core)
  results : List (MetadataResult × MetadataResult) := []

namespace BothClasses

variable {core : Core}

/-- One object of each class. -/
def initial : BothClasses core where
  js := [JsCore.Metadata.new]
  native := [Metadata.new]

/-- The same call for both. -/
def step (s : BothClasses core) : Nat × MetadataOp → Option (BothClasses core)
  | (i, op) => do
      let m ← s.js[i]?
      let n ← s.native[i]?
      let (js, r) := jsClass.call s.js i m op
      let (native, r') := (nativeClass core).call s.native i n op
      return { js, native, results := s.results ++ [(r, r')] }

/-- The two have thrown on the same calls, and returned the same. -/
def Agree (s : BothClasses core) : Prop := ∀ r ∈ s.results, r.1 = r.2

end BothClasses

/-- The call has the same outcome for both classes, on objects with this representation: `add`
throws anyway where something without a `push` is found. -/
def MetadataOp.Same (repr : MetadataObject) : MetadataOp → Prop
  | .set key value => SameCheck (toLowerCase key) value
  | .add key value =>
      SameCheck (toLowerCase key) value ∨ pushed? repr (toLowerCase key) value = none
  | .remove _ | .get _ | .getMap | .clone => True

/-! ### What a call does to both -/

/-- The objects have the same representations. -/
def SameObjects {core : Core} (js : List JsCore.Metadata) (native : List (Metadata core)) : Prop :=
  js.map JsCore.Metadata.internalRepr = native.map Metadata.internalRepr

/-- The outcome of a call: that the results are the same depends on `same`, and then the objects
are the same. -/
structure CallOutcome {core : Core} (js : List JsCore.Metadata × MetadataResult)
    (native : List (Metadata core) × MetadataResult) (same : Prop) : Prop where
  result : js.2 = native.2 ↔ same
  objects : js.2 = native.2 → SameObjects js.1 native.1

variable {core : Core} {js : List JsCore.Metadata} {native : List (Metadata core)} {i : Nat}
  {m : JsCore.Metadata} {n : Metadata core}

/-- A method that changes the object, and so behaves as its representation says. -/
theorem outcome_changed (hobjects : SameObjects js native) {x : Except JsError JsCore.Metadata}
    {y : Except JsError (Metadata core)} {A B : Prop} {f : Option MetadataObject}
    (hx : ∀ r, jsRepr? x = some r ↔ A ∧ f = some r) (hy : ∀ r, repr? y = some r ↔ B ∧ f = some r) :
    CallOutcome (MetadataClass.changed js i x) (MetadataClass.changed native i y)
      ((A ↔ B) ∨ f = none) := by
  cases x with
  | ok m' =>
      obtain ⟨hA, hf⟩ := (hx _).mp rfl
      cases y with
      | ok n' =>
          obtain ⟨hB, hf'⟩ := (hy _).mp rfl
          have hrepr : m'.internalRepr = n'.internalRepr := Option.some.inj (hf.symm.trans hf')
          refine ⟨iff_of_true rfl (.inl (iff_of_true hA hB)), fun _ => ?_⟩
          simp only [MetadataClass.changed, SameObjects, List.map_set, hrepr]
          rw [show js.map _ = native.map _ from hobjects]
      | error e =>
          have hB : ¬ B := fun hB => absurd ((hy _).mpr ⟨hB, hf⟩) nofun
          refine ⟨iff_of_false nofun ?_, nofun⟩
          rintro (hiff | hnone)
          · exact hB (hiff.mp hA)
          · exact absurd (hf.symm.trans hnone) nofun
  | error e =>
      cases y with
      | ok n' =>
          obtain ⟨hB, hf⟩ := (hy _).mp rfl
          have hA : ¬ A := fun hA => absurd ((hx _).mpr ⟨hA, hf⟩) nofun
          refine ⟨iff_of_false nofun ?_, nofun⟩
          rintro (hiff | hnone)
          · exact hA (hiff.mpr hB)
          · exact absurd (hf.symm.trans hnone) nofun
      | error e' =>
          refine ⟨iff_of_true rfl ?_, fun _ => hobjects⟩
          cases f with
          | none => exact .inr rfl
          | some r =>
              have hA : ¬ A := fun hA => absurd ((hx r).mpr ⟨hA, rfl⟩) nofun
              have hB : ¬ B := fun hB => absurd ((hy r).mpr ⟨hB, rfl⟩) nofun
              exact .inl (iff_of_false hA hB)

theorem CallOutcome.congr {js : List JsCore.Metadata × MetadataResult}
    {native : List (Metadata core) × MetadataResult} {p q : Prop} (h : CallOutcome js native p)
    (hpq : p ↔ q) : CallOutcome js native q :=
  ⟨h.result.trans hpq, h.objects⟩

/-- A method that reads the object, and gives the same for both. -/
theorem outcome_of_eq (hobjects : SameObjects js native) {r r' : MetadataResult} (h : r = r') :
    CallOutcome (js, r) (native, r') True :=
  ⟨iff_of_true h trivial, fun _ => hobjects⟩

theorem get_eq (h : core.Documented) (hrepr : m.internalRepr = n.internalRepr) (key : String) :
    (∃ v, m.get key = .ok v ∧ n.get key = .ok v) ∨
      ∃ e e', m.get key = .error e ∧ n.get key = .error e' := by
  have hlegal := h.key_iff (toLowerCase key)
  unfold Metadata.get
  rcases normalizeKey_eq core key with ⟨hkey, hnormal⟩ | ⟨hkey, e', hnormal⟩
  · left
    rw [hnormal, JsCore.Metadata.get_of_legal (hlegal.mp hkey), hrepr]
    exact ⟨_, rfl, rfl⟩
  · right
    have hillegal : JsCore.isLegalKey (JsCore.normalizeKey key) = false := by
      rw [Bool.eq_false_iff]
      exact fun hkey' => absurd (hkey.symm.trans (hlegal.mpr hkey')) nofun
    rw [hnormal]
    simp only [JsCore.Metadata.get, JsCore.validate, hillegal]
    exact ⟨_, e', rfl, rfl⟩

theorem getMap_eq (hrepr : m.internalRepr = n.internalRepr) : m.getMap = n.getMap := by
  have hfirst : JsCore.Metadata.firstOf = Metadata.firstOf := by
    funext v
    cases v <;> rfl
  rw [JsCore.Metadata.getMap, Metadata.getMap, hrepr, hfirst]

/-- All values are arrays, so that the copy of the one class is no exception either. -/
theorem clone_eq (hrepr : m.internalRepr = n.internalRepr) :
    ∃ m', m.clone = .ok m' ∧ m'.internalRepr = n.clone.internalRepr := by
  have hall : (m.internalRepr.own.entries.all fun e => e.2.isArray) = true := by
    rw [List.all_eq_true, hrepr]
    intro e he
    obtain ⟨values, hvalues, -⟩ := n.valid e he
    rw [hvalues]
    rfl
  refine ⟨⟨{ own := m.internalRepr.own, proto := .object }⟩, ?_, ?_⟩
  · unfold JsCore.Metadata.clone JsCore.cloneMetadataObject
    rw [if_pos hall]
    rfl
  · rw [hrepr]
    rfl

theorem outcome_call (h : core.Documented) (hobjects : SameObjects js native)
    (hrepr : m.internalRepr = n.internalRepr) (op : MetadataOp) :
    CallOutcome (jsClass.call js i m op) ((nativeClass core).call native i n op)
      (op.Same m.internalRepr) := by
  cases op with
  | set key value =>
      have hset := fun r => repr?_set (r := r) n key value
      rw [← hrepr] at hset
      refine (outcome_changed hobjects (fun r => jsRepr?_set m key value) hset).congr ?_
      rw [sameCheck_iff h]
      exact or_iff_left nofun
  | add key value =>
      have hadd := fun r => repr?_add (r := r) n key value
      rw [← hrepr] at hadd
      refine (outcome_changed hobjects (fun r => jsRepr?_add m key value) hadd).congr ?_
      rw [sameCheck_iff h]
      exact Iff.rfl
  | remove key =>
      have hremove := fun r => repr?_remove (r := r) n key
      rw [← hrepr] at hremove
      refine (outcome_changed hobjects (fun r => jsRepr?_remove m key) hremove).congr ?_
      exact iff_of_true (.inl (h.key_iff _).symm) trivial
  | get key =>
      show CallOutcome (match m.get key with | .ok v => _ | .error _ => _)
        (match n.get key with | .ok v => _ | .error _ => _) True
      rcases get_eq h hrepr key with ⟨v, hm, hn⟩ | ⟨e, e', hm, hn⟩
      · rw [hm, hn]
        exact outcome_of_eq hobjects rfl
      · rw [hm, hn]
        exact outcome_of_eq hobjects rfl
  | getMap => exact outcome_of_eq hobjects (congrArg MetadataResult.map (getMap_eq hrepr))
  | clone =>
      obtain ⟨m', hm', hrepr'⟩ := clone_eq hrepr
      have hlength : js.length = native.length := by
        simpa using congrArg List.length hobjects
      have hjs : jsClass.call js i m .clone = (js ++ [m'], .object js.length) := by
        simp only [MetadataClass.call, jsClass, hm']
      rw [hjs]
      refine ⟨iff_of_true (congrArg MetadataResult.object hlength) trivial, fun _ => ?_⟩
      show List.map _ (js ++ [m']) = List.map _ (native ++ [n.clone])
      rw [List.map_append, List.map_append, show js.map _ = native.map _ from hobjects,
        List.map_singleton, List.map_singleton, hrepr']

/-! ### Runs -/

namespace BothClasses

/-- **What a step does**, on objects that are the same: it has an outcome. -/
theorem step_outcome (h : core.Documented) {s s' : BothClasses core} {i : Nat} {op : MetadataOp}
    (hobjects : SameObjects s.js s.native) (hstep : s.step (i, op) = some s') :
    ∃ m js native, s.js[i]? = some m ∧ CallOutcome js native (op.Same m.internalRepr) ∧
      s' = ⟨js.1, native.1, s.results ++ [(js.2, native.2)]⟩ := by
  simp only [step, Option.bind_eq_bind, Option.bind_eq_some_iff] at hstep
  obtain ⟨m, hm, n, hn, heq⟩ := hstep
  have hrepr : m.internalRepr = n.internalRepr := by
    have hmap := congrArg (·[i]?) hobjects
    simp only [List.getElem?_map, hm, hn, Option.map_some] at hmap
    exact Option.some.inj hmap
  exact ⟨m, _, _, hm, outcome_call h hobjects hrepr op, (Option.some.inj heq).symm⟩

theorem agree_append {s : BothClasses core} (hs : s.Agree) {js : List JsCore.Metadata}
    {native : List (Metadata core)} {r r' : MetadataResult} :
    (⟨js, native, s.results ++ [(r, r')]⟩ : BothClasses core).Agree ↔ r = r' := by
  constructor
  · exact fun h => h (r, r') (List.mem_append_right _ (List.mem_singleton.mpr rfl))
  · rintro rfl p hp
    rcases List.mem_append.mp hp with hp | hp
    · exact hs p hp
    · rw [List.mem_singleton.mp hp]

end BothClasses

/-- The call is one that both classes treat alike, on the object that it is made on. -/
def BothClasses.Treats (s : BothClasses core) (call : Nat × MetadataOp) : Prop :=
  ∀ m, s.js[call.1]? = some m → call.2.Same m.internalRepr

/-- **When the two classes agree.** With a core that does as documented, the two classes throw on
the same calls and return the same, in every run, if and only if both treat each call alike: no
`set` or `add` with a legal key tries the key `-bin`, or an empty value. -/
theorem agreement_iff (core : Core) (h : core.Documented) (calls : List (Nat × MetadataOp)) :
    Runs.Always BothClasses.step BothClasses.Agree (BothClasses.initial : BothClasses core) calls ↔
      Runs.Guarded BothClasses.step BothClasses.Treats (BothClasses.initial : BothClasses core)
        calls := by
  refine Runs.always_iff_guarded (J := fun s => SameObjects s.js s.native) ?_ ?_
    (show SameObjects [JsCore.Metadata.new] [Metadata.new] from rfl) nofun
  · rintro s ⟨i, op⟩ s' hobjects hagree hstep
    obtain ⟨m, js, native, hm, houtcome, rfl⟩ := BothClasses.step_outcome h hobjects hstep
    rw [BothClasses.agree_append hagree, houtcome.result]
    exact ⟨fun hsame m' hm' => Option.some.inj (hm.symm.trans hm') ▸ hsame, fun htreats => htreats m hm⟩
  · rintro s ⟨i, op⟩ s' hobjects hagree hagree' hstep
    obtain ⟨m, js, native, hm, houtcome, rfl⟩ := BothClasses.step_outcome h hobjects hstep
    exact houtcome.objects ((BothClasses.agree_append hagree).mp hagree')

theorem agreement_iff_ascii :
    Runs.Always BothClasses.step BothClasses.Agree (BothClasses.initial : BothClasses Core.ascii)
        [(0, .set "Key" (.string "value"))] ↔
      Runs.Guarded BothClasses.step BothClasses.Treats
        (BothClasses.initial : BothClasses Core.ascii) [(0, .set "Key" (.string "value"))] :=
  agreement_iff Core.ascii Core.ascii_documented [(0, .set "Key" (.string "value"))]

/-- The empty value: one class throws, the other sets it. -/
theorem agreement_empty : Core.ascii.Documented ∧ ¬ Runs.Always BothClasses.step BothClasses.Agree
    (BothClasses.initial : BothClasses Core.ascii) [(0, .set "key" (.string ""))] := by
  refine ⟨Core.ascii_documented, fun h => ?_⟩
  have hresults : (BothClasses.step (BothClasses.initial : BothClasses Core.ascii)
      (0, .set "key" (.string ""))).map BothClasses.results =
        some [(MetadataResult.throws, MetadataResult.undefined)] := by
    decide +kernel
  obtain ⟨s, hs, hresults⟩ := Option.map_eq_some_iff.mp hresults
  have hagree : s.Agree := h.2 s hs
  have hsame := hagree (.throws, .undefined) (by rw [hresults]; exact .head _)
  exact absurd hsame nofun

end GrpcNode.NativeCore
