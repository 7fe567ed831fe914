import GrpcNode.HealthCheck.Health
import GrpcNode.Js.Buffer

/-!
# GrpcNode.HealthCheck.Messages

The messages of the health service: the generated code of `health_pb.js`, and the functions around
it in `health_grpc_pb.js`.

What message objects are, and how fields are read and written, is not in the repository but in
`google-protobuf`. It is `Jspb` here, and `Jspb.Documented` is what is known of it: `Jspb.wire`
satisfies it. The statuses are the values that a field of an enumeration can have.
-/

namespace GrpcNode.HealthCheck

open GrpcNode.Js

variable {β ω α : Type} {μ : Type → Type}

/-! ### `google-protobuf` -/

/-- What a `BinaryReader` comes to: a field, whose value can be read or skipped -/
inductive Read (ω : Type)
  | field (number : Nat) (value : ω)
  | endGroup
  /-- `nextField()` throws. -/
  | failure (e : JsError)

/-- What the generated code uses of `google-protobuf`. The objects of messages whose only field has
values of a type are `μ` of this type. -/
structure Jspb (β ω : Type) (μ : Type → Type) where
  /-- `jspb.Message.initialize`, for a new object without data -/
  newMessage {α : Type} : μ α
  /-- `jspb.Message.getFieldProto3(msg, number, default)` -/
  getFieldProto3 {α : Type} : μ α → Nat → α → α
  /-- `jspb.Message.setField(msg, number, value)` -/
  setField {α : Type} : μ α → Nat → α → μ α
  /-- What `nextField()` comes to in some bytes, up to their end -/
  read : Buffer → List (Read ω)
  /-- `reader.readString()`, in front of a field -/
  readString : ω → Except JsError String
  readEnum : ω → Except JsError Int32
  skipField : ω → Except JsError Unit
  /-- What `writeString(number, s)` adds to the result of a `BinaryWriter` -/
  writeString : Nat → String → Except JsError Buffer
  writeEnum : Nat → Value Int32 β → Except JsError Buffer

/-- What is written of a value is read as one field with this value. -/
def RoundTrips (read : Buffer → List (Read ω)) (number : Nat) (write : Except JsError Buffer)
    (readValue : ω → Except JsError α) (value : α) : Prop :=
  ∃ bytes field, write = .ok bytes ∧ read bytes = [.field number field] ∧
    readValue field = .ok value

/-- What is known of `google-protobuf`: a new object has the default for its field, and an object
whose field has been set has this value; a string, and a number of an enumeration, come back from
the field with the number `1`. -/
structure Jspb.Documented (jspb : Jspb β ω μ) : Prop where
  getField_newMessage {α : Type} (default : α) : jspb.getFieldProto3 jspb.newMessage 1 default = default
  getField_setField {α : Type} (msg : μ α) (value default : α) :
    jspb.getFieldProto3 (jspb.setField msg 1 value) 1 default = value
  read_nil : jspb.read [] = []
  writeString (s : String) :
    RoundTrips jspb.read 1 (jspb.writeString 1 s) jspb.readString s
  writeEnum (status : Int32) :
    RoundTrips jspb.read 1 (jspb.writeEnum 1 (.status status)) jspb.readEnum status

/-! ### The wire format -/

/-- Seven bits in a byte, the lowest first -/
def varint (n : Nat) : Buffer :=
  if n < 128 then [n.toUInt8] else (n % 128 + 128).toUInt8 :: varint (n / 128)

/-- A number, and what comes after it -/
def readVarint : Buffer → Nat × Buffer
  | [] => (0, [])
  | byte :: bytes =>
      if byte.toNat < 128 then (byte.toNat, bytes)
      else (byte.toNat - 128 + 128 * (readVarint bytes).1, (readVarint bytes).2)

theorem readVarint_varint (n : Nat) (rest : Buffer) :
    readVarint (varint n ++ rest) = (n, rest) := by
  induction n using Nat.strongRecOn with
  | ind n ih =>
      rw [varint]
      split
      · rename_i hsmall
        have hbyte : n.toUInt8.toNat = n := Nat.mod_eq_of_lt (by omega)
        rw [List.singleton_append, readVarint, hbyte, if_pos hsmall]
      · have hbyte : (n % 128 + 128).toUInt8.toNat = n % 128 + 128 := Nat.mod_eq_of_lt (by omega)
        rw [List.cons_append, readVarint, hbyte, if_neg (by omega), ih (n / 128) (by omega)]
        simp only [Prod.mk.injEq, and_true]
        omega

/-- Numbers of `64` bits, as signed ones are written -/
def signedVarint (status : Int32) : Buffer := varint (status.toInt % 18446744073709551616).toNat

theorem readVarint_signedVarint (status : Int32) :
    Int32.ofInt (readVarint (signedVarint status)).1 = status := by
  have hread := readVarint_varint (status.toInt % 18446744073709551616).toNat []
  rw [List.append_nil] at hread
  rw [signedVarint, hread, ← Int32.toInt_inj, Int32.toInt_ofInt, Int.bmod_def]
  have hlow := status.le_toInt
  have hhigh := status.toInt_lt
  simp only [Int32.size]
  omega

theorem fromUTF8?_toUTF8 (s : String) :
    String.fromUTF8? ⟨s.toUTF8.data.toList.toArray⟩ = some s := by
  have hbytes : (⟨s.toUTF8.data.toList.toArray⟩ : ByteArray) = s.toUTF8 := rfl
  rw [hbytes]
  exact dif_pos s.isValidUTF8

/-- The format of messages with one field, and objects that have this field or not -/
def Jspb.wire (β : Type) : Jspb β Buffer Option where
  newMessage := none
  getFieldProto3 msg _ default := msg.getD default
  setField _ _ value := some value
  read
    | [] => []
    | tag :: field => [.field (tag.toNat / 8) field]
  readString field :=
    match String.fromUTF8? ⟨(readVarint field).2.toArray⟩ with
    | some s => .ok s
    | none => .error (.error "Failed to decode")
  readEnum field := .ok (Int32.ofInt (readVarint field).1)
  skipField _ := .ok ()
  writeString number s :=
    .ok ((number * 8 + 2).toUInt8 :: (varint s.toUTF8.size ++ s.toUTF8.data.toList))
  writeEnum number
    | .status status => .ok ((number * 8).toUInt8 :: signedVarint status)
    | .builtIn _ => .error (.error "Assertion failed")

theorem Jspb.wire_documented (β : Type) : (Jspb.wire β).Documented where
  getField_newMessage _ := rfl
  getField_setField _ _ _ := rfl
  read_nil := rfl
  writeString s := by
    refine ⟨_, varint s.toUTF8.size ++ s.toUTF8.data.toList, rfl, rfl, ?_⟩
    simp only [Jspb.wire, readVarint_varint, fromUTF8?_toUTF8]
  writeEnum status := by
    refine ⟨_, signedVarint status, rfl, rfl, ?_⟩
    simp only [Jspb.wire, readVarint_signedVarint]

/-! ### Messages with one field -/

namespace Jspb

variable (jspb : Jspb β ω μ)

/-- `deserializeBinaryFromReader(msg, reader)` of a message whose only field has the number `1` -/
def deserializeBinaryFromReader (readValue : ω → Except JsError α) (msg : μ α) :
    List (Read ω) → Except JsError (μ α)
  | [] => .ok msg
  | .failure e :: _ => .error e
  | .endGroup :: _ => .ok msg
  | .field number value :: fields =>
      if number = 1 then
        match readValue value with
        | .error e => .error e
        | .ok value => deserializeBinaryFromReader readValue (jspb.setField msg 1 value) fields
      else
        match jspb.skipField value with
        | .error e => .error e
        | .ok () => deserializeBinaryFromReader readValue msg fields

/-- `serializeBinary()` of such a message. The default is not written. -/
def serializeBinary (default : α) (isDefault : α → Bool) (write : α → Except JsError Buffer)
    (msg : μ α) : Except JsError Buffer :=
  let f := jspb.getFieldProto3 msg 1 default
  if isDefault f then .ok [] else write f

variable {jspb}

/-- A value that is the default, or that is read as it has been written, gets through. -/
theorem Documented.serializeBinary_roundTrips (h : jspb.Documented) {default value : α}
    {isDefault : α → Bool} {write : α → Except JsError Buffer} {readValue : ω → Except JsError α}
    (hdefault : isDefault value = true → value = default)
    (hvalue : RoundTrips jspb.read 1 (write value) readValue value) {msg : μ α}
    (hmsg : jspb.getFieldProto3 msg 1 default = value) :
    ∃ bytes, jspb.serializeBinary default isDefault write msg = .ok bytes ∧
      ∃ received : μ α,
        jspb.deserializeBinaryFromReader readValue jspb.newMessage (jspb.read bytes) =
          .ok received ∧ jspb.getFieldProto3 received 1 default = value := by
  unfold serializeBinary
  rw [hmsg]
  dsimp only
  cases hempty : isDefault value with
  | true =>
      refine ⟨[], rfl, jspb.newMessage, ?_, ?_⟩
      · rw [h.read_nil, deserializeBinaryFromReader]
      · rw [h.getField_newMessage, hdefault hempty]
  | false =>
      obtain ⟨bytes, field, hwrite, hread, hfield⟩ := hvalue
      refine ⟨bytes, hwrite, jspb.setField jspb.newMessage 1 value, ?_, h.getField_setField _ _ _⟩
      simp only [hread, deserializeBinaryFromReader, hfield, if_true]

end Jspb

/-! ### `HealthCheckRequest` -/

/-- The objects of `proto.grpc.health.v1.HealthCheckRequest` -/
abbrev HealthCheckRequest (μ : Type → Type) := μ String

namespace HealthCheckRequest

variable (jspb : Jspb β ω μ)

/-- `new proto.grpc.health.v1.HealthCheckRequest` -/
def new : HealthCheckRequest μ := jspb.newMessage

def getService (msg : HealthCheckRequest μ) : String := jspb.getFieldProto3 msg 1 ""

def setService (msg : HealthCheckRequest μ) (value : String) : HealthCheckRequest μ :=
  jspb.setField msg 1 value

def deserializeBinary (bytes : Buffer) : Except JsError (HealthCheckRequest μ) :=
  jspb.deserializeBinaryFromReader jspb.readString (new jspb) (jspb.read bytes)

/-- It is not written if its `length` is not greater than `0`. -/
def serializeBinary (msg : HealthCheckRequest μ) : Except JsError Buffer :=
  jspb.serializeBinary "" (fun f => f.length = 0) (jspb.writeString 1) msg

variable {jspb}

theorem roundTrips (hjspb : jspb.Documented) (msg : HealthCheckRequest μ) :
    ∃ bytes, serializeBinary jspb msg = .ok bytes ∧ ∃ received,
      deserializeBinary jspb bytes = .ok received ∧
        getService jspb received = getService jspb msg :=
  hjspb.serializeBinary_roundTrips
    (fun h => String.length_eq_zero_iff.mp (of_decide_eq_true h)) (hjspb.writeString _) rfl

end HealthCheckRequest

/-! ### `HealthCheckResponse` -/

/-- The objects of `proto.grpc.health.v1.HealthCheckResponse`. The status may be whatever `check`
has found. -/
abbrev HealthCheckResponse (μ : Type → Type) (β : Type) := μ (Value Int32 β)

namespace HealthCheckResponse

/-- `f === 0.0` -/
def isZero : Value Int32 β → Bool
  | .status n => n = 0
  | .builtIn _ => false

variable (jspb : Jspb β ω μ)

/-- `new proto.grpc.health.v1.HealthCheckResponse` -/
def new : HealthCheckResponse μ β := jspb.newMessage

def getStatus (msg : HealthCheckResponse μ β) : Value Int32 β :=
  jspb.getFieldProto3 msg 1 (.status 0)

def setStatus (msg : HealthCheckResponse μ β) (value : Value Int32 β) : HealthCheckResponse μ β :=
  jspb.setField msg 1 value

def deserializeBinary (bytes : Buffer) : Except JsError (HealthCheckResponse μ β) :=
  jspb.deserializeBinaryFromReader (fun field => (jspb.readEnum field).map .status) (new jspb)
    (jspb.read bytes)

def serializeBinary (msg : HealthCheckResponse μ β) : Except JsError Buffer :=
  jspb.serializeBinary (.status 0) isZero (jspb.writeEnum 1) msg

variable {jspb}

theorem roundTrips (hjspb : jspb.Documented) {msg : HealthCheckResponse μ β} {status : Int32}
    (hmsg : getStatus jspb msg = .status status) :
    ∃ bytes, serializeBinary jspb msg = .ok bytes ∧ ∃ received,
      deserializeBinary jspb bytes = .ok received ∧
        getStatus jspb received = .status status := by
  obtain ⟨bytes, field, hwrite, hread, hfield⟩ := hjspb.writeEnum status
  refine hjspb.serializeBinary_roundTrips (fun h => ?_) ⟨bytes, field, hwrite, hread, ?_⟩ hmsg
  · rw [of_decide_eq_true h]
  · rw [hfield]
    rfl

end HealthCheckResponse

/-! ### `health_grpc_pb.js` -/

variable (jspb : Jspb β ω μ)

/-- There is none if the argument is not an instance of `HealthCheckRequest`. -/
def serializeHealthCheckRequest (arg : Option (HealthCheckRequest μ)) : Except JsError Buffer :=
  match arg with
  | none => .error (.error "Expected argument of type HealthCheckRequest")
  | some msg => HealthCheckRequest.serializeBinary jspb msg

/-- `new Uint8Array(null)` is empty. -/
def deserializeHealthCheckRequest (bufferArg : Option Buffer) :
    Except JsError (HealthCheckRequest μ) :=
  HealthCheckRequest.deserializeBinary jspb (bufferArg.getD [])

/-- There is none if the argument is not an instance of `HealthCheckResponse`. -/
def serializeHealthCheckResponse (arg : Option (HealthCheckResponse μ β)) :
    Except JsError Buffer :=
  match arg with
  | none => .error (.error "Expected argument of type HealthCheckResponse")
  | some msg => HealthCheckResponse.serializeBinary jspb msg

def deserializeHealthCheckResponse (bufferArg : Option Buffer) :
    Except JsError (HealthCheckResponse μ β) :=
  HealthCheckResponse.deserializeBinary jspb (bufferArg.getD [])

variable {jspb}

theorem healthCheckRequest_roundTrips (hjspb : jspb.Documented) (request : HealthCheckRequest μ) :
    ∃ bytes, serializeHealthCheckRequest jspb (some request) = .ok bytes ∧ ∃ received,
      deserializeHealthCheckRequest jspb (some bytes) = .ok received ∧
        HealthCheckRequest.getService jspb received = HealthCheckRequest.getService jspb request :=
  HealthCheckRequest.roundTrips hjspb request

/-- The response that `check` makes of a status -/
theorem healthCheckResponse_roundTrips (hjspb : jspb.Documented) (status : Int32) :
    ∃ bytes, serializeHealthCheckResponse jspb (some (HealthCheckResponse.setStatus jspb
        (HealthCheckResponse.new jspb) (.status status))) = .ok bytes ∧
      ∃ received, deserializeHealthCheckResponse jspb (some bytes) = .ok received ∧
        HealthCheckResponse.getStatus jspb received = .status status :=
  HealthCheckResponse.roundTrips hjspb (hjspb.getField_setField _ _ _)

end GrpcNode.HealthCheck
