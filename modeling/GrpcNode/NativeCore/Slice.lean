import GrpcNode.Js.Text

/-!
# GrpcNode.NativeCore.Slice

`slice.cc`, and what the addon uses of the gRPC C core, which is not part of the repository.
-/

namespace GrpcNode.NativeCore

open GrpcNode.Js

/-- The functions and constants of the C core. A slice is its bytes. -/
structure Core where
  /-- `grpc_header_key_is_legal` -/
  headerKeyIsLegal : Buffer → Bool
  /-- `grpc_header_nonbin_value_is_legal` -/
  headerNonbinValueIsLegal : Buffer → Bool
  /-- `grpc_is_binary_header` -/
  isBinaryHeader : Buffer → Bool
  /-- `GRPC_WRITE_USED_MASK` -/
  writeUsedMask : Nat

/-- A core as gRPC documents it: keys are made of `[0-9a-z_.-]`, values of printable ASCII, and
binary headers end with `-bin`. -/
def Core.ascii : Core where
  headerKeyIsLegal key := key ≠ [] && key.all fun b =>
    (48 ≤ b && b ≤ 57) || (97 ≤ b && b ≤ 122) || b = 95 || b = 46 || b = 45
  headerNonbinValueIsLegal value := value.all fun b => 32 ≤ b && b ≤ 126
  isBinaryHeader key := 5 ≤ key.length && (toUtf8 "-bin").isSuffixOf key
  writeUsedMask := 3

/-- `CreateSliceFromString`: as many bytes of the UTF-8 form as the string has UTF-16 units. -/
def createSliceFromString (source : String) : Buffer := (toUtf8 source).take (utf16Length source)

end GrpcNode.NativeCore
