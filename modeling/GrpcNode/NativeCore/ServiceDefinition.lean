import GrpcNode.Lib.OrderedMap

/-!
# GrpcNode.NativeCore.ServiceDefinition

The definition of a service: what a loader makes of a reflected service, and what
`makeClientConstructor` and `addService` get.
-/

namespace GrpcNode.NativeCore

/-- `grpc~MethodDefinition`, with functions of type `φ` -/
structure MethodDefinition (φ : Type*) where
  originalName : Option String
  path : String
  requestStream : Bool
  responseStream : Bool
  requestSerialize : φ
  requestDeserialize : φ
  responseSerialize : φ
  responseDeserialize : φ
  deriving DecidableEq

/-- `grpc~ServiceDefinition`, in the order in which its properties are enumerated -/
abbrev ServiceDefinition (φ : Type*) := OrderedMap String (MethodDefinition φ)

/-- `method_type` -/
inductive MethodType
  | unary
  | clientStream
  | serverStream
  | bidi
  deriving Repr, DecidableEq

/-- The choice of `method_type` in `addService` and in `makeClientConstructor` -/
def MethodDefinition.methodType {φ : Type*} (attrs : MethodDefinition φ) : MethodType :=
  if attrs.requestStream then
    if attrs.responseStream then .bidi else .clientStream
  else
    if attrs.responseStream then .serverStream else .unary

end GrpcNode.NativeCore
