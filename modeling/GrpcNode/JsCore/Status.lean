import GrpcNode.Js.Number

/-!
# GrpcNode.JsCore.Status

`enum Status` of `constants.ts`.
-/

namespace GrpcNode.JsCore

open GrpcNode.Js

/-- `Status` -/
inductive Status
  | ok
  | cancelled
  | unknown
  | invalidArgument
  | deadlineExceeded
  | notFound
  | alreadyExists
  | permissionDenied
  | resourceExhausted
  | failedPrecondition
  | aborted
  | outOfRange
  | unimplemented
  | internal
  | unavailable
  | dataLoss
  | unauthenticated
  deriving Repr, DecidableEq

namespace Status

/-- The members in the order of their declaration, which numbers them from 0. -/
def all : List Status :=
  [ok, cancelled, unknown, invalidArgument, deadlineExceeded, notFound, alreadyExists,
    permissionDenied, resourceExhausted, failedPrecondition, aborted, outOfRange, unimplemented,
    internal, unavailable, dataLoss, unauthenticated]

/-- The number of a member. -/
def toNat (status : Status) : Nat := all.idxOf status

/-- The member that a number is, if `n in Status`. The other keys of the enumeration
object are the names of its members, and no number is written like one. -/
def ofNumber? (n : JsNumber) : Option Status := n.toIndex?.bind (all[·]?)

theorem getElem?_toNat (status : Status) : all[status.toNat]? = some status := by
  cases status <;> rfl

theorem ofNumber?_toNat (status : Status) :
    ofNumber? (.finite status.toNat) = some status := by
  have hindex : JsNumber.toIndex? (.finite status.toNat) = some status.toNat := by
    simp [JsNumber.toIndex?]
  rw [ofNumber?, hindex, Option.bind_some, getElem?_toNat]

end Status

end GrpcNode.JsCore
