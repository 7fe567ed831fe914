import Mathlib.Data.List.Basic
import Mathlib.Tactic.Common

/-!
# GrpcNode.JsCore.CallCredentials

`call-credentials.ts`: per-call credentials and how they are composed. A generator of
metadata is foreign code; here it is a name of type `γ`, and what it generates is up to the
statements that speak about it.
-/

namespace GrpcNode.JsCore

/-- `EmptyCallCredentials`, `SingleCallCredentials` and `ComposedCallCredentials`. -/
inductive CallCredentials (γ : Type)
  | empty
  | single (metadataGenerator : γ)
  | composed (creds : List (CallCredentials γ))

namespace CallCredentials

variable {γ : Type}

/-- `compose(other)` -/
def compose : CallCredentials γ → CallCredentials γ → CallCredentials γ
  | empty, other => other
  | single g, other => composed [single g, other]
  | composed creds, other => composed (creds ++ [other])

mutual

/-- The generators in the order in which their metadata is to be merged. -/
def leaves : CallCredentials γ → List γ
  | empty => []
  | single g => [g]
  | composed creds => leavesOf creds

def leavesOf : List (CallCredentials γ) → List γ
  | [] => []
  | c :: cs => c.leaves ++ leavesOf cs

end

theorem leavesOf_append (cs ds : List (CallCredentials γ)) :
    leavesOf (cs ++ ds) = leavesOf cs ++ leavesOf ds := by
  induction cs with
  | nil => rfl
  | cons c cs ih => simp only [List.cons_append, leavesOf, ih, List.append_assoc]

/-- Composing puts the generators of both sides one after the other. -/
theorem leaves_compose (creds other : CallCredentials γ) :
    (creds.compose other).leaves = creds.leaves ++ other.leaves := by
  cases creds with
  | empty => simp [compose, leaves]
  | single g => simp [compose, leaves, leavesOf]
  | composed creds => simp [compose, leaves, leavesOf_append, leavesOf]

end CallCredentials

end GrpcNode.JsCore
