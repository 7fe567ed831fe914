import Mathlib.Logic.Function.Basic
import Mathlib.Tactic.Common

/-!
# GrpcNode.Lib.Multimap

Multimaps with ordered values, as functions: every key has the list of its values,
the empty list when it has none.
-/

/-- The list of values of each key. -/
abbrev Multimap (κ ν : Type*) := κ → List ν

namespace Multimap

variable {κ ν : Type*} [DecidableEq κ]

/-- No key has a value. -/
def empty : Multimap κ ν := fun _ => []

/-- Replace the values of a key by one. -/
def set (m : Multimap κ ν) (k : κ) (v : ν) : Multimap κ ν := Function.update m k [v]

/-- Append a value to those of a key. -/
def add (m : Multimap κ ν) (k : κ) (v : ν) : Multimap κ ν := Function.update m k (m k ++ [v])

/-- Delete the values of a key. -/
def remove (m : Multimap κ ν) (k : κ) : Multimap κ ν := Function.update m k []

/-- Append, at every key, the values of another multimap. -/
def merge (m n : Multimap κ ν) : Multimap κ ν := fun k => m k ++ n k

theorem remove_apply (m : Multimap κ ν) (k k' : κ) :
    m.remove k k' = if k' = k then [] else m k' := Function.update_apply ..

omit [DecidableEq κ] in
@[simp] theorem merge_apply (m n : Multimap κ ν) (k : κ) : m.merge n k = m k ++ n k := rfl

end Multimap
