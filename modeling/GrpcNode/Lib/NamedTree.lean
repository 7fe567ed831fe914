import Mathlib.Data.List.Nodup
import Mathlib.Tactic.Common

/-!
# GrpcNode.Lib.NamedTree

Trees whose nodes have named children, such as namespaces with what is in them. A predicate on
leaves is lifted by `Forall`, and a relation by `Rel`: the two trees have the same names in the
same order, and related leaves.

What is said of a tree is said of a list of children by a second function, with the suffix `In`.
-/

/-- A leaf, or a node with named children -/
inductive NamedTree (κ α : Type*)
  | leaf (a : α)
  | node (children : List (κ × NamedTree κ α))

namespace NamedTree

variable {κ α β : Type*}

mutual

/-- All leaves have the property. -/
def Forall (P : α → Prop) : NamedTree κ α → Prop
  | leaf a => P a
  | node children => ForallIn P children

def ForallIn (P : α → Prop) : List (κ × NamedTree κ α) → Prop
  | [] => True
  | (_, t) :: children => t.Forall P ∧ ForallIn P children

end

mutual

/-- The trees have the same names, and their leaves are related. -/
def Rel (R : α → β → Prop) : NamedTree κ α → NamedTree κ β → Prop
  | leaf a, leaf b => R a b
  | node children, node children' => RelIn R children children'
  | leaf _, node _ | node _, leaf _ => False

def RelIn (R : α → β → Prop) : List (κ × NamedTree κ α) → List (κ × NamedTree κ β) → Prop
  | [], [] => True
  | (name, t) :: children, (name', t') :: children' =>
      name = name' ∧ t.Rel R t' ∧ RelIn R children children'
  | [], _ :: _ | _ :: _, [] => False

end

mutual

/-- The names under a node are different from each other, and have the property. -/
def WellNamed (P : κ → Prop) : NamedTree κ α → Prop
  | leaf _ => True
  | node children =>
      (children.map Prod.fst).Nodup ∧ (∀ name ∈ children.map Prod.fst, P name) ∧
        WellNamedIn P children

def WellNamedIn (P : κ → Prop) : List (κ × NamedTree κ α) → Prop
  | [] => True
  | (_, t) :: children => t.WellNamed P ∧ WellNamedIn P children

end

/-- Children that are related to trees which are found one by one: the first, and the others -/
theorem exists_relIn_cons_iff {γ : Type*} {S : γ → κ × NamedTree κ β → Prop} {R : α → β → Prop}
    {c : γ} {cs : List γ} {name : κ} {t : NamedTree κ α} {children : List (κ × NamedTree κ α)} :
    (∃ found, List.Forall₂ S (c :: cs) found ∧ RelIn R ((name, t) :: children) found) ↔
      (∃ u, S c (name, u) ∧ t.Rel R u) ∧
        ∃ found, List.Forall₂ S cs found ∧ RelIn R children found := by
  constructor
  · rintro ⟨found, hall, hrel⟩
    cases hall with
    | cons hfirst hall =>
        obtain ⟨rfl, hrel, hrest⟩ := hrel
        exact ⟨⟨_, hfirst, hrel⟩, _, hall, hrest⟩
  · rintro ⟨⟨u, hfirst, hrel⟩, found, hall, hrest⟩
    exact ⟨(name, u) :: found, .cons hfirst hall, rfl, hrel, hrest⟩

end NamedTree
