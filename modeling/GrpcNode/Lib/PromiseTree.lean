import Mathlib.Data.List.Basic
import Mathlib.Tactic.Common

/-!
# GrpcNode.Lib.PromiseTree

Trees of **promises**. A leaf settles when its owner says so; a node waits for all its parts,
is rejected as soon as it hears of one that is, and else combines what they are fulfilled with.
Each promise settles once, and they do so in any order: an event names the promise it happens
to.

`Sound` ties every node to its parts, and `Summary` is what it takes to skip the nodes: then a
node that has settled can be read off the leaves under it (`Sound.agrees`), and a tree in which
no node has anything to hear of is decided by its leaves (`Sound.decided`).
-/

/-- A promise, with what it has settled to. -/
inductive PromiseTree (ε α : Type*)
  | leaf (settled : Option (Except ε α))
  | node (parts : List (PromiseTree ε α)) (settled : Option (Except ε α))

namespace PromiseTree

variable {ε α : Type*} (combine : List α → Except ε α)

def settled : PromiseTree ε α → Option (Except ε α)
  | leaf settled => settled
  | node _ settled => settled

/-- The values of the parts, if all of them are fulfilled. -/
def allFulfilled : List (PromiseTree ε α) → Option (List α)
  | [] => some []
  | t :: ts =>
      match t.settled, allFulfilled ts with
      | some (.ok a), some as => some (a :: as)
      | _, _ => none

/-- What happens at one promise. -/
inductive Event (ε α : Type*)
  | settle (result : Except ε α)
  /-- A node hears that the part at this place is rejected. -/
  | rejected (i : Nat)
  /-- A node hears that all its parts are fulfilled. -/
  | fulfilled

def handle : PromiseTree ε α → Event ε α → Option (PromiseTree ε α)
  -- A promise that has settled stays as it is.
  | leaf settled, .settle result => some (leaf (settled.or (some result)))
  | node ts none, .rejected i =>
      match ts[i]?.bind settled with
      | some (.error e) => some (node ts (some (.error e)))
      | _ => none
  | node ts none, .fulfilled => (allFulfilled ts).map fun as => node ts (some (combine as))
  | _, _ => none

/-- An event at the promise that the path leads to. -/
def handleAt : List Nat → Event ε α → PromiseTree ε α → Option (PromiseTree ε α)
  | [], event, t => t.handle combine event
  | i :: path, event, node ts settled => do
      let t ← ts[i]?
      let t' ← handleAt path event t
      return node (ts.set i t') settled
  | _ :: _, _, leaf _ => none

/-! ### One event -/

theorem allFulfilled_eq_some {ts : List (PromiseTree ε α)} {as : List α} :
    allFulfilled ts = some as ↔ ts.map settled = as.map fun a => some (.ok a) := by
  induction ts generalizing as with
  | nil => cases as <;> simp [allFulfilled]
  | cons t ts ih =>
      cases as with
      | nil =>
          simp only [allFulfilled]
          split <;> simp
      | cons a as =>
          rw [List.map_cons, List.map_cons, List.cons.injEq, ← ih, allFulfilled]
          split
          · rename_i a' as' ht hts
            simp [ht, hts]
          · rename_i hnot
            constructor
            · intro h
              exact absurd h (by simp)
            · intro h
              exact absurd h.2 (hnot a as h.1)

/-- What a node can settle to, given its parts. -/
def Gives (ts : List (PromiseTree ε α)) (result : Except ε α) : Prop :=
  (∃ e, some (.error e) ∈ ts.map settled ∧ result = .error e) ∨
    ∃ as : List α, ts.map settled = as.map (fun a => some (.ok a)) ∧ result = combine as

/-- What nodes do by themselves. -/
def Event.Internal : Event ε α → Prop
  | .settle _ => False
  | _ => True

/-- What an event does to a promise. -/
inductive Handled : PromiseTree ε α → Event ε α → PromiseTree ε α → Prop
  | leaf (settled : Option (Except ε α)) (result : Except ε α) :
      Handled (leaf settled) (.settle result) (leaf (settled.or (some result)))
  | node {ts : List (PromiseTree ε α)} {event : Event ε α} {result : Except ε α}
      (hevent : event.Internal) (hgives : Gives combine ts result) :
      Handled (node ts none) event (node ts (some result))

variable {combine} {t t' : PromiseTree ε α} {event : Event ε α} {path : List Nat}

theorem handled_of_handle (h : t.handle combine event = some t') :
    Handled combine t event t' := by
  unfold handle at h
  split at h
  · obtain rfl := Option.some.inj h
    exact .leaf ..
  · rename_i ts i
    split at h
    · rename_i e hrejected
      obtain rfl := Option.some.inj h
      obtain ⟨c, hc, hsettled⟩ := Option.bind_eq_some_iff.mp hrejected
      exact .node trivial
        (.inl ⟨e, List.mem_map.mpr ⟨c, List.mem_of_getElem? hc, hsettled⟩, rfl⟩)
    · exact absurd h (by simp)
  · obtain ⟨as, has, rfl⟩ := Option.map_eq_some_iff.mp h
    exact .node trivial (.inr ⟨as, allFulfilled_eq_some.mp has, rfl⟩)
  · exact absurd h (by simp)

/-- An event further down changes one part. -/
theorem handleAt_cons {i : Nat} (h : handleAt combine (i :: path) event t = some t') :
    ∃ ts result c c', t = node ts result ∧ ts[i]? = some c ∧
      handleAt combine path event c = some c' ∧ t' = node (ts.set i c') result := by
  cases t with
  | leaf result => exact absurd h (by simp [handleAt])
  | node ts result =>
      obtain ⟨c, hc, h⟩ := Option.bind_eq_some_iff.mp h
      obtain ⟨c', hc', h⟩ := Option.bind_eq_some_iff.mp h
      exact ⟨ts, result, c, c', rfl, hc, hc', (Option.some.inj h).symm⟩

/-- **Promises settle once.** -/
theorem settled_handleAt (h : handleAt combine path event t = some t') {result : Except ε α}
    (hsettled : t.settled = some result) : t'.settled = some result := by
  cases path with
  | nil =>
      cases handled_of_handle h with
      | leaf settled result' =>
          obtain rfl : settled = some result := hsettled
          rfl
      | node => exact absurd hsettled (by simp [settled])
  | cons i path =>
      obtain ⟨ts, o, c, c', rfl, -, -, rfl⟩ := handleAt_cons h
      exact hsettled

/-! ### What a node settles to -/

/-- Every node that has settled has settled to what its parts give. -/
inductive Sound (combine : List α → Except ε α) : PromiseTree ε α → Prop
  | leaf (settled : Option (Except ε α)) : Sound combine (leaf settled)
  | node {ts : List (PromiseTree ε α)} {settled : Option (Except ε α)}
      (hparts : ∀ t ∈ ts, Sound combine t)
      (hgives : ∀ result, settled = some result → Gives combine ts result) :
      Sound combine (node ts settled)

/-- A part that goes on leaves those that have settled as they are. -/
theorem getElem?_map_set {ts : List (PromiseTree ε α)} {i : Nat} (hi : ts[i]? = some t)
    (hsettled : ∀ r, t.settled = some r → t'.settled = some r) {j : Nat} {r : Except ε α}
    (hj : (ts.map settled)[j]? = some (some r)) :
    ((ts.set i t').map settled)[j]? = some (some r) := by
  rw [List.getElem?_map] at hj ⊢
  obtain ⟨c, hc, hr⟩ := Option.map_eq_some_iff.mp hj
  by_cases hij : i = j
  · subst hij
    obtain rfl := Option.some.inj (hi.symm.trans hc)
    have hlt := (List.getElem?_eq_some_iff.mp hi).1
    rw [List.getElem?_set_self hlt, Option.map_some, hsettled r hr]
  · rw [List.getElem?_set_ne hij, hc, Option.map_some, hr]

theorem Gives.set {ts : List (PromiseTree ε α)} {result : Except ε α}
    (h : Gives combine ts result) {i : Nat} (hi : ts[i]? = some t)
    (hsettled : ∀ r, t.settled = some r → t'.settled = some r) :
    Gives combine (ts.set i t') result := by
  rcases h with ⟨e, he, rfl⟩ | ⟨as, has, rfl⟩
  · obtain ⟨j, hj⟩ := List.mem_iff_getElem?.mp he
    exact .inl ⟨e, List.mem_of_getElem? (getElem?_map_set hi hsettled hj), rfl⟩
  · refine .inr ⟨as, List.ext_getElem? fun j => ?_, rfl⟩
    have hj : (ts.map settled)[j]? = (as.map fun a => some (.ok a))[j]? := by rw [has]
    rw [← hj]
    cases hold : (ts.map settled)[j]? with
    | none => simpa using hold
    | some o =>
        rw [hold, List.getElem?_map] at hj
        obtain ⟨a, -, rfl⟩ := Option.map_eq_some_iff.mp hj.symm
        exact getElem?_map_set hi hsettled hold

theorem sound_handleAt (ht : Sound combine t) (h : handleAt combine path event t = some t') :
    Sound combine t' := by
  induction path generalizing t t' with
  | nil =>
      cases handled_of_handle h with
      | leaf => exact .leaf _
      | node _ hgives =>
          cases ht with
          | node hparts _ =>
              refine .node hparts fun result hresult => ?_
              obtain rfl := Option.some.inj hresult
              exact hgives
  | cons i path ih =>
      obtain ⟨ts, result, c, c', rfl, hi, hc, rfl⟩ := handleAt_cons h
      cases ht with
      | node hparts hgives =>
          refine .node (fun part hmem => ?_) fun r hr => ?_
          · rcases List.mem_or_eq_of_mem_set hmem with hmem | rfl
            · exact hparts part hmem
            · exact ih (hparts c (List.mem_of_getElem? hi)) hc
          · exact (hgives r hr).set hi fun _ => settled_handleAt hc

/-! ### The leaves -/

mutual

/-- What the leaves have settled to, from left to right. -/
def leaves : PromiseTree ε α → List (Option (Except ε α))
  | leaf settled => [settled]
  | node ts _ => leavesOf ts

def leavesOf : List (PromiseTree ε α) → List (Option (Except ε α))
  | [] => []
  | t :: ts => t.leaves ++ leavesOf ts

end

theorem leavesOf_append (ts us : List (PromiseTree ε α)) :
    leavesOf (ts ++ us) = leavesOf ts ++ leavesOf us := by
  induction ts with
  | nil => rfl
  | cons t ts ih => simp only [List.cons_append, leavesOf, ih, List.append_assoc]

theorem mem_leavesOf {ts : List (PromiseTree ε α)} {o : Option (Except ε α)} :
    o ∈ leavesOf ts ↔ ∃ t ∈ ts, o ∈ t.leaves := by
  induction ts with
  | nil => simp [leavesOf]
  | cons t ts ih => simp [leavesOf, ih]

/-- Combining can be told by the leaves: `R as a` says what a value `a` is of the values `as` of
the leaves, for the values that are `Good`. -/
structure Summary (combine : List α → Except ε α) (Good : α → Prop) (R : List α → α → Prop) :
    Prop where
  leaf : ∀ a, Good a → R [a] a
  combine : ∀ parts : List (List α × α), (∀ p ∈ parts, Good p.2 ∧ R p.1 p.2) →
    ∃ a, combine (parts.map Prod.snd) = .ok a ∧ Good a ∧ R (parts.flatMap Prod.fst) a

variable {Good : α → Prop} {R : List α → α → Prop}

/-- All leaves that are fulfilled have good values. -/
def GoodLeaves (Good : α → Prop) (leaves : List (Option (Except ε α))) : Prop :=
  ∀ a, some (.ok a) ∈ leaves → Good a

/-- All leaves are fulfilled, and `a` is what it should be of their values. -/
def Sums (R : List α → α → Prop) (leaves : List (Option (Except ε α))) (a : α) : Prop :=
  ∃ as : List α, leaves = as.map (fun a => some (.ok a)) ∧ R as a

/-- What a promise has settled to can be told by the leaves. -/
structure Agrees (Good : α → Prop) (R : List α → α → Prop) (t : PromiseTree ε α) : Prop where
  rejected : ∀ e, t.settled = some (.error e) → some (.error e) ∈ t.leaves
  fulfilled : ∀ a, t.settled = some (.ok a) → Good a ∧ Sums R t.leaves a

theorem sums_parts {ts : List (PromiseTree ε α)} {as : List α}
    (hparts : ∀ t ∈ ts, Agrees Good R t) (h : ts.map settled = as.map fun a => some (.ok a)) :
    ∃ parts : List (List α × α), parts.map Prod.snd = as ∧
      (∀ p ∈ parts, Good p.2 ∧ R p.1 p.2) ∧
      leavesOf ts = (parts.flatMap Prod.fst).map fun a => some (.ok a) := by
  induction ts generalizing as with
  | nil =>
      cases as with
      | nil => exact ⟨[], rfl, by simp, rfl⟩
      | cons a as => exact absurd h (by simp)
  | cons t ts ih =>
      cases as with
      | nil => exact absurd h (by simp)
      | cons a as =>
          rw [List.map_cons, List.map_cons, List.cons.injEq] at h
          obtain ⟨hgood, own, hown, hR⟩ := (hparts t List.mem_cons_self).fulfilled a h.1
          obtain ⟨parts, hsnd, hall, hleaves⟩ :=
            ih (fun t' ht' => hparts t' (List.mem_cons_of_mem _ ht')) h.2
          refine ⟨(own, a) :: parts, congrArg (a :: ·) hsnd, ?_, ?_⟩
          · exact List.forall_mem_cons.mpr ⟨⟨hgood, hR⟩, hall⟩
          · rw [leavesOf, hown, hleaves, List.flatMap_cons, List.map_append]

/-- **A promise that has settled agrees with its leaves.** -/
theorem Sound.agrees (hsummary : Summary combine Good R) (ht : Sound combine t)
    (hleaves : GoodLeaves Good t.leaves) : Agrees Good R t := by
  induction ht with
  | leaf result =>
      refine ⟨fun e he => List.mem_singleton.mpr he.symm, fun a ha => ?_⟩
      have hgood := hleaves a (List.mem_singleton.mpr ha.symm)
      exact ⟨hgood, [a], congrArg (fun o => [o]) ha, hsummary.leaf a hgood⟩
  | @node ts result _ hgives ih =>
      have hparts : ∀ t ∈ ts, Agrees Good R t := by
        intro t ht
        exact ih t ht fun a ha => hleaves a (mem_leavesOf.mpr ⟨t, ht, ha⟩)
      have hcombined : ∀ as : List α, ts.map settled = as.map (fun a => some (.ok a)) →
          ∃ a, combine as = .ok a ∧ Good a ∧ Sums R (leavesOf ts) a := by
        intro as has
        obtain ⟨parts, rfl, hall, hown⟩ := sums_parts hparts has
        obtain ⟨a, ha, hgood, hR⟩ := hsummary.combine parts hall
        exact ⟨a, ha, hgood, _, hown, hR⟩
      refine ⟨fun e he => ?_, fun a ha => ?_⟩
      · rcases hgives _ he with ⟨e', he', heq⟩ | ⟨as, has, heq⟩
        · obtain rfl := Except.error.inj heq
          obtain ⟨t, ht, hsettled⟩ := List.mem_map.mp he'
          exact mem_leavesOf.mpr ⟨t, ht, (hparts t ht).rejected _ hsettled⟩
        · obtain ⟨a, ha, -⟩ := hcombined as has
          exact absurd (heq.trans ha) (by simp)
      · rcases hgives _ ha with ⟨e', -, heq⟩ | ⟨as, has, heq⟩
        · exact absurd heq (by simp)
        · obtain ⟨a', ha', hresult⟩ := hcombined as has
          obtain rfl := Except.ok.inj (heq.trans ha')
          exact hresult

/-! ### Coming to rest -/

/-- No node has anything to hear of. -/
def Quiescent (combine : List α → Except ε α) (t : PromiseTree ε α) : Prop :=
  ∀ path event, Event.Internal event → handleAt combine path event t = none

theorem Quiescent.part {ts : List (PromiseTree ε α)} {result : Option (Except ε α)}
    (h : Quiescent combine (node ts result)) (ht : t ∈ ts) : Quiescent combine t := by
  intro path event hevent
  obtain ⟨i, hi⟩ := List.mem_iff_getElem?.mp ht
  have hnone := h (i :: path) event hevent
  rw [handleAt, hi] at hnone
  cases hpart : handleAt combine path event t with
  | none => rfl
  | some t' => exact absurd hnone (by simp [hpart])

theorem exists_map_settled {ts : List (PromiseTree ε α)}
    (h : ∀ t ∈ ts, ∃ a, t.settled = some (.ok a)) :
    ∃ as : List α, ts.map settled = as.map fun a => some (.ok a) := by
  induction ts with
  | nil => exact ⟨[], rfl⟩
  | cons t ts ih =>
      obtain ⟨a, ha⟩ := h t List.mem_cons_self
      obtain ⟨as, has⟩ := ih fun t' ht' => h t' (List.mem_cons_of_mem _ ht')
      exact ⟨a :: as, by rw [List.map_cons, ha, has, List.map_cons]⟩

/-- Whether a promise has settled is up to the leaves. -/
structure Decided (t : PromiseTree ε α) : Prop where
  rejected : (∃ e, some (.error e) ∈ t.leaves) → ∃ e, t.settled = some (.error e)
  settled : none ∉ t.leaves → t.settled ≠ none

/-- **At rest, the leaves decide.** -/
theorem Sound.decided (ht : Sound combine t) (hquiet : Quiescent combine t) : Decided t := by
  induction ht with
  | leaf result =>
      refine ⟨fun h => ?_, fun h hnone => h (List.mem_singleton.mpr hnone.symm)⟩
      obtain ⟨e, he⟩ := h
      exact ⟨e, (List.mem_singleton.mp he).symm⟩
  | @node ts result _ hgives ih =>
      have hdecided : ∀ t ∈ ts, Decided t := fun t ht => ih t ht (hquiet.part ht)
      have hrejects : ∀ t ∈ ts, ∀ e, t.settled = some (.error e) → result ≠ none := by
        intro t ht e he hnone
        subst hnone
        obtain ⟨i, hi⟩ := List.mem_iff_getElem?.mp ht
        have hquiet' := hquiet [] (.rejected i) trivial
        simp [handleAt, handle, hi, he] at hquiet'
      refine ⟨fun h => ?_, fun h hnone => ?_⟩
      · obtain ⟨e, he⟩ := h
        obtain ⟨t, ht, hmem⟩ := mem_leavesOf.mp he
        obtain ⟨e', he'⟩ := (hdecided t ht).rejected ⟨e, hmem⟩
        obtain ⟨r, hr⟩ := Option.ne_none_iff_exists'.mp (hrejects t ht e' he')
        rcases hgives r hr with ⟨e'', -, rfl⟩ | ⟨as, has, -⟩
        · exact ⟨e'', hr⟩
        · have hmem' : t.settled ∈ ts.map PromiseTree.settled := List.mem_map_of_mem ht
          rw [he', has] at hmem'
          exact absurd hmem' (by simp)
      · have hok : ∀ t ∈ ts, ∃ a, t.settled = some (.ok a) := by
          intro t ht
          have hsettled := (hdecided t ht).settled fun hmem =>
            h (mem_leavesOf.mpr ⟨t, ht, hmem⟩)
          obtain ⟨r, hr⟩ := Option.ne_none_iff_exists'.mp hsettled
          cases r with
          | ok a => exact ⟨a, hr⟩
          | error e => exact absurd hnone (hrejects t ht e hr)
        obtain ⟨as, has⟩ := exists_map_settled hok
        subst hnone
        have hquiet' := hquiet [] .fulfilled trivial
        simp [handleAt, handle, allFulfilled_eq_some.mpr has] at hquiet'

/-- What a promise at rest has settled to, by the leaves: it is rejected if one of them is,
waits if one of them has not settled, and else sums them up. -/
inductive DecidedBy (R : List α → α → Prop) (leaves : List (Option (Except ε α))) :
    Option (Except ε α) → Prop
  | rejected {e e' : ε} (h : some (.error e) ∈ leaves) : DecidedBy R leaves (some (.error e'))
  | waiting (h : none ∈ leaves) (hno : ∀ e, some (.error e) ∉ leaves) : DecidedBy R leaves none
  | fulfilled {as : List α} {a : α} (h : leaves = as.map fun a => some (.ok a)) (hR : R as a) :
      DecidedBy R leaves (some (.ok a))

theorem Sound.decidedBy (hsummary : Summary combine Good R) (ht : Sound combine t)
    (hleaves : GoodLeaves Good t.leaves) (hquiet : Quiescent combine t) :
    DecidedBy R t.leaves t.settled := by
  have hagrees := ht.agrees hsummary hleaves
  have hdecided := ht.decided hquiet
  cases hsettled : t.settled with
  | none =>
      refine .waiting ?_ fun e he => ?_
      · by_contra hnone
        exact hdecided.settled hnone hsettled
      · obtain ⟨e', he'⟩ := hdecided.rejected ⟨e, he⟩
        exact absurd (hsettled.symm.trans he') (by simp)
  | some result =>
      cases result with
      | error e => exact .rejected (hagrees.rejected e hsettled)
      | ok a =>
          obtain ⟨-, as, has, hR⟩ := hagrees.fulfilled a hsettled
          exact .fulfilled has hR

theorem DecidedBy.rejected_iff {leaves : List (Option (Except ε α))} {o : Option (Except ε α)}
    (h : DecidedBy R leaves o) :
    (∃ e, o = some (.error e)) ↔ ∃ e, some (.error e) ∈ leaves := by
  cases h with
  | @rejected e e' h => exact iff_of_true ⟨e', rfl⟩ ⟨e, h⟩
  | waiting _ hno => simp [hno]
  | fulfilled h _ => simp [h]

theorem DecidedBy.fulfilled_of_leaves {as : List α} {o : Option (Except ε α)}
    (h : DecidedBy R (as.map fun a => some (.ok a)) o) : ∃ a, o = some (.ok a) ∧ R as a := by
  cases h with
  | rejected h => exact absurd h (by simp)
  | waiting h _ => exact absurd h (by simp)
  | @fulfilled as' a h hR =>
      have hinjective : Function.Injective fun a : α => (some (.ok a) : Option (Except ε α)) := by
        intro a b hab
        exact Except.ok.inj (Option.some.inj hab)
      obtain rfl := List.map_injective_iff.mpr hinjective h
      exact ⟨a, rfl, hR⟩

/-- Both wait, both are rejected, or both are fulfilled, with values that `E` relates. -/
def Alike (E : α → α → Prop) : Option (Except ε α) → Option (Except ε α) → Prop
  | none, none => True
  | some (.error _), some (.error _) => True
  | some (.ok a), some (.ok b) => E a b
  | _, _ => False

/-- The leaves decide up to what `R` leaves open. -/
theorem DecidedBy.alike {E : α → α → Prop} (hE : ∀ as a b, R as a → R as b → E a b)
    {leaves : List (Option (Except ε α))} {o o' : Option (Except ε α)}
    (h : DecidedBy R leaves o) (h' : DecidedBy R leaves o') : Alike E o o' := by
  have hrejected := h.rejected_iff.trans h'.rejected_iff.symm
  cases h with
  | @rejected e e' _ =>
      obtain ⟨e'', rfl⟩ := hrejected.mp ⟨e', rfl⟩
      trivial
  | waiting hnone hno =>
      cases h' with
      | rejected h' => exact absurd h' (hno _)
      | waiting => trivial
      | fulfilled h' _ => exact absurd (h' ▸ hnone) (by simp)
  | @fulfilled as a h hR =>
      subst h
      obtain ⟨b, rfl, hR'⟩ := h'.fulfilled_of_leaves
      exact hE as a b hR hR'

mutual

/-- The number of nodes that wait. -/
def waiting : PromiseTree ε α → Nat
  | leaf _ => 0
  | node ts settled => waitingOf ts + if settled.isNone then 1 else 0

def waitingOf : List (PromiseTree ε α) → Nat
  | [] => 0
  | t :: ts => t.waiting + waitingOf ts

end

theorem waitingOf_append (ts us : List (PromiseTree ε α)) :
    waitingOf (ts ++ us) = waitingOf ts + waitingOf us := by
  induction ts with
  | nil => simp [waitingOf]
  | cons t ts ih => simp only [List.cons_append, waitingOf, ih, Nat.add_assoc]

theorem set_of_getElem? {ts : List (PromiseTree ε α)} {i : Nat} (hi : ts[i]? = some t) :
    ∃ before after, ts = before ++ t :: after ∧ ∀ t', ts.set i t' = before ++ t' :: after := by
  obtain ⟨hlt, rfl⟩ := List.getElem?_eq_some_iff.mp hi
  refine ⟨ts.take i, ts.drop (i + 1), ?_, fun t' => ?_⟩
  · rw [List.getElem_cons_drop, List.take_append_drop]
  · rw [List.set_eq_take_append_cons_drop, if_pos hlt]

/-- **A tree comes to rest**: whatever a node does by itself leaves one less that waits. -/
theorem waiting_handleAt (hevent : event.Internal) (h : handleAt combine path event t = some t') :
    t'.waiting < t.waiting := by
  induction path generalizing t t' with
  | nil =>
      cases handled_of_handle h with
      | leaf => exact hevent.elim
      | node => simp [waiting]
  | cons i path ih =>
      obtain ⟨ts, result, c, c', rfl, hi, hc, rfl⟩ := handleAt_cons h
      obtain ⟨before, after, rfl, hset⟩ := set_of_getElem? hi
      have hlt := ih hc
      rw [hset, waiting, waiting, waitingOf_append, waitingOf_append, waitingOf, waitingOf]
      omega

theorem length_leaves_handleAt (h : handleAt combine path event t = some t') :
    t'.leaves.length = t.leaves.length := by
  induction path generalizing t t' with
  | nil => cases handled_of_handle h <;> rfl
  | cons i path ih =>
      obtain ⟨ts, result, c, c', rfl, hi, hc, rfl⟩ := handleAt_cons h
      obtain ⟨before, after, rfl, hset⟩ := set_of_getElem? hi
      have hlen := ih hc
      simp only [hset, leaves, leavesOf_append, leavesOf, List.length_append, hlen]

/-! ### Single leaves -/

/-- What nodes do by themselves leaves the leaves as they are. -/
theorem leaves_handleAt (hevent : event.Internal) (h : handleAt combine path event t = some t') :
    t'.leaves = t.leaves := by
  induction path generalizing t t' with
  | nil =>
      cases handled_of_handle h with
      | leaf => exact hevent.elim
      | node => rfl
  | cons i path ih =>
      obtain ⟨ts, result, c, c', rfl, hi, hc, rfl⟩ := handleAt_cons h
      obtain ⟨before, after, rfl, hset⟩ := set_of_getElem? hi
      simp only [hset, leaves, leavesOf_append, leavesOf, ih hc]

mutual

/-- The way to the `k`-th leaf, counted from left to right. -/
def leafPath : PromiseTree ε α → Nat → Option (List Nat)
  | leaf _, k => if k = 0 then some [] else none
  | node ts _, k => leafPathOf ts 0 k

/-- The way to the `k`-th leaf of the parts, the first of which is at the place `i`. -/
def leafPathOf : List (PromiseTree ε α) → Nat → Nat → Option (List Nat)
  | [], _, _ => none
  | t :: ts, i, k =>
      if k < t.leaves.length then (leafPath t k).map (i :: ·)
      else leafPathOf ts (i + 1) (k - t.leaves.length)

end

/-- The way leads through one of the parts, and the leaves of the parts before it are counted. -/
theorem leafPathOf_eq_some {ts : List (PromiseTree ε α)} {i k : Nat}
    (h : leafPathOf ts i k = some path) : ∃ before t after rest j, ts = before ++ t :: after ∧
      path = (i + before.length) :: rest ∧ t.leafPath j = some rest ∧
      k = (leavesOf before).length + j ∧ j < t.leaves.length := by
  induction ts generalizing i k with
  | nil => exact absurd h (by simp [leafPathOf])
  | cons t ts ih =>
      rw [leafPathOf] at h
      split at h
      · rename_i hlt
        obtain ⟨rest, hrest, rfl⟩ := Option.map_eq_some_iff.mp h
        exact ⟨[], t, ts, rest, k, rfl, rfl, hrest, by simp [leavesOf], hlt⟩
      · obtain ⟨before, u, after, rest, j, rfl, rfl, hrest, hk, hj⟩ := ih h
        refine ⟨t :: before, u, after, rest, j, rfl, ?_, hrest, ?_, hj⟩
        · rw [List.length_cons]
          congr 1
          omega
        · rw [leavesOf, List.length_append]
          omega

/-- **Settling a leaf settles this leaf**, unless it has settled before, and no other. -/
theorem leaves_settle {k : Nat} {result : Except ε α} (hpath : t.leafPath k = some path)
    (h : handleAt combine path (.settle result) t = some t') (i : Nat) :
    t'.leaves[i]? = if i = k then (t.leaves[i]?).map (·.or (some result)) else t.leaves[i]? := by
  induction path generalizing t t' k i with
  | nil =>
      cases t with
      | node ts settled =>
          obtain ⟨_, _, _, _, _, _, hcons, _⟩ := leafPathOf_eq_some hpath
          exact absurd hcons (List.cons_ne_nil _ _).symm
      | leaf settled =>
          obtain rfl : k = 0 := by
            by_contra hk
            exact absurd hpath (by simp [leafPath, hk])
          obtain rfl := Option.some.inj h
          cases i <;> simp [leaves]
  | cons place path ih =>
      obtain ⟨ts, settled, c, c', rfl, hi, hc, rfl⟩ := handleAt_cons h
      obtain ⟨before, u, after, rest, j, rfl, hcons, hrest, rfl, hj⟩ := leafPathOf_eq_some hpath
      obtain ⟨rfl, rfl⟩ := List.cons.inj hcons
      rw [Nat.zero_add] at hi ⊢
      obtain rfl : u = c := by simpa using hi
      have hset : (before ++ u :: after).set before.length c' = before ++ c' :: after := by simp
      have hlength := length_leaves_handleAt hc
      simp only [hset, leaves, leavesOf_append, leavesOf]
      -- The leaf is before the part, in it, or after it.
      rcases Nat.lt_or_ge i (leavesOf before).length with hbefore | hbefore
      · rw [List.getElem?_append_left hbefore, List.getElem?_append_left hbefore,
          if_neg (by omega)]
      · rw [List.getElem?_append_right hbefore, List.getElem?_append_right hbefore]
        rcases Nat.lt_or_ge (i - (leavesOf before).length) u.leaves.length with hin | hafter
        · rw [List.getElem?_append_left (hlength.symm ▸ hin), List.getElem?_append_left hin,
            ih hrest hc]
          have hiff : i - (leavesOf before).length = j ↔ i = (leavesOf before).length + j := by
            omega
          simp only [hiff]
        · rw [List.getElem?_append_right (hlength.symm ▸ hafter),
            List.getElem?_append_right hafter, hlength, if_neg (by omega)]

mutual

/-- There is a way to every leaf, and it can be settled. -/
theorem exists_settle (combine : List α → Except ε α) (result : Except ε α) :
    ∀ (t : PromiseTree ε α) (k : Nat), k < t.leaves.length →
      ∃ path t', t.leafPath k = some path ∧ handleAt combine path (.settle result) t = some t'
  | leaf settled, k, h => by
      obtain rfl : k = 0 := by simpa [leaves] using h
      exact ⟨[], _, rfl, rfl⟩
  | node ts settled, k, h => by
      obtain ⟨j, rest, u, u', hpath, hj, hu⟩ := exists_settleOf combine result ts 0 k h
      refine ⟨j :: rest, node (ts.set j u') settled, by rw [leafPath, hpath, Nat.zero_add], ?_⟩
      simp only [handleAt, hj, hu, Option.bind_eq_bind, Option.bind_some]
      rfl

theorem exists_settleOf (combine : List α → Except ε α) (result : Except ε α) :
    ∀ (ts : List (PromiseTree ε α)) (i k : Nat), k < (leavesOf ts).length →
      ∃ j rest u u', leafPathOf ts i k = some ((i + j) :: rest) ∧ ts[j]? = some u ∧
        handleAt combine rest (.settle result) u = some u'
  | [], _, _, h => absurd h (Nat.not_lt_zero _)
  | t :: ts, i, k, h => by
      rw [leafPathOf]
      by_cases hlt : k < t.leaves.length
      · obtain ⟨rest, u', hrest, hu⟩ := exists_settle combine result t k hlt
        refine ⟨0, rest, t, u', ?_, rfl, hu⟩
        rw [if_pos hlt, hrest]
        rfl
      · rw [leavesOf, List.length_append] at h
        obtain ⟨j, rest, u, u', hpath, hj, hu⟩ :=
          exists_settleOf combine result ts (i + 1) (k - t.leaves.length) (by omega)
        refine ⟨j + 1, rest, u, u', ?_, hj, hu⟩
        rw [if_neg hlt, hpath, Nat.add_assoc, Nat.add_comm 1 j]

end

end PromiseTree
