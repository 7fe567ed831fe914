import Mathlib.Data.List.Nodup
import Mathlib.Tactic.Common

/-!
# GrpcNode.Lib.OrderedMap

Finite maps that remember the order in which keys were first put: the shape of the
own properties of an object in languages where enumeration follows insertion.
Replacing a value keeps the key's place; erasing and putting again moves the key to
the end. Distinctness of the keys is a field, so a map with a repeated key cannot be
built.
-/

/-- Distinct keys with their values, oldest first. -/
structure OrderedMap (κ ν : Type*) where
  entries : List (κ × ν)
  nodup : (entries.map Prod.fst).Nodup

namespace OrderedMap

variable {κ ν μ : Type*}

instance [DecidableEq κ] [DecidableEq ν] : DecidableEq (OrderedMap κ ν) := fun m n =>
  decidable_of_iff (m.entries = n.entries) (by cases m; cases n; simp)

/-- Maps with the same entries in the same order are equal. -/
theorem ext {m n : OrderedMap κ ν} (h : m.entries = n.entries) : m = n := by
  cases m
  cases n
  congr 1

/-- The map without entries. -/
def empty : OrderedMap κ ν := ⟨[], List.nodup_nil⟩

/-- The keys, oldest first. -/
def keys (m : OrderedMap κ ν) : List κ := m.entries.map Prod.fst

/-- Change every value. -/
def mapValues (f : κ → ν → μ) (m : OrderedMap κ ν) : OrderedMap κ μ where
  entries := m.entries.map fun e => (e.1, f e.1 e.2)
  nodup := by simpa [Function.comp_def] using m.nodup

theorem keys_filterMap_sublist (f : ν → Option μ) (es : List (κ × ν)) :
    ((es.filterMap fun e => (f e.2).map (e.1, ·)).map Prod.fst).Sublist (es.map Prod.fst) := by
  induction es with
  | nil => exact List.Sublist.slnil
  | cons e es ih =>
      cases hf : f e.2 with
      | none => simpa [List.filterMap_cons, hf] using ih.cons e.1
      | some v => simpa [List.filterMap_cons, hf] using ih.cons_cons e.1

/-- Change the values, dropping the keys whose value has no image. -/
def filterMapValues (f : ν → Option μ) (m : OrderedMap κ ν) : OrderedMap κ μ where
  entries := m.entries.filterMap fun e => (f e.2).map (e.1, ·)
  nodup := m.nodup.sublist (keys_filterMap_sublist f m.entries)

variable [DecidableEq κ]

/-- The value of the first entry with this key. -/
def lookupIn (k : κ) : List (κ × ν) → Option ν
  | [] => none
  | e :: es => if e.1 = k then some e.2 else lookupIn k es

/-- Replace the value of a key in place, or append a new entry. -/
def putIn (k : κ) (v : ν) : List (κ × ν) → List (κ × ν)
  | [] => [(k, v)]
  | e :: es => if e.1 = k then (k, v) :: es else e :: putIn k v es

theorem mem_keys_putIn {k k' : κ} {v : ν} {es : List (κ × ν)} :
    k' ∈ (putIn k v es).map Prod.fst ↔ k' = k ∨ k' ∈ es.map Prod.fst := by
  induction es with
  | nil => simp [putIn]
  | cons e es ih =>
      by_cases he : e.1 = k
      · subst he
        simp [putIn]
      · simp only [putIn, if_neg he, List.map_cons, List.mem_cons, ih]
        tauto

theorem nodup_putIn {k : κ} {v : ν} {es : List (κ × ν)} (h : (es.map Prod.fst).Nodup) :
    ((putIn k v es).map Prod.fst).Nodup := by
  induction es with
  | nil => simp [putIn]
  | cons e es ih =>
      rw [List.map_cons, List.nodup_cons] at h
      by_cases he : e.1 = k
      · subst he
        simpa [putIn] using h
      · simp only [putIn, if_neg he, List.map_cons, List.nodup_cons]
        refine ⟨fun hmem => ?_, ih h.2⟩
        rcases mem_keys_putIn.mp hmem with hk | hes
        · exact he hk
        · exact h.1 hes

/-- The value of a key. -/
def lookup (m : OrderedMap κ ν) (k : κ) : Option ν := lookupIn k m.entries

/-- Set the value of a key. -/
def put (m : OrderedMap κ ν) (k : κ) (v : ν) : OrderedMap κ ν :=
  ⟨putIn k v m.entries, nodup_putIn m.nodup⟩

/-- Remove a key. -/
def erase (m : OrderedMap κ ν) (k : κ) : OrderedMap κ ν where
  entries := m.entries.filter fun e => e.1 ≠ k
  nodup := m.nodup.sublist (List.filter_sublist.map Prod.fst)

/-! ### Lookup after each operation -/

theorem lookupIn_eq_none {k : κ} {es : List (κ × ν)} :
    lookupIn k es = none ↔ k ∉ es.map Prod.fst := by
  induction es with
  | nil => simp [lookupIn]
  | cons e es ih =>
      by_cases he : e.1 = k
      · simp [lookupIn, he]
      · simp only [lookupIn, if_neg he, ih, List.map_cons, List.mem_cons, not_or]
        exact ⟨fun h => ⟨fun hk => he hk.symm, h⟩, And.right⟩

theorem mem_of_lookupIn {k : κ} {v : ν} {es : List (κ × ν)} (h : lookupIn k es = some v) :
    (k, v) ∈ es := by
  induction es with
  | nil => simp [lookupIn] at h
  | cons e es ih =>
      by_cases he : e.1 = k
      · simp only [lookupIn, if_pos he, Option.some.injEq] at h
        exact List.mem_cons.mpr (Or.inl (by rw [← he, ← h]))
      · simp only [lookupIn, if_neg he] at h
        exact List.mem_cons_of_mem _ (ih h)

theorem lookup_eq_none {m : OrderedMap κ ν} {k : κ} : m.lookup k = none ↔ k ∉ m.keys :=
  lookupIn_eq_none

theorem mem_of_lookup {m : OrderedMap κ ν} {k : κ} {v : ν} (h : m.lookup k = some v) :
    (k, v) ∈ m.entries :=
  mem_of_lookupIn h

theorem lookupIn_of_mem {k : κ} {v : ν} {es : List (κ × ν)} (hes : (es.map Prod.fst).Nodup)
    (h : (k, v) ∈ es) : lookupIn k es = some v := by
  induction es with
  | nil => simp at h
  | cons e es ih =>
      rw [List.map_cons, List.nodup_cons] at hes
      rcases List.mem_cons.mp h with rfl | h
      · simp [lookupIn]
      · have hne : e.1 ≠ k := fun he => hes.1 (he ▸ List.mem_map_of_mem h)
        rw [lookupIn, if_neg hne, ih hes.2 h]

theorem mem_entries_iff {m : OrderedMap κ ν} {k : κ} {v : ν} :
    (k, v) ∈ m.entries ↔ m.lookup k = some v :=
  ⟨lookupIn_of_mem m.nodup, mem_of_lookup⟩

theorem lookupIn_putIn (k k' : κ) (v : ν) (es : List (κ × ν)) :
    lookupIn k' (putIn k v es) = if k' = k then some v else lookupIn k' es := by
  induction es with
  | nil =>
      by_cases hk : k' = k
      · simp [putIn, lookupIn, hk]
      · simp [putIn, lookupIn, hk, Ne.symm hk]
  | cons e es ih =>
      by_cases he : e.1 = k
      · simp only [putIn, if_pos he, lookupIn]
        by_cases hk : k' = k
        · simp [hk]
        · simp [hk, Ne.symm hk, he]
      · simp only [putIn, if_neg he, lookupIn, ih]
        by_cases hk : k' = k
        · subst hk
          simp [he]
        · simp [hk]

@[simp] theorem lookup_put_self (m : OrderedMap κ ν) (k : κ) (v : ν) :
    (m.put k v).lookup k = some v := by
  rw [lookup, put, lookupIn_putIn, if_pos rfl]

theorem lookup_put_of_ne (m : OrderedMap κ ν) {k k' : κ} (v : ν) (h : k' ≠ k) :
    (m.put k v).lookup k' = m.lookup k' := by
  rw [lookup, put, lookupIn_putIn, if_neg h]
  rfl

theorem putIn_of_lookupIn {k : κ} {v : ν} {es : List (κ × ν)} (h : lookupIn k es = some v) :
    putIn k v es = es := by
  induction es with
  | nil => exact absurd h nofun
  | cons e es ih =>
      rw [lookupIn] at h
      by_cases he : e.1 = k
      · rw [if_pos he, Option.some.injEq] at h
        rw [putIn, if_pos he, ← he, ← h]
      · rw [if_neg he] at h
        rw [putIn, if_neg he, ih h]

/-- Setting a key to the value that it has changes nothing. -/
theorem put_of_lookup {m : OrderedMap κ ν} {k : κ} {v : ν} (h : m.lookup k = some v) :
    m.put k v = m :=
  ext (putIn_of_lookupIn h)

theorem putIn_putIn (k : κ) (v w : ν) (es : List (κ × ν)) :
    putIn k w (putIn k v es) = putIn k w es := by
  induction es with
  | nil => simp [putIn]
  | cons e es ih =>
      by_cases he : e.1 = k
      · simp [putIn, he]
      · simp only [putIn, if_neg he, ih]

/-- The last value put under a key counts. -/
theorem put_put (m : OrderedMap κ ν) (k : κ) (v w : ν) : (m.put k v).put k w = m.put k w :=
  ext (putIn_putIn k v w m.entries)

theorem mem_entries_put {m : OrderedMap κ ν} {k : κ} {v : ν} {e : κ × ν} :
    e ∈ (m.put k v).entries ↔ e = (k, v) ∨ e ∈ m.entries ∧ e.1 ≠ k := by
  obtain ⟨k', w⟩ := e
  rw [mem_entries_iff, mem_entries_iff]
  by_cases hk : k' = k
  · rw [hk, lookup_put_self]
    simp [eq_comm]
  · rw [lookup_put_of_ne _ _ hk]
    simp [hk]

theorem putIn_of_not_mem {k : κ} (v : ν) {es : List (κ × ν)} (h : k ∉ es.map Prod.fst) :
    putIn k v es = es ++ [(k, v)] := by
  induction es with
  | nil => rfl
  | cons e es ih =>
      rw [List.map_cons, List.mem_cons, not_or] at h
      rw [putIn, if_neg (Ne.symm h.1), ih h.2]
      rfl

/-- A new key comes last. -/
theorem entries_put_of_lookup {m : OrderedMap κ ν} {k : κ} (v : ν) (h : m.lookup k = none) :
    (m.put k v).entries = m.entries ++ [(k, v)] :=
  putIn_of_not_mem v (lookup_eq_none.mp h)

/-- Two maps that agree under a key are equal if they are so after setting it. -/
theorem eq_of_put_eq {m n : OrderedMap κ ν} {k : κ} {v : ν} (hlookup : m.lookup k = n.lookup k)
    (hput : m.put k v = n.put k v) : m = n := by
  cases hm : m.lookup k with
  | none =>
      have hentries : m.entries ++ [(k, v)] = n.entries ++ [(k, v)] := by
        rw [← entries_put_of_lookup v hm, hput, entries_put_of_lookup v (hlookup ▸ hm)]
      exact ext (List.append_cancel_right hentries)
  | some w =>
      calc m = (m.put k v).put k w := by rw [put_put, put_of_lookup hm]
        _ = (n.put k v).put k w := by rw [hput]
        _ = n := by rw [put_put, put_of_lookup (hlookup ▸ hm)]

theorem lookupIn_filter_ne (k k' : κ) (es : List (κ × ν)) :
    lookupIn k' (es.filter fun e => e.1 ≠ k) = if k' = k then none else lookupIn k' es := by
  induction es with
  | nil => simp [lookupIn]
  | cons e es ih =>
      by_cases he : e.1 = k
      · rw [List.filter_cons_of_neg (by simp [he]), ih]
        by_cases hk : k' = k
        · simp [hk]
        · simp [hk, lookupIn, he, Ne.symm hk]
      · rw [List.filter_cons_of_pos (by simp [he]), lookupIn, ih, lookupIn]
        by_cases hk : k' = k
        · subst hk
          simp [he]
        · simp [hk]

@[simp] theorem lookup_erase_self (m : OrderedMap κ ν) (k : κ) : (m.erase k).lookup k = none := by
  rw [lookup, erase, lookupIn_filter_ne, if_pos rfl]

theorem lookup_erase_of_ne (m : OrderedMap κ ν) {k k' : κ} (h : k' ≠ k) :
    (m.erase k).lookup k' = m.lookup k' := by
  rw [lookup, erase, lookupIn_filter_ne, if_neg h]
  rfl

/-- Erasing a key that is not there changes nothing. -/
theorem erase_of_lookup {m : OrderedMap κ ν} {k : κ} (h : m.lookup k = none) : m.erase k = m := by
  have hne : ∀ e ∈ m.entries, e.1 ≠ k := by
    intro e he heq
    exact lookup_eq_none.mp h (heq ▸ List.mem_map_of_mem he)
  exact ext (List.filter_eq_self.mpr fun e he => decide_eq_true (hne e he))

theorem lookup_mapValues (f : κ → ν → μ) (m : OrderedMap κ ν) (k : κ) :
    (m.mapValues f).lookup k = (m.lookup k).map (f k) := by
  obtain ⟨es, hes⟩ := m
  simp only [lookup, mapValues]
  clear hes
  induction es with
  | nil => rfl
  | cons e es ih =>
      by_cases he : e.1 = k
      · subst he
        simp [lookupIn]
      · simp only [List.map_cons, lookupIn, if_neg he, ih]

theorem lookup_filterMapValues (f : ν → Option μ) (m : OrderedMap κ ν) (k : κ) :
    (m.filterMapValues f).lookup k = (m.lookup k).bind f := by
  obtain ⟨es, hes⟩ := m
  simp only [lookup, filterMapValues]
  induction es with
  | nil => rfl
  | cons e es ih =>
      rw [List.map_cons, List.nodup_cons] at hes
      by_cases he : e.1 = k
      · have hes' : lookupIn k es = none := lookupIn_eq_none.mpr (he ▸ hes.1)
        have ih := ih hes.2
        cases hf : f e.2 <;> simp [lookupIn, hf, he, ih, hes']
      · cases hf : f e.2 <;> simp [lookupIn, hf, he, ih hes.2]

/-! ### From pairs -/

/-- Put pairs one after the other, so that the last value of a key counts. -/
def ofPairs (pairs : List (κ × ν)) : OrderedMap κ ν :=
  pairs.foldl (fun m e => m.put e.1 e.2) .empty

theorem lookup_foldl_put (pairs : List (κ × ν)) (m : OrderedMap κ ν) (k : κ) :
    (pairs.foldl (fun m e => m.put e.1 e.2) m).lookup k =
      (lookupIn k pairs.reverse).or (m.lookup k) := by
  have happend : ∀ (es : List (κ × ν)) (e : κ × ν), lookupIn k (es ++ [e]) =
      (lookupIn k es).or (if e.1 = k then some e.2 else none) := by
    intro es e
    induction es with
    | nil => simp [lookupIn]
    | cons d es ih =>
        by_cases hd : d.1 = k
        · simp [lookupIn, hd]
        · simp [lookupIn, hd, ih]
  induction pairs generalizing m with
  | nil => simp [lookupIn]
  | cons e pairs ih =>
      rw [List.foldl_cons, ih, List.reverse_cons, happend, Option.or_assoc]
      by_cases he : e.1 = k
      · rw [he, lookup_put_self, if_pos rfl, Option.some_or]
      · rw [lookup_put_of_ne _ _ (Ne.symm he), if_neg he, Option.none_or]

theorem lookup_ofPairs (pairs : List (κ × ν)) (k : κ) :
    (ofPairs pairs).lookup k = lookupIn k pairs.reverse := by
  have hempty : (empty : OrderedMap κ ν).lookup k = none := rfl
  rw [ofPairs, lookup_foldl_put, hempty, Option.or_none]

theorem mem_of_lookup_ofPairs {pairs : List (κ × ν)} {k : κ} {v : ν}
    (h : (ofPairs pairs).lookup k = some v) : (k, v) ∈ pairs := by
  rw [lookup_ofPairs] at h
  exact List.mem_reverse.mp (mem_of_lookupIn h)

theorem exists_lookup_ofPairs {pairs : List (κ × ν)} {e : κ × ν} (h : e ∈ pairs) :
    ∃ v, (ofPairs pairs).lookup e.1 = some v := by
  rw [lookup_ofPairs, ← Option.ne_none_iff_exists', ne_eq, lookupIn_eq_none, not_not]
  exact List.mem_map_of_mem (List.mem_reverse.mpr h)

/-- The entries of a map give a map with the same values. -/
theorem lookup_ofPairs_entries (m : OrderedMap κ ν) (k : κ) :
    (ofPairs m.entries).lookup k = m.lookup k := by
  rw [lookup_ofPairs]
  cases hk : m.lookup k with
  | none =>
      rw [lookup_eq_none, keys] at hk
      rwa [lookupIn_eq_none, List.map_reverse, List.mem_reverse]
  | some v =>
      refine lookupIn_of_mem ?_ (List.mem_reverse.mpr (mem_of_lookup hk))
      rw [List.map_reverse]
      exact List.nodup_reverse.mpr m.nodup

/-- All values are in the map exactly if no two of the things that they come from have the same
key. -/
theorem forall_lookup_ofPairs_iff {α : Type*} (key : α → κ) (value : α → ν) {l : List α}
    (hvalue : ∀ a ∈ l, ∀ b ∈ l, value a = value b → a = b) :
    (∀ a ∈ l, ∃ k, (ofPairs (l.map fun a => (key a, value a))).lookup k = some (value a)) ↔
      ∀ a ∈ l, ∀ b ∈ l, key a = key b → a = b := by
  -- What is found under a key is the value of something with the key.
  have hfound : ∀ {k : κ} {v : ν}, (ofPairs (l.map fun a => (key a, value a))).lookup k = some v →
      ∃ a ∈ l, key a = k ∧ value a = v := by
    intro k v h
    obtain ⟨a, ha, heq⟩ := List.mem_map.mp (mem_of_lookup_ofPairs h)
    exact ⟨a, ha, congrArg Prod.fst heq, congrArg Prod.snd heq⟩
  have hkey : ∀ {k : κ}, ∀ a ∈ l,
      (ofPairs (l.map fun a => (key a, value a))).lookup k = some (value a) → key a = k := by
    intro k a ha h
    obtain ⟨b, hb, hk, hv⟩ := hfound h
    rw [← hvalue b hb a ha hv]
    exact hk
  constructor
  · intro h a ha b hb heq
    obtain ⟨k, hk⟩ := h a ha
    obtain ⟨k', hk'⟩ := h b hb
    rw [← hkey a ha hk, heq, hkey b hb hk', hk'] at hk
    exact (hvalue b hb a ha (Option.some.inj hk)).symm
  · intro h a ha
    obtain ⟨v, hv⟩ := exists_lookup_ofPairs
      (List.mem_map_of_mem (f := fun a => (key a, value a)) ha)
    obtain ⟨b, hb, hk, rfl⟩ := hfound hv
    rw [h b hb a ha hk] at hv
    exact ⟨_, hv⟩

end OrderedMap
