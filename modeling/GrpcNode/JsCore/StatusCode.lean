import GrpcNode.Js.Digits
import GrpcNode.JsCore.CallStream

/-!
# GrpcNode.JsCore.StatusCode

How strictly `grpc-status` is read.

The `'trailers'` handler reads it with `Number`, whose grammar is much wider than a sequence
of digits: white space, signs, fractions, exponents and other bases are all read, and the
empty string is read as 0, which is `OK`. What is read as a number that is not a code becomes
`UNKNOWN`, so the grammar matters exactly where the number is a code (`trailersCode_iff`).
-/

namespace GrpcNode.JsCore

open GrpcNode.Js

/-- The code that `grpc-status` is to be read as: decimal digits that denote a code, and
`UNKNOWN` for everything else. -/
def strictCode (s : String) : Status :=
  ((digitsValue? 10 s.toList).bind (Status.all[·]?)).getD .unknown

/-! ### The numbers of the codes -/

/-- The code of an index, `UNKNOWN` if there is none. -/
theorem getD_all_eq_unknown {k : Nat} :
    Status.all[k]?.getD .unknown = .unknown ↔ ∀ n ≤ 16, n ≠ 2 → k ≠ n := by
  by_cases hk : k ≤ 16
  · have hall : ∀ k ≤ 16, Status.all[k]?.getD .unknown = .unknown ↔ k = 2 := by decide
    rw [hall k hk]
    constructor
    · intro h n _ hne heq
      exact hne (heq ▸ h)
    · intro h
      by_contra hne
      exact h k hk hne rfl
  · have hnone : Status.all[k]? = none := List.getElem?_eq_none (by simp [Status.all]; omega)
    rw [hnone]
    refine iff_of_true rfl ?_
    intro n hn _ heq
    omega

theorem toIndex?_natCast (n : Nat) : (JsNumber.finite n).toIndex? = some n := by
  simp [JsNumber.toIndex?]

/-- What is rounded up from beyond the codes, or down to them, is not a code. -/
theorem toIndex?_ofRat_of_lt {n : Nat} (hn : 16 < n) {k : Nat}
    (h : (JsNumber.ofRat n).toIndex? = some k) : 16 < k := by
  have hpos : (0 : ℚ) < n := by exact_mod_cast (by omega : 0 < n)
  have hle : ((17 : ℕ) : ℚ) ≤ n := by exact_mod_cast hn
  rcases JsNumber.natCast_le_ofRat hpos (by norm_num) hle with hinf | ⟨r, hr, hbound⟩
  · rw [hinf] at h
    exact absurd h nofun
  · rw [hr] at h
    simp only [JsNumber.toIndex?, Option.ite_none_right_eq_some, Option.some.injEq] at h
    obtain ⟨⟨hden, hnum⟩, rfl⟩ := h
    have hr' : r = r.num := (Rat.den_eq_one_iff r).mp hden |>.symm
    rw [hr'] at hbound
    have : (17 : ℤ) ≤ r.num := by exact_mod_cast hbound
    omega

/-- The index of a number written in digits gives the code that the digits denote. -/
theorem code_of_digits (n : Nat) :
    ((JsNumber.ofRat n).toIndex?.bind (Status.all[·]?)).getD .unknown =
      Status.all[n]?.getD .unknown := by
  by_cases hn : n ≤ 16
  · have hexact : JsNumber.ofRat n = .finite n := by
      have habs : |(n : ℤ)| < 2 ^ 53 := by
        rw [abs_of_nonneg (Int.natCast_nonneg n)]
        omega
      exact_mod_cast JsNumber.ofRat_intCast habs
    rw [hexact, toIndex?_natCast]
    rfl
  · have hnone : ∀ k, 16 < k → Status.all[k]? = none := fun k hk =>
      List.getElem?_eq_none (by simp [Status.all]; omega)
    rw [hnone n (by omega)]
    cases h : (JsNumber.ofRat n).toIndex? with
    | none => rfl
    | some k =>
        rw [Option.bind_some, hnone k (toIndex?_ofRat_of_lt (by omega) h)]

namespace CallStream

/-- The headers, with a `grpc-status`. -/
def withStatus (headers : HeaderObject) (s : String) : HeaderObject :=
  { headers with own := headers.own.put "grpc-status" (.one s) }

/-- A `grpc-status` is not in the way of `hasOwnProperty`. -/
theorem accessible_withStatus (headers : HeaderObject) (s : String) :
    (withStatus headers s).Accessible ↔ headers.Accessible := by
  have hother : (headers.own.put "grpc-status" (.one s)).lookup "hasOwnProperty" =
      headers.own.lookup "hasOwnProperty" := OrderedMap.lookup_put_of_ne _ _ (by decide)
  rw [withStatus, HeaderObject.Accessible, HeaderObject.Accessible, hother]

theorem trailersCode_withStatus (mappedStatusCode : Status) {headers : HeaderObject}
    (h : headers.Accessible) (s : String) :
    trailersCode mappedStatusCode (withStatus headers s) =
      .ok (((JsNumber.ofString s).toIndex?.bind (Status.all[·]?)).getD .unknown) := by
  have hlookup : (withStatus headers s).own.lookup "grpc-status" = some (.one s) :=
    OrderedMap.lookup_put_self _ _ _
  rw [trailersCode, HeaderObject.ownProperty, if_pos ((accessible_withStatus headers s).mpr h),
    hlookup]
  rfl

/-- **When `grpc-status` is read strictly.** For every string, the status has the code that
the strict reading gives if and only if the handler can look for the header, and the string is a
sequence of decimal digits, or `Number` does not make it the number of a code other than
`UNKNOWN`. -/
theorem trailersCode_iff (mappedStatusCode : Status) (headers : HeaderObject) (s : String) :
    trailersCode mappedStatusCode (withStatus headers s) = .ok (strictCode s) ↔
      headers.Accessible ∧ ((∃ n, digitsValue? 10 s.toList = some n) ∨
        ∀ n ≤ 16, n ≠ 2 → (JsNumber.ofString s).toIndex? ≠ some n) := by
  by_cases haccessible : headers.Accessible
  · rw [trailersCode_withStatus _ haccessible, and_iff_right haccessible, Except.ok.injEq, strictCode]
    cases hdigits : digitsValue? 10 s.toList with
    | some n =>
        rw [ofString_digits hdigits, code_of_digits]
        exact iff_of_true rfl (.inl ⟨n, rfl⟩)
    | none =>
        have hnone : ¬ ∃ n, (none : Option Nat) = some n := by simp
        simp only [hnone, false_or]
        show _ = Status.unknown ↔ _
        cases (JsNumber.ofString s).toIndex? with
        | none => exact iff_of_true rfl fun _ _ _ => by simp
        | some k =>
            rw [Option.bind_some, getD_all_eq_unknown]
            simp only [ne_eq, Option.some.injEq]
  · -- The exception leaves the handler before there is a code.
    refine iff_of_false ?_ fun h => haccessible h.1
    rw [trailersCode, HeaderObject.ownProperty,
      if_neg (mt (accessible_withStatus headers s).mp haccessible)]
    intro h
    cases h

/-- An empty `grpc-status` is reported as `OK`. -/
theorem empty_status_is_ok :
    ¬ ∀ s, trailersCode .unknown (withStatus ⟨.empty, true⟩ s) = .ok (strictCode s) := by
  intro h
  exact absurd (h "") (by decide)

end CallStream

end GrpcNode.JsCore
