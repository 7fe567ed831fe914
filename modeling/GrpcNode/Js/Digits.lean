import GrpcNode.Js.Rounding
import Mathlib.Data.List.TakeWhile

/-!
# GrpcNode.Js.Digits

`Number(s)` of a sequence of decimal digits: the double nearest to the number that they
denote. Neither the white space nor the prefixes, signs, fractions and exponents of the
grammar of `Number` play a part in it.
-/

namespace GrpcNode.Js

theorem isDigit_iff {c : Char} : c.isDigit = true ↔ 48 ≤ c.toNat ∧ c.toNat ≤ 57 := by
  simp [Char.isDigit, UInt32.le_iff_toNat_le]

theorem isDigit_of_digitValue? {c : Char} {v : Nat} (h : digitValue? 10 c = some v) :
    c.isDigit = true := by
  rw [isDigit_iff]
  unfold digitValue? at h
  dsimp only at h
  split_ifs at h with hdigit
  · simpa [Char.le_def, UInt32.le_iff_toNat_le] using hdigit
  all_goals omega

theorem isDigit_of_foldlM {cs : List Char} {v n : Nat}
    (h : cs.foldlM (fun v c => (digitValue? 10 c).map (10 * v + ·)) v = some n) :
    ∀ c ∈ cs, c.isDigit = true := by
  induction cs generalizing v with
  | nil => simp
  | cons c cs ih =>
      rw [List.foldlM_cons] at h
      obtain ⟨w, hw, hrest⟩ := Option.bind_eq_some_iff.mp h
      obtain ⟨d, hd, -⟩ := Option.map_eq_some_iff.mp hw
      exact List.forall_mem_cons.mpr ⟨isDigit_of_digitValue? hd, ih hrest⟩

/-- What has a value in base ten is a non-empty sequence of digits. -/
theorem digits_of_digitsValue? {cs : List Char} {n : Nat} (h : digitsValue? 10 cs = some n) :
    cs ≠ [] ∧ ∀ c ∈ cs, c.isDigit = true := by
  unfold digitsValue? at h
  split_ifs at h with hnil
  exact ⟨hnil, isDigit_of_foldlM h⟩

theorem not_isWhiteSpace {c : Char} (h : c.isDigit = true) : isWhiteSpace c = false := by
  have hrange := isDigit_iff.mp h
  simp only [isWhiteSpace, List.contains_eq_mem, List.mem_cons, List.not_mem_nil, or_false,
    Bool.or_eq_false_iff, Bool.and_eq_false_iff, decide_eq_false_iff_not]
  omega

theorem dropWhile_isWhiteSpace {cs : List Char} (h : ∀ c ∈ cs, c.isDigit = true) :
    cs.dropWhile isWhiteSpace = cs := by
  cases cs with
  | nil => rfl
  | cons c cs => simp [not_isWhiteSpace (h c List.mem_cons_self)]

theorem trim_digits {cs : List Char} (h : ∀ c ∈ cs, c.isDigit = true) : trim cs = cs := by
  rw [trim, dropWhile_isWhiteSpace h, dropWhile_isWhiteSpace (by simpa using h),
    List.reverse_reverse]

/-- A sequence of digits is a decimal literal without fraction and exponent. -/
theorem unsignedDecimal_digits {cs : List Char} {n : Nat} (h : digitsValue? 10 cs = some n) :
    unsignedDecimal false cs = .ofRatio false n 1 := by
  obtain ⟨hne, hdigits⟩ := digits_of_digitsValue? h
  have hinfinity : cs ≠ "Infinity".toList := by
    intro heq
    exact absurd (hdigits 'I' (by rw [heq]; simp)) (by decide)
  have htake : cs.takeWhile Char.isDigit = cs := List.takeWhile_eq_self_iff.mpr hdigits
  have hdrop : cs.dropWhile Char.isDigit = [] := List.dropWhile_eq_nil_iff.mpr hdigits
  rw [unsignedDecimal, if_neg hinfinity]
  simp only [htake, hdrop, List.append_nil, h, exponent?]
  simp

theorem ofString_digits {s : String} {n : Nat} (h : digitsValue? 10 s.toList = some n) :
    JsNumber.ofString s = .ofRat n := by
  obtain ⟨hne, hdigits⟩ := digits_of_digitsValue? h
  rw [← JsNumber.ofRatio_one, ← unsignedDecimal_digits h]
  unfold JsNumber.ofString
  rw [trim_digits hdigits]
  generalize s.toList = cs at hne hdigits
  -- No digit is a sign, and the second character is not the letter of a base.
  have hsecond : ∀ c d ds, cs = c :: d :: ds → d.isDigit = true := by
    intro c d ds hcs
    exact hdigits d (by rw [hcs]; simp)
  have hfirst : ∀ c ds, cs = c :: ds → c.isDigit = true := by
    intro c ds hcs
    exact hdigits c (by rw [hcs]; simp)
  split
  · exact absurd rfl hne
  · exact absurd (hsecond _ _ _ rfl) (by decide)
  · exact absurd (hsecond _ _ _ rfl) (by decide)
  · exact absurd (hsecond _ _ _ rfl) (by decide)
  · exact absurd (hsecond _ _ _ rfl) (by decide)
  · exact absurd (hsecond _ _ _ rfl) (by decide)
  · exact absurd (hsecond _ _ _ rfl) (by decide)
  · exact absurd (hfirst _ _ rfl) (by decide)
  · exact absurd (hfirst _ _ rfl) (by decide)
  · rfl

end GrpcNode.Js
