import GrpcNode.Js.Number
import Mathlib.Algebra.Order.Field.Rat
import Mathlib.Algebra.Order.Field.Power
import Mathlib.Tactic.Linarith
import Mathlib.Tactic.GCongr
import Mathlib.Tactic.NormNum
import Mathlib.Tactic.Ring

/-!
# GrpcNode.Js.Rounding

What rounding to a double keeps.

A positive rational is rounded to a multiple of `2 ^ e`, where `e` depends on its size
(`Rounds`). All that is used of the result is that it never passes a multiple of `2 ^ e`:
this makes rounding monotone with respect to these, and exact for them.
-/

namespace GrpcNode.Js

/-! ### The exponent -/

/-- A power with an integral exponent as a fraction. -/
theorem zpow_eq_div (e : ℤ) : (2 : ℚ) ^ e = 2 ^ e.toNat / 2 ^ (-e).toNat := by
  rcases le_or_gt 0 e with h | h
  · obtain ⟨n, rfl⟩ := Int.eq_ofNat_of_zero_le h
    simp
  · obtain ⟨n, hn⟩ := Int.eq_ofNat_of_zero_le (le_of_lt (neg_pos.mpr h))
    obtain rfl : e = -(n : ℤ) := by omega
    simp

theorem scaled_le_iff {K n d : ℕ} (hd : 0 < d) (e : ℤ) :
    (K : ℚ) * 2 ^ e ≤ n / d ↔ K * (d * 2 ^ e.toNat) ≤ n * 2 ^ (-e).toNat := by
  have hd' : (0 : ℚ) < d := Nat.cast_pos.mpr hd
  have hpow : (0 : ℚ) < 2 ^ (-e).toNat := by positivity
  rw [zpow_eq_div, ← mul_div_assoc, div_le_div_iff₀ hpow hd']
  constructor
  · intro h
    have h' : K * 2 ^ e.toNat * d ≤ n * 2 ^ (-e).toNat := by exact_mod_cast h
    linarith
  · intro h
    have h' : K * 2 ^ e.toNat * d ≤ n * 2 ^ (-e).toNat := by linarith
    exact_mod_cast h'

theorem le_scaled_iff {K n d : ℕ} (hd : 0 < d) (e : ℤ) :
    (n : ℚ) / d ≤ K * 2 ^ e ↔ n * 2 ^ (-e).toNat ≤ K * (d * 2 ^ e.toNat) := by
  have hd' : (0 : ℚ) < d := Nat.cast_pos.mpr hd
  have hpow : (0 : ℚ) < 2 ^ (-e).toNat := by positivity
  rw [zpow_eq_div, ← mul_div_assoc, div_le_div_iff₀ hd' hpow]
  constructor
  · intro h
    have h' : n * 2 ^ (-e).toNat ≤ K * 2 ^ e.toNat * d := by exact_mod_cast h
    linarith
  · intro h
    have h' : n * 2 ^ (-e).toNat ≤ K * 2 ^ e.toNat * d := by linarith
    exact_mod_cast h'

theorem pow_le_iff {n d : ℕ} (hd : 0 < d) (e : ℤ) :
    (2 : ℚ) ^ e ≤ n / d ↔ d * 2 ^ e.toNat ≤ n * 2 ^ (-e).toNat := by
  have h := scaled_le_iff (K := 1) (n := n) hd e
  rwa [Nat.cast_one, one_mul, one_mul] at h

theorem floorLog2_spec {n d : ℕ} (hn : n ≠ 0) (hd : d ≠ 0) :
    (2 : ℚ) ^ floorLog2 n d ≤ n / d ∧ (n : ℚ) / d < 2 ^ (floorLog2 n d + 1) := by
  have hd' : (0 : ℚ) < d := Nat.cast_pos.mpr (Nat.pos_of_ne_zero hd)
  have hn₁ : (2 : ℚ) ^ n.log2 ≤ n := by exact_mod_cast Nat.log2_self_le hn
  have hn₂ : (n : ℚ) < 2 ^ (n.log2 + 1) := by exact_mod_cast Nat.lt_log2_self
  have hd₁ : (2 : ℚ) ^ d.log2 ≤ d := by exact_mod_cast Nat.log2_self_le hd
  have hd₂ : (d : ℚ) < 2 ^ (d.log2 + 1) := by exact_mod_cast Nat.lt_log2_self
  have hpow : ∀ k : ℕ, (0 : ℚ) < 2 ^ k := fun k => by positivity
  unfold floorLog2
  dsimp only
  split
  · rename_i h
    refine ⟨(pow_le_iff (Nat.pos_of_ne_zero hd) _).mpr h, ?_⟩
    · -- The numerator is below its next power, the denominator not below its own.
      have hexp : (n.log2 : ℤ) - d.log2 + 1 = ((n.log2 + 1 : ℕ) : ℤ) - (d.log2 : ℕ) := by
        push_cast
        ring
      rw [hexp, zpow_sub₀ two_ne_zero, zpow_natCast, zpow_natCast]
      exact div_lt_div₀ hn₂ hd₁ (hpow _).le (hpow _)
  · rename_i h
    refine ⟨?_, ?_⟩
    · have hexp : (n.log2 : ℤ) - d.log2 - 1 = ((n.log2 : ℕ) : ℤ) - ((d.log2 + 1 : ℕ) : ℤ) := by
        push_cast
        ring
      rw [hexp, zpow_sub₀ two_ne_zero, zpow_natCast, zpow_natCast]
      exact div_le_div₀ (Nat.cast_nonneg _) hn₁ hd' hd₂.le
    · rw [sub_add_cancel]
      exact lt_of_not_ge fun hge => h ((pow_le_iff (Nat.pos_of_ne_zero hd) _).mp hge)

/-! ### The multiple -/

theorem le_roundHalfEven {K n d : ℕ} (hd : 0 < d) (h : K * d ≤ n) : K ≤ roundHalfEven n d := by
  have hfloor : K ≤ n / d := (Nat.le_div_iff_mul_le hd).mpr h
  unfold roundHalfEven
  dsimp only
  split
  · exact hfloor
  · split <;> omega

theorem roundHalfEven_le {K n d : ℕ} (hd : 0 < d) (h : n ≤ K * d) : roundHalfEven n d ≤ K := by
  have hfloor : n / d ≤ K := Nat.div_le_of_le_mul (by rwa [mul_comm])
  rcases hfloor.eq_or_lt with heq | hlt
  · -- Then nothing is left over.
    have hmod : n % d = 0 := by
      have hdiv := Nat.div_add_mod n d
      rw [heq, mul_comm] at hdiv
      omega
    unfold roundHalfEven
    rw [hmod]
    simp [hd, heq]
  · unfold roundHalfEven
    dsimp only
    split
    · omega
    · split <;> omega

/-- The positive rational `q` is rounded to `m * 2 ^ e`. -/
structure Rounds (q : ℚ) (e : ℤ) (m : ℕ) : Prop where
  lower : e = -1074 ∨ (2 : ℚ) ^ (e + 52) ≤ q
  upper : q < 2 ^ (e + 53)
  min_exponent : -1074 ≤ e
  le_mul {K : ℕ} : (K : ℚ) * 2 ^ e ≤ q → K ≤ m
  mul_le {K : ℕ} : q ≤ K * 2 ^ e → m ≤ K

/-- **Rounding**: infinity, or a multiple of `2 ^ e`, which is a zero with the sign if it is
zero. -/
theorem ofRatio_rounds (negative : Bool) {n d : ℕ} (hn : n ≠ 0) (hd : d ≠ 0) :
    ∃ e m, Rounds (n / d) e m ∧
      (2 ^ 1024 ≤ m * 2 ^ e.toNat ∧ JsNumber.ofRatio negative n d = .infinity negative ∨
        m = 0 ∧ JsNumber.ofRatio negative n d = .zero negative ∨
        JsNumber.ofRatio negative n d =
          .finite (if negative then -((m : ℚ) * 2 ^ e) else m * 2 ^ e)) := by
  have hd' : 0 < d := Nat.pos_of_ne_zero hd
  obtain ⟨hlower, hupper⟩ := floorLog2_spec hn hd
  generalize he : max (floorLog2 n d - 52) (-1074) = e
  have hscale : 0 < d * 2 ^ e.toNat := by positivity
  refine ⟨e, roundHalfEven (n * 2 ^ (-e).toNat) (d * 2 ^ e.toNat), ⟨?_, ?_, ?_, ?_, ?_⟩, ?_⟩
  · rcases max_choice (floorLog2 n d - 52) (-1074) with hmax | hmax
    · right
      rw [← he, hmax, sub_add_cancel]
      exact hlower
    · exact .inl (he.symm.trans hmax)
  · refine hupper.trans_le (zpow_le_zpow_right₀ one_le_two ?_)
    have := le_max_left (floorLog2 n d - 52) (-1074)
    omega
  · rw [← he]
    exact le_max_right _ _
  · intro K h
    exact le_roundHalfEven hscale ((scaled_le_iff hd' e).mp h)
  · intro K h
    exact roundHalfEven_le hscale ((le_scaled_iff hd' e).mp h)
  · unfold JsNumber.ofRatio
    simp only [he]
    generalize roundHalfEven (n * 2 ^ (-e).toNat) (d * 2 ^ e.toNat) = m
    by_cases hm : m = 0
    · exact .inr (.inl ⟨hm, if_pos (.inr hm)⟩)
    · rw [if_neg (by simp [hn, hm])]
      split
      · rename_i hbig
        exact .inl ⟨hbig, rfl⟩
      · refine .inr (.inr ?_)
        have hvalue : mkRat ((m * 2 ^ e.toNat : ℕ) : ℤ) (2 ^ (-e).toNat) = (m : ℚ) * 2 ^ e := by
          rw [Rat.mkRat_eq_div, zpow_eq_div]
          push_cast
          ring
        rw [← hvalue]
        cases negative <;> simp

namespace Rounds

variable {q : ℚ} {e : ℤ} {m : ℕ}

theorem exponent_lt (h : Rounds q e m) {j : ℤ} (hj : -1022 < j) (hq : q < 2 ^ j) : e + 52 < j := by
  rcases h.lower with rfl | hlower
  · omega
  · exact (zpow_lt_zpow_iff_right₀ one_lt_two).mp (hlower.trans_lt hq)

theorem mantissa_le (h : Rounds q e m) : m ≤ 2 ^ 53 := by
  refine h.mul_le ?_
  have hupper := h.upper.le
  rw [zpow_add₀ two_ne_zero, mul_comm] at hupper
  exact_mod_cast hupper

/-- Only large numbers are rounded to infinity. -/
theorem exponent_pos (h : Rounds q e m) {k : ℕ} (hk : 53 < k) (hbig : 2 ^ k ≤ m * 2 ^ e.toNat) :
    0 < e := by
  by_contra he
  rw [Int.toNat_of_nonpos (not_lt.mp he), pow_zero, mul_one] at hbig
  have hexp := (Nat.pow_le_pow_iff_right one_lt_two).mp (hbig.trans h.mantissa_le)
  omega

/-- The multiples of larger powers are multiples. -/
theorem scaled_eq {j : ℤ} (he : e ≤ j) (K : ℕ) :
    (K : ℚ) * 2 ^ j = ((K * 2 ^ (j - e).toNat : ℕ) : ℚ) * 2 ^ e := by
  have hsplit : (2 : ℚ) ^ j = 2 ^ (j - e).toNat * 2 ^ e := by
    rw [← zpow_natCast, Int.toNat_of_nonneg (by omega), ← zpow_add₀ two_ne_zero, sub_add_cancel]
  rw [hsplit]
  push_cast
  ring

theorem le_scaled (h : Rounds q e m) {j : ℤ} (he : e ≤ j) {K : ℕ} (hq : q ≤ K * 2 ^ j) :
    (m : ℚ) * 2 ^ e ≤ K * 2 ^ j := by
  rw [scaled_eq he K] at hq ⊢
  have hm : m ≤ K * 2 ^ (j - e).toNat := h.mul_le hq
  gcongr

theorem scaled_le (h : Rounds q e m) {j : ℤ} (he : e ≤ j) {K : ℕ} (hq : (K : ℚ) * 2 ^ j ≤ q) :
    (K : ℚ) * 2 ^ j ≤ m * 2 ^ e := by
  rw [scaled_eq he K] at hq ⊢
  have hm : K * 2 ^ (j - e).toNat ≤ m := h.le_mul hq
  gcongr

/-- The bound is a multiple of the large powers, too. -/
theorem natCast_le_of_le (h : Rounds q e m) {k : ℕ} (hk : k ≤ 2 ^ 53) (hq : (k : ℚ) ≤ q) :
    (k : ℚ) ≤ m * 2 ^ e := by
  rcases le_or_gt e 0 with he | he
  · have hscaled := h.scaled_le (K := k) he (by rwa [zpow_zero, mul_one])
    rwa [zpow_zero, mul_one] at hscaled
  · have hlower : (2 : ℚ) ^ (e + 52) ≤ q := h.lower.resolve_left (by omega)
    rw [zpow_add₀ two_ne_zero, mul_comm] at hlower
    have hm : 2 ^ 52 ≤ m := h.le_mul (by exact_mod_cast hlower)
    have htwo : (2 : ℚ) ^ (1 : ℤ) ≤ 2 ^ e := zpow_le_zpow_right₀ one_le_two he
    calc (k : ℚ) ≤ 2 ^ 52 * 2 ^ (1 : ℤ) := by
          rw [zpow_one]
          exact_mod_cast hk
      _ ≤ m * 2 ^ e := by
          gcongr
          exact_mod_cast hm

/-- A double is not rounded. -/
theorem eq_of_double (h : Rounds q e m) {K : ℕ} {j : ℤ} (hq : q = K * 2 ^ j) (hK : K < 2 ^ 53)
    (hj : -1074 ≤ j) : (m : ℚ) * 2 ^ e = q := by
  have hle : e ≤ j := by
    rcases h.lower with rfl | hlower
    · exact hj
    · have hlt : q < 2 ^ (j + 53) := by
        rw [hq, zpow_add₀ two_ne_zero, mul_comm]
        gcongr
        exact_mod_cast hK
      have hexp := (zpow_lt_zpow_iff_right₀ one_lt_two).mp (hlower.trans_lt hlt)
      omega
  rw [hq] at h ⊢
  exact le_antisymm (h.le_scaled hle le_rfl) (h.scaled_le hle le_rfl)

end Rounds

/-! ### The double nearest to a rational -/

namespace JsNumber

theorem ofRat_zero : ofRat 0 = finite 0 := by decide +kernel

theorem ofRat_of_pos {q : ℚ} (hq : 0 < q) : ∃ e m, Rounds q e m ∧
    (0 < e ∧ ofRat q = infinity false ∨ ofRat q = finite (m * 2 ^ e)) := by
  have hnum : q.num.natAbs ≠ 0 := by simpa using hq.ne'
  obtain ⟨e, m, hrounds, hvalue⟩ := ofRatio_rounds false hnum q.den_nz
  have habs : ((q.num.natAbs : ℕ) : ℚ) / q.den = q := by
    rw [Nat.cast_natAbs, abs_of_pos (Rat.num_pos.mpr hq), Rat.num_div_den]
  rw [habs] at hrounds
  rw [ofRat, decide_eq_false (not_lt.mpr hq.le)]
  refine ⟨e, m, hrounds, ?_⟩
  rcases hvalue with ⟨hbig, hvalue⟩ | ⟨rfl, hvalue⟩ | hvalue
  · exact .inl ⟨hrounds.exponent_pos (by decide) hbig, hvalue⟩
  · right
    rw [hvalue, Nat.cast_zero, zero_mul]
    rfl
  · exact .inr hvalue

theorem ofRat_of_neg {q : ℚ} (hq : q < 0) : ∃ e m, Rounds (-q) e m ∧
    (0 < e ∧ ofRat q = infinity true ∨ m = 0 ∧ ofRat q = negZero ∨
      ofRat q = finite (-(m * 2 ^ e))) := by
  have hnum : q.num.natAbs ≠ 0 := by simpa using hq.ne
  obtain ⟨e, m, hrounds, hvalue⟩ := ofRatio_rounds true hnum q.den_nz
  have habs : ((q.num.natAbs : ℕ) : ℚ) / q.den = -q := by
    rw [Nat.cast_natAbs, abs_of_neg (Rat.num_neg.mpr hq), Int.cast_neg, neg_div, Rat.num_div_den]
  rw [habs] at hrounds
  rw [ofRat, decide_eq_true hq]
  refine ⟨e, m, hrounds, ?_⟩
  rcases hvalue with ⟨hbig, hvalue⟩ | hzero | hvalue
  · exact .inl ⟨hrounds.exponent_pos (by decide) hbig, hvalue⟩
  · exact .inr (.inl hzero)
  · exact .inr (.inr hvalue)

/-- Rounding does not pass a natural number below `2 ^ 53` on the way up, -/
theorem ofRat_le_natCast {q : ℚ} (hq : 0 < q) {k : ℕ} (hk : k < 2 ^ 53) (h : q ≤ k) :
    ∃ r, ofRat q = finite r ∧ 0 ≤ r ∧ r ≤ k := by
  obtain ⟨e, m, hrounds, hvalue⟩ := ofRat_of_pos hq
  have hlt : q < 2 ^ (53 : ℤ) := h.trans_lt (by exact_mod_cast hk)
  have he := hrounds.exponent_lt (by decide) hlt
  rcases hvalue with ⟨hpos, -⟩ | hvalue
  · omega
  · have hscaled := hrounds.le_scaled (j := 0) (K := k) (by omega) (by rwa [zpow_zero, mul_one])
    rw [zpow_zero, mul_one] at hscaled
    exact ⟨_, hvalue, by positivity, hscaled⟩

/-- and on the way down. -/
theorem natCast_le_ofRat {q : ℚ} (hq : 0 < q) {k : ℕ} (hk : k ≤ 2 ^ 53) (h : (k : ℚ) ≤ q) :
    ofRat q = infinity false ∨ ∃ r, ofRat q = finite r ∧ (k : ℚ) ≤ r := by
  obtain ⟨e, m, hrounds, hvalue⟩ := ofRat_of_pos hq
  rcases hvalue with ⟨-, hvalue⟩ | hvalue
  · exact .inl hvalue
  · exact .inr ⟨_, hvalue, hrounds.natCast_le_of_le hk h⟩

/-- Between two natural numbers below `2 ^ 27`, a number that is away from both by `2 ^ -26`
is rounded to a number between them. -/
theorem ofRat_between {q : ℚ} {k : ℕ} (hk : k < 2 ^ 27) (hlow : (k : ℚ) + 2 ^ (-26 : ℤ) ≤ q)
    (hhigh : q ≤ (k : ℚ) + 1 - 2 ^ (-26 : ℤ)) :
    ∃ r, ofRat q = finite r ∧ (k : ℚ) < r ∧ r < (k : ℚ) + 1 := by
  have hstep : (0 : ℚ) < 2 ^ (-26 : ℤ) := by positivity
  have hnonneg : (0 : ℚ) ≤ k := Nat.cast_nonneg k
  obtain ⟨e, m, hrounds, hvalue⟩ := ofRat_of_pos (q := q) (by linarith)
  have hlt : q < 2 ^ (27 : ℤ) := by
    have hk' : (k : ℚ) + 1 ≤ 2 ^ (27 : ℤ) := by exact_mod_cast hk
    linarith
  have he := hrounds.exponent_lt (by decide) hlt
  have hfirst : ((k * 2 ^ 26 + 1 : ℕ) : ℚ) * 2 ^ (-26 : ℤ) = k + 2 ^ (-26 : ℤ) := by
    push_cast
    norm_num
    ring
  have hlast : ((k * 2 ^ 26 + 67108863 : ℕ) : ℚ) * 2 ^ (-26 : ℤ) = k + 1 - 2 ^ (-26 : ℤ) := by
    push_cast
    norm_num
    ring
  have hbelow := hrounds.scaled_le (j := -26) (by omega) (hfirst.trans_le hlow)
  have habove := hrounds.le_scaled (j := -26) (by omega) (hhigh.trans_eq hlast.symm)
  rw [hfirst] at hbelow
  rw [hlast] at habove
  rcases hvalue with ⟨hpos, -⟩ | hvalue
  · omega
  · exact ⟨_, hvalue, by linarith, by linarith⟩

/-- A double below `2 ^ 53` is not rounded. -/
theorem ofRat_of_double {q : ℚ} {K : ℕ} {j : ℤ} (hq : |q| = K * 2 ^ j) (hK : K < 2 ^ 53)
    (hj : -1074 ≤ j) (hsmall : |q| < 2 ^ 53) : ofRat q = finite q := by
  rcases lt_trichotomy q 0 with hneg | rfl | hpos
  · rw [abs_of_neg hneg] at hq hsmall
    obtain ⟨e, m, hrounds, hvalue⟩ := ofRat_of_neg hneg
    have he := hrounds.exponent_lt (j := 53) (by decide) (by exact_mod_cast hsmall)
    have hexact := hrounds.eq_of_double hq hK hj
    rcases hvalue with ⟨hpos, -⟩ | ⟨rfl, -⟩ | hvalue
    · omega
    · rw [Nat.cast_zero, zero_mul] at hexact
      exact absurd (neg_eq_zero.mp hexact.symm) hneg.ne
    · rw [hvalue, hexact, neg_neg]
  · exact ofRat_zero
  · rw [abs_of_pos hpos] at hq hsmall
    obtain ⟨e, m, hrounds, hvalue⟩ := ofRat_of_pos hpos
    have he := hrounds.exponent_lt (j := 53) (by decide) (by exact_mod_cast hsmall)
    rcases hvalue with ⟨hpos, -⟩ | hvalue
    · omega
    · rw [hvalue, hrounds.eq_of_double hq hK hj]

theorem ofRat_intCast {z : ℤ} (hz : |z| < 2 ^ 53) : ofRat z = finite z := by
  have habs : |(z : ℚ)| = (z.natAbs : ℚ) := by rw [Nat.cast_natAbs, Int.cast_abs]
  have hsmall : z.natAbs < 2 ^ 53 := by
    rw [Int.abs_eq_natAbs] at hz
    exact_mod_cast hz
  refine ofRat_of_double (K := z.natAbs) (j := 0) (by rw [habs, zpow_zero, mul_one]) hsmall
    (by decide) ?_
  rw [habs]
  exact_mod_cast hsmall

/-- A negative number beyond `-2 ^ 53` stays there. -/
theorem ofRat_le_neg {q : ℚ} (h : q ≤ -2 ^ 53) :
    ofRat q = infinity true ∨ ∃ r, ofRat q = finite r ∧ r ≤ -2 ^ 53 := by
  have hneg : q < 0 := h.trans_lt (by norm_num)
  obtain ⟨e, m, hrounds, hvalue⟩ := ofRat_of_neg hneg
  have hm : ((2 ^ 53 : ℕ) : ℚ) ≤ m * 2 ^ e :=
    hrounds.natCast_le_of_le le_rfl (by push_cast; linarith)
  rcases hvalue with ⟨-, hvalue⟩ | ⟨rfl, -⟩ | hvalue
  · exact .inl hvalue
  · rw [Nat.cast_zero, zero_mul] at hm
    exact absurd hm (by norm_num)
  · refine .inr ⟨_, hvalue, ?_⟩
    push_cast at hm
    linarith

/-! ### `String(n)` of a small natural number -/

theorem ofRatio_one (n : ℕ) : ofRatio false n 1 = ofRat n := by
  rw [ofRat, decide_eq_false (by simp)]
  simp

end JsNumber

/-- No other number below has the same double. -/
theorem shortest_eq {n : ℕ} (hn : n < 2 ^ 53) : shortest n = n := by
  unfold shortest
  dsimp only
  generalize List.map _ _ = candidates
  cases hfind : candidates.find? _ with
  | none => rfl
  | some w =>
      have hw := List.find?_some hfind
      rw [decide_eq_true_iff, JsNumber.ofRatio_one] at hw
      by_cases hsmall : w < 2 ^ 53
      · have hint := JsNumber.ofRat_intCast (z := w) (by rw [Nat.abs_cast]; exact_mod_cast hsmall)
        rw [Int.cast_natCast, hw] at hint
        exact_mod_cast (JsNumber.finite.inj hint).symm
      · have hbig : ((2 ^ 53 : ℕ) : ℚ) ≤ w := by exact_mod_cast not_lt.mp hsmall
        have hpos : (0 : ℚ) < w := lt_of_lt_of_le (by norm_num) hbig
        rcases JsNumber.natCast_le_ofRat hpos le_rfl hbig with hinf | ⟨r, hr, hle⟩
        · rw [hw] at hinf
          exact absurd hinf nofun
        · rw [hw] at hr
          rw [← JsNumber.finite.inj hr] at hle
          exact absurd (by exact_mod_cast hle) (not_le.mpr hn)

/-- The digits of a small number are written out. -/
theorem naturalText_eq {n : ℕ} (hn : n < 2 ^ 53) : naturalText n = toString n := by
  have hlength : (toString n).length ≤ 21 := by
    rw [Nat.toString_eq_ofList_toDigits, String.length_ofList,
      Nat.length_toDigits_le_iff (by decide) (by decide)]
    omega
  unfold naturalText
  rw [shortest_eq hn]
  exact if_pos hlength

end GrpcNode.Js
