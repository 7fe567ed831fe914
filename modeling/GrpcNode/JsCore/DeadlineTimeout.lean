import GrpcNode.Js.Rounding
import GrpcNode.JsCore.Filters

/-!
# GrpcNode.JsCore.DeadlineTimeout

The `grpc-timeout` header that `DeadlineFilter.sendMetadata` sets.

The header is well formed if it is at most eight digits and a unit. The unit is the first one
in which the time that is left is below `10 ^ 8`, and then the number is rounded up: between
`99999999` and `10 ^ 8` of a unit it has nine digits. A time that is over has a sign, and one
that is too long has no text at all (`timelyHeader_iff`).

The divisions are exact here; `timeoutString_eq_exact` says that the divisions of doubles give
the same text.
-/

namespace GrpcNode.Js.JsNumber

/-- `x / d`, for `0 < d`, without the rounding. -/
def quotient : JsNumber → Nat → JsNumber
  | finite q, d => finite (q / d)
  | x, _ => x

end GrpcNode.Js.JsNumber

namespace GrpcNode.JsCore

open GrpcNode.Js

/-! ### The header, and what it should say -/

/-- The text that `timeoutMs` gives, with exact divisions. -/
def timeoutText (timeoutMs : JsNumber) : Option String :=
  units.findSome? fun (unit, factor) =>
    let amount := timeoutMs.quotient factor
    if amount.lt (10 ^ 8) then some (amount.ceil.toText ++ unit) else none

/-- `DeadlineFilter.sendMetadata`, where `await metadata` gives `finalMetadata` and the
channel is connected at the time `now`; `none` if the promise stays pending. -/
def DeadlineFilter.sendMetadata (deadline : JsNumber) (now : Int) (finalMetadata : Metadata) :
    Option (Except JsError Metadata) :=
  if deadline = noDeadline then some (.ok finalMetadata)
  else (timeoutText (deadline.sub now)).map (DeadlineFilter.setTimeout finalMetadata)

/-- The time values of a `Date` are integral. -/
def IsTime (time : Int) : Prop := |time| ≤ 8640000000000000

/-- The deadlines that a call can have: any `Date`, an integral number, or `-Infinity`. -/
def Deadline.Admitted : Deadline → Prop
  | .date time => time = .nan ∨ ∃ z : ℤ, time = .finite z ∧ IsTime z
  | .number value => value = .infinity true ∨ value = .negZero ∨ ∃ z : ℤ, value = .finite z

/-- The text is 1 to 8 digits and a unit. -/
def Denotes (s : String) (value factor : ℕ) : Prop :=
  ∃ u ∈ units, ∃ digits : List Char, s = String.ofList digits ++ u.1 ∧ digits ≠ [] ∧
    digits.length ≤ 8 ∧ (∀ c ∈ digits, c.isDigit) ∧ value = Nat.ofDigitChars 10 digits 0 ∧
    factor = u.2

/-- `max(0, deadline - now)`, if this is a finite number. -/
def remaining : JsNumber → Int → Option ℚ
  | .nan, _ | .infinity false, _ => none
  | .infinity true, _ => some 0
  | .negZero, now => some (max 0 (-now))
  | .finite q, now => some (max 0 (q - now))

/-- `sendMetadata` resolves, and the header is well formed and denotes the time that is left,
rounded up. -/
def TimelyHeader (deadline : JsNumber) (now : Int) (m : Metadata) : Prop :=
  ∃ m' s value factor r, DeadlineFilter.sendMetadata deadline now m = some (.ok m') ∧
    m'.values "grpc-timeout" = [.string s] ∧ Denotes s value factor ∧
    remaining deadline now = some r ∧ r ≤ value * factor ∧ (value * factor : ℚ) < r + factor

/-- The time is not over, there is a unit for it, and it is not among the last milliseconds
before the next unit. -/
structure Fits (timeoutMs : ℤ) : Prop where
  nonneg : 0 ≤ timeoutMs
  lt : timeoutMs < 10 ^ 8 * 3600000
  gap : ∀ u ∈ units, timeoutMs ≤ 99999999 * u.2 ∨ 10 ^ 8 * u.2 ≤ timeoutMs

/-! ### Well-formed texts -/

theorem denotes_toString_iff {u : String × ℕ} (hu : u ∈ units) {k value factor : ℕ} :
    Denotes (toString k ++ u.1) value factor ↔ k < 10 ^ 8 ∧ value = k ∧ factor = u.2 := by
  have hlength : ∀ v ∈ units, v.1.toList.length = 1 := by decide
  have hinj : ∀ v ∈ units, ∀ w ∈ units, v.1.toList = w.1.toList → v = w := by decide
  have hdigits : (toString k).toList = Nat.toDigits 10 k := by
    rw [Nat.toString_eq_ofList_toDigits, String.toList_ofList]
  constructor
  · rintro ⟨v, hv, digits, htext, -, hlen, -, rfl, rfl⟩
    have hlist := congrArg String.toList htext
    rw [String.toList_append, String.toList_append, String.toList_ofList, hdigits] at hlist
    -- The units have one character each, so that the digits are the same.
    obtain ⟨hsame, hunit⟩ := List.append_inj' hlist ((hlength u hu).trans (hlength v hv).symm)
    obtain rfl := hinj u hu v hv hunit
    rw [← hsame] at hlen ⊢
    refine ⟨?_, Nat.ofDigitChars_ten_toDigits, rfl⟩
    exact (Nat.length_toDigits_le_iff (by decide) (by decide)).mp hlen
  · rintro ⟨hk, hvalue, hfactor⟩
    refine ⟨u, hu, Nat.toDigits 10 k, ?_, Nat.toDigits_ne_nil, ?_, ?_, ?_, hfactor⟩
    · rw [Nat.toString_eq_ofList_toDigits]
    · exact (Nat.length_toDigits_le_iff (by decide) (by decide)).mpr hk
    · exact fun c hc => Nat.isDigit_of_mem_toDigits (by decide) (by decide) hc
    · rw [hvalue, Nat.ofDigitChars_ten_toDigits]

/-- A sign is no digit. -/
theorem not_denotes_minus {s : String} {value factor : ℕ} : ¬ Denotes ("-" ++ s) value factor := by
  rintro ⟨v, hv, digits, htext, hne, -, hdigits, -, -⟩
  have hlist := congrArg String.toList htext
  rw [String.toList_append, String.toList_append] at hlist
  cases digits with
  | nil => exact hne rfl
  | cons c cs =>
      rw [String.toList_ofList, String.toList_ofList] at hlist
      have hc : '-' = c := (List.cons.inj hlist).1
      exact absurd (hdigits c (.head _)) (by rw [← hc]; decide)

/-! ### The text of a time -/

theorem ceil_toText {q : ℚ} {k : ℕ} (hk : k < 2 ^ 53) (hq : 0 ≤ q) (hle : q ≤ k)
    (hlt : (k : ℚ) < q + 1) : (JsNumber.finite q).ceil.toText = toString k := by
  have hceil : q.ceil = k := by
    refine le_antisymm (Rat.ceil_le_iff.mpr (by exact_mod_cast hle)) ?_
    have h : ((k : ℤ) - 1) < q.ceil := Rat.lt_ceil_iff.mpr (by push_cast; linarith)
    omega
  have hnum : ((k : ℤ) : ℚ).num.natAbs = k := by rw [Rat.num_intCast, Int.natAbs_natCast]
  have hnonneg : ¬ (((k : ℤ) : ℚ) < 0) := by simp
  rw [JsNumber.ceil, if_neg (fun h => absurd h.1 (not_lt.mpr hq)), hceil, JsNumber.toText,
    if_neg hnonneg, hnum, naturalText_eq hk, String.empty_append]

/-- Division that is rounded up. -/
theorem ceilDiv_spec (t : ℕ) {d : ℕ} (hd : 0 < d) :
    t ≤ (t + d - 1) / d * d ∧ (t + d - 1) / d * d < t + d := by
  have hle := Nat.div_mul_le_self (t + d - 1) d
  have hlt := Nat.lt_div_mul_add (a := t + d - 1) hd
  omega

theorem unit_pos {u : String × ℕ} (hu : u ∈ units) : 0 < u.2 := by
  have hunits : ∀ u ∈ units, 0 < u.2 := by decide
  exact hunits u hu

theorem ceilDiv_lt {t : ℕ} {u : String × ℕ} (hu : u ∈ units) (ht : t < 10 ^ 8 * u.2) :
    (t + u.2 - 1) / u.2 < 10 ^ 8 + 1 := by
  have hpos := unit_pos hu
  refine Nat.div_lt_of_lt_mul ?_
  rw [mul_add, mul_one, mul_comm]
  omega

theorem quotient_lt_iff (t : ℕ) {u : String × ℕ} (hu : u ∈ units) :
    ((JsNumber.finite t).quotient u.2).lt (10 ^ 8) = true ↔ t < 10 ^ 8 * u.2 := by
  have hpos : (0 : ℚ) < u.2 := by exact_mod_cast unit_pos hu
  simp only [JsNumber.quotient, JsNumber.lt, decide_eq_true_iff, div_lt_iff₀ hpos]
  exact_mod_cast Iff.rfl

theorem quotient_ceil_toText {t : ℕ} {u : String × ℕ} (hu : u ∈ units) (ht : t < 10 ^ 8 * u.2) :
    ((JsNumber.finite t).quotient u.2).ceil.toText = toString ((t + u.2 - 1) / u.2) := by
  have hpos := unit_pos hu
  have hcast : (0 : ℚ) < u.2 := by exact_mod_cast hpos
  have hbound := ceilDiv_lt hu ht
  obtain ⟨hle, hlt⟩ := ceilDiv_spec t hpos
  generalize (t + u.2 - 1) / u.2 = k at hbound hle hlt
  refine ceil_toText (q := (t : ℚ) / u.2) (by omega) (div_nonneg (Nat.cast_nonneg t) hcast.le) ?_ ?_
  · rw [div_le_iff₀ hcast]
    exact_mod_cast hle
  · rw [← sub_lt_iff_lt_add, lt_div_iff₀ hcast, sub_mul, one_mul, sub_lt_iff_lt_add]
    exact_mod_cast hlt

/-- The first unit in which the time is below the limit, and the number of units that it takes. -/
theorem timeoutText_natCast {t : ℕ} {u : String × ℕ}
    (hu : units.find? (fun u => t < 10 ^ 8 * u.2) = some u) :
    timeoutText (.finite t) = some (toString ((t + u.2 - 1) / u.2) ++ u.1) := by
  obtain ⟨hchosen, before, after, hsplit, hbefore⟩ := List.find?_eq_some_iff_append.mp hu
  rw [decide_eq_true_iff] at hchosen
  have hmem : u ∈ units := List.mem_of_find?_eq_some hu
  rw [timeoutText, hsplit, List.findSome?_append, List.findSome?_eq_none_iff.mpr, Option.none_or,
    List.findSome?_cons]
  · dsimp only
    rw [if_pos ((quotient_lt_iff t hmem).mpr hchosen), quotient_ceil_toText hmem hchosen]
  · intro v hv
    have hv' : v ∈ units := by
      rw [hsplit]
      exact List.mem_append_left _ hv
    have hlarge := hbefore v hv
    rw [Bool.not_eq_true', decide_eq_false_iff_not] at hlarge
    exact if_neg fun h => hlarge ((quotient_lt_iff t hv').mp h)

/-- A time that is over has a sign. -/
theorem timeoutText_neg {q : ℚ} (hq : q ≤ -1) : ∃ s, timeoutText (.finite q) = some ("-" ++ s) := by
  have hceil : q.ceil ≤ -1 := Rat.ceil_le_iff.mpr (by exact_mod_cast hq)
  have hneg : ((q.ceil : ℤ) : ℚ) < 0 := by
    have : q.ceil < 0 := by omega
    exact_mod_cast this
  have hlt : (JsNumber.finite q).lt (10 ^ 8) = true := by
    rw [JsNumber.lt, decide_eq_true_iff]
    refine hq.trans_lt ?_
    norm_num
  have htext : (JsNumber.finite q).ceil.toText = "-" ++ naturalText (q.ceil : ℚ).num.natAbs := by
    rw [JsNumber.ceil, if_neg (by omega), JsNumber.toText, if_pos hneg]
  refine ⟨naturalText (q.ceil : ℚ).num.natAbs ++ "m", ?_⟩
  have hone : (JsNumber.finite q).quotient 1 = .finite q := by rw [JsNumber.quotient, Nat.cast_one, div_one]
  rw [timeoutText, units, List.findSome?_cons]
  dsimp only
  rw [hone, if_pos hlt, htext, String.append_assoc]

/-- There is no unit for a long time. -/
theorem timeoutText_large {r : ℚ} (hr : 10 ^ 8 * 3600000 ≤ r) : timeoutText (.finite r) = none := by
  have hunits : ∀ u ∈ units, u.2 ≤ 3600000 := by decide
  refine List.findSome?_eq_none_iff.mpr fun u hu => ?_
  have hcast : (0 : ℚ) < u.2 := by exact_mod_cast unit_pos hu
  have hle : (u.2 : ℚ) ≤ 3600000 := by exact_mod_cast hunits u hu
  dsimp only
  refine if_neg fun h => ?_
  simp only [JsNumber.quotient, JsNumber.lt, decide_eq_true_iff, div_lt_iff₀ hcast] at h
  push_cast at h
  linarith

/-! ### The divisions of doubles -/

/-- A quotient below the limit is rounded to a number of the same unit, which is below it too. -/
theorem ofRat_quotient {t : ℕ} {u : String × ℕ} (hu : u ∈ units) (hlimit : t < 10 ^ 8 * u.2) :
    ∃ r, JsNumber.ofRat (t / u.2) = .finite r ∧ 0 ≤ r ∧ r ≤ ((t + u.2 - 1) / u.2 : ℕ) ∧
      (((t + u.2 - 1) / u.2 : ℕ) : ℚ) < r + 1 ∧ r < 10 ^ 8 := by
  have hpos := unit_pos hu
  have hcast : (0 : ℚ) < u.2 := by exact_mod_cast hpos
  have hunits : ∀ u ∈ units, u.2 ≤ 3600000 := by decide
  have hle := hunits u hu
  obtain ⟨hlek, hltk⟩ := ceilDiv_spec t hpos
  have hbound := ceilDiv_lt hu hlimit
  generalize (t + u.2 - 1) / u.2 = k at hlek hltk hbound
  rcases hlek.eq_or_lt with heq | hlt
  · -- The quotient is the integer `k`, and a double.
    have hexact : (t : ℚ) / u.2 = k := by
      rw [div_eq_iff hcast.ne']
      exact_mod_cast heq
    have hint := JsNumber.ofRat_intCast (z := k) (by rw [Nat.abs_cast]; omega)
    have hk : k < 10 ^ 8 := by
      rw [heq] at hlimit
      exact Nat.lt_of_mul_lt_mul_right hlimit
    refine ⟨k, ?_, Nat.cast_nonneg k, le_rfl, lt_add_one _, by exact_mod_cast hk⟩
    rw [hexact]
    exact_mod_cast hint
  · -- The quotient is between two integers, and far enough from both.
    obtain ⟨j, rfl⟩ : ∃ j, k = j + 1 := by
      cases k with
      | zero => omega
      | succ j => exact ⟨j, rfl⟩
    rw [add_mul, one_mul] at hlt hltk
    have hstep : (2 : ℚ) ^ (-26 : ℤ) * u.2 ≤ 1 := by
      have hunit : (u.2 : ℚ) ≤ 3600000 := by exact_mod_cast hle
      norm_num
      linarith
    have hfirst : (j : ℚ) * u.2 + 1 ≤ t := by exact_mod_cast (show j * u.2 + 1 ≤ t by omega)
    have hlast : (t : ℚ) + 1 ≤ j * u.2 + u.2 := by
      exact_mod_cast (show t + 1 ≤ j * u.2 + u.2 by omega)
    obtain ⟨r, hr, hlow, hhigh⟩ := JsNumber.ofRat_between (q := t / u.2) (k := j) (by omega)
      (by rw [le_div_iff₀ hcast, add_mul]; linarith)
      (by rw [div_le_iff₀ hcast, sub_mul, add_mul, one_mul]; linarith)
    have hk : ((j + 1 : ℕ) : ℚ) ≤ 10 ^ 8 := by exact_mod_cast (show j + 1 ≤ 10 ^ 8 by omega)
    have hj : (0 : ℚ) ≤ j := Nat.cast_nonneg j
    push_cast at hk ⊢
    exact ⟨r, hr, by linarith, hhigh.le, by linarith, by linarith⟩

/-- A quotient that is not below the limit is not rounded to one that is. -/
theorem not_div_lt {t : ℕ} {u : String × ℕ} (hu : u ∈ units) (hlimit : ¬ t < 10 ^ 8 * u.2) :
    ¬ ((JsNumber.finite t).div u.2).lt (10 ^ 8) = true := by
  have hcast : (0 : ℚ) < u.2 := by exact_mod_cast unit_pos hu
  have hlarge : ((10 ^ 8 : ℕ) : ℚ) ≤ t / u.2 := by
    rw [le_div_iff₀ hcast]
    exact_mod_cast not_lt.mp hlimit
  have hq : (0 : ℚ) < t / u.2 := lt_of_lt_of_le (by norm_num) hlarge
  rw [JsNumber.div]
  rcases JsNumber.natCast_le_ofRat hq (by norm_num) hlarge with hinf | ⟨r, hr, hrle⟩
  · rw [hinf]
    exact nofun
  · rw [hr, JsNumber.lt, decide_eq_true_iff, not_lt]
    exact hrle

/-- A rounded quotient is below the limit when the exact one is, and has the same text. -/
theorem div_agrees (t : ℕ) {u : String × ℕ} (hu : u ∈ units) :
    ((JsNumber.finite t).div u.2).lt (10 ^ 8) = ((JsNumber.finite t).quotient u.2).lt (10 ^ 8) ∧
      (t < 10 ^ 8 * u.2 →
        ((JsNumber.finite t).div u.2).ceil.toText = toString ((t + u.2 - 1) / u.2)) := by
  rw [Bool.eq_iff_iff, quotient_lt_iff t hu]
  by_cases hlimit : t < 10 ^ 8 * u.2
  · obtain ⟨r, hr, hnonneg, hle, hlt, hbelow⟩ := ofRat_quotient hu hlimit
    have hk := ceilDiv_lt hu hlimit
    rw [JsNumber.div, hr]
    refine ⟨iff_of_true ?_ hlimit, fun _ => ceil_toText (by omega) hnonneg hle hlt⟩
    rw [JsNumber.lt, decide_eq_true_iff]
    exact_mod_cast hbelow
  · exact ⟨iff_of_false (not_div_lt hu hlimit) hlimit, fun h => absurd h hlimit⟩

theorem findSome?_congr {α β : Type*} {f g : α → Option β} {l : List α}
    (h : ∀ a ∈ l, f a = g a) : l.findSome? f = l.findSome? g := by
  induction l with
  | nil => rfl
  | cons a l ih =>
      rw [List.findSome?_cons, List.findSome?_cons, h a (.head l), ih fun b hb => h b (.tail a hb)]

/-- **Rounding the quotients makes no difference.** -/
theorem timeoutString_eq_timeoutText {deadline : JsNumber} {now z : ℤ}
    (h : deadline.sub now = .finite z) (hz : |z| < 2 ^ 53) :
    timeoutString deadline now = timeoutText (deadline.sub now) := by
  rw [timeoutString, timeoutText, h]
  dsimp only
  rcases lt_or_ge z 0 with hneg | hnonneg
  · -- A negative time is below the limit in the first unit, which divides by 1.
    have hfirst : (JsNumber.finite z).div 1 = (JsNumber.finite z).quotient 1 := by
      rw [JsNumber.div, JsNumber.quotient, Nat.cast_one, div_one, JsNumber.ofRat_intCast hz]
    have hlt : ((JsNumber.finite z).quotient 1).lt (10 ^ 8) = true := by
      rw [JsNumber.quotient, Nat.cast_one, div_one, JsNumber.lt, decide_eq_true_iff]
      exact_mod_cast (show z < 10 ^ 8 by omega)
    simp only [units, List.findSome?_cons, hfirst, hlt, ↓reduceIte]
  · obtain ⟨t, rfl⟩ := Int.eq_ofNat_of_zero_le hnonneg
    refine findSome?_congr fun u hu => ?_
    obtain ⟨hlt, htext⟩ := div_agrees t hu
    rw [Int.cast_natCast, hlt]
    split
    · rename_i hlimit
      rw [quotient_lt_iff t hu] at hlimit
      rw [htext hlimit, quotient_ceil_toText hu hlimit]
    · rfl

/-! ### The header -/

theorem valid_of_timeoutText {x : JsNumber} {s : String} (h : timeoutText x = some s) :
    validate "grpc-timeout" (some (.string s)) = .ok () := by
  obtain ⟨u, hu, hsome⟩ := List.exists_of_findSome?_eq_some h
  dsimp only at hsome
  split at hsome
  · rw [← Option.some.inj hsome]
    exact valid_timeoutText _ hu
  · exact absurd hsome nofun

variable {deadline : JsNumber} {now : ℤ} {m : Metadata}

theorem not_timelyHeader_of_none (hdeadline : deadline ≠ noDeadline)
    (h : timeoutText (deadline.sub now) = none) : ¬ TimelyHeader deadline now m := by
  rintro ⟨m', s, value, factor, r, hsend, -⟩
  rw [DeadlineFilter.sendMetadata, if_neg hdeadline, h] at hsend
  exact absurd hsend nofun

/-- The filter sets the text. -/
theorem timelyHeader_iff_of_some (hdeadline : deadline ≠ noDeadline) {s : String}
    (h : timeoutText (deadline.sub now) = some s) :
    TimelyHeader deadline now m ↔ ∃ value factor r, Denotes s value factor ∧
      remaining deadline now = some r ∧ r ≤ value * factor ∧ (value * factor : ℚ) < r + factor := by
  have hsend : DeadlineFilter.sendMetadata deadline now m =
      some (DeadlineFilter.setTimeout m s) := by
    rw [DeadlineFilter.sendMetadata, if_neg hdeadline, h]
    rfl
  have hset : DeadlineFilter.setTimeout m s = .ok _ := Metadata.set_of_valid (valid_of_timeoutText h)
  constructor
  · rintro ⟨m', s', value, factor, r, hsend', hvalues, hrest⟩
    have hok : DeadlineFilter.setTimeout m s = .ok m' := Option.some.inj (hsend.symm.trans hsend')
    have hvalues' := Metadata.values_set_self (by decide) (by decide) hok
    obtain rfl : s' = s := by simpa using hvalues.symm.trans hvalues'
    exact ⟨value, factor, r, hrest⟩
  · rintro ⟨value, factor, r, hrest⟩
    exact ⟨_, s, value, factor, r, hsend.trans (congrArg some hset),
      Metadata.values_set_self (by decide) (by decide) hset, hrest⟩

theorem not_timelyHeader_of_minus (hdeadline : deadline ≠ noDeadline) {s : String}
    (h : timeoutText (deadline.sub now) = some ("-" ++ s)) : ¬ TimelyHeader deadline now m := by
  rw [timelyHeader_iff_of_some hdeadline h]
  rintro ⟨value, factor, r, hdenotes, -⟩
  exact not_denotes_minus hdenotes

/-- A number of units that is the time, rounded up, has to have eight digits only. -/
theorem timelyHeader_iff_of_unit (hdeadline : deadline ≠ noDeadline) {t : ℕ} {u : String × ℕ}
    (hu : u ∈ units)
    (h : timeoutText (deadline.sub now) = some (toString ((t + u.2 - 1) / u.2) ++ u.1))
    (hremaining : remaining deadline now = some t) :
    TimelyHeader deadline now m ↔ (t + u.2 - 1) / u.2 < 10 ^ 8 := by
  rw [timelyHeader_iff_of_some hdeadline h]
  obtain ⟨hle, hlt⟩ := ceilDiv_spec t (unit_pos hu)
  constructor
  · rintro ⟨value, factor, r, hdenotes, -⟩
    exact ((denotes_toString_iff hu).mp hdenotes).1
  · intro hk
    refine ⟨_, _, t, (denotes_toString_iff hu).mpr ⟨hk, rfl, rfl⟩, hremaining, ?_, ?_⟩
    · exact_mod_cast hle
    · exact_mod_cast hlt

theorem fits_iff {t : ℤ} : Fits t ↔ 0 ≤ t ∧ (t ≤ 99999999 * 1000 ∨ 10 ^ 8 * 1000 ≤ t) ∧
    (t ≤ 99999999 * 60000 ∨ 10 ^ 8 * 60000 ≤ t) ∧ t ≤ 99999999 * 3600000 := by
  have hgap : (∀ u ∈ units, t ≤ 99999999 * u.2 ∨ 10 ^ 8 * u.2 ≤ t) ↔
      (t ≤ 99999999 ∨ 10 ^ 8 ≤ t) ∧ (t ≤ 99999999 * 1000 ∨ 10 ^ 8 * 1000 ≤ t) ∧
      (t ≤ 99999999 * 60000 ∨ 10 ^ 8 * 60000 ≤ t) ∧
      (t ≤ 99999999 * 3600000 ∨ 10 ^ 8 * 3600000 ≤ t) := by
    simp [units]
  constructor
  · rintro ⟨hnonneg, hlt, h⟩
    rw [hgap] at h
    omega
  · intro h
    refine ⟨h.1, by omega, hgap.mpr ?_⟩
    omega

/-- There is a unit for the time, and eight digits are enough for it, exactly if the time
fits. -/
theorem exists_unit {t : ℕ} (h : t < 10 ^ 8 * 3600000) :
    ∃ u, units.find? (fun u => t < 10 ^ 8 * u.2) = some u ∧
      ((t + u.2 - 1) / u.2 < 10 ^ 8 ↔ Fits t) := by
  rw [fits_iff]
  by_cases hm : t < 10 ^ 8
  · refine ⟨("m", 1), by simp [units]; omega, ?_⟩
    dsimp only
    omega
  · by_cases hS : t < 10 ^ 8 * 1000
    · refine ⟨("S", 1000), by simp [units]; omega, ?_⟩
      dsimp only
      omega
    · by_cases hM : t < 10 ^ 8 * 60000
      · refine ⟨("M", 60 * 1000), by simp [units]; omega, ?_⟩
        dsimp only
        omega
      · refine ⟨("H", 60 * 60 * 1000), by simp [units]; omega, ?_⟩
        dsimp only
        omega

/-! ### All deadlines -/

/-- The time that is left, before it is rounded. -/
theorem timeoutText_sub {z : ℤ} (h : deadline.toInt? = some z) :
    timeoutText (deadline.sub now) = timeoutText (.ofRat ((z - now : ℤ) : ℚ)) ∧
      remaining deadline now = some (max 0 ((z - now : ℤ) : ℚ)) ∧ deadline ≠ noDeadline := by
  cases deadline with
  | nan => simp [JsNumber.toInt?] at h
  | infinity negative => simp [JsNumber.toInt?] at h
  | negZero =>
      obtain rfl : 0 = z := Option.some.inj h
      refine ⟨?_, by simp [remaining], by simp [noDeadline]⟩
      rw [JsNumber.sub]
      split
      · rename_i hnow
        rw [hnow]
        decide +kernel
      · simp
  | finite q =>
      rw [JsNumber.toInt?] at h
      split at h
      · rename_i hden
        obtain rfl := Option.some.inj h
        have hq : (q.num : ℚ) = q := Rat.coe_int_num_of_den_eq_one hden
        refine ⟨?_, ?_, by simp [noDeadline]⟩
        · rw [JsNumber.sub, Int.cast_sub, hq]
        · rw [remaining, Int.cast_sub, hq]
      · simp at h

/-- A time that is over has a sign, however it is rounded. -/
theorem timeoutText_ofRat_neg {t : ℤ} (ht : t < 0) :
    ∃ s, timeoutText (.ofRat t) = some ("-" ++ s) := by
  by_cases hsmall : |t| < 2 ^ 53
  · rw [JsNumber.ofRat_intCast hsmall]
    exact timeoutText_neg (by exact_mod_cast (show t ≤ -1 by omega))
  · have hbig : (t : ℚ) ≤ -2 ^ 53 := by
      rw [abs_of_neg ht] at hsmall
      exact_mod_cast (show t ≤ -2 ^ 53 by omega)
    rcases JsNumber.ofRat_le_neg hbig with hinf | ⟨r, hr, hle⟩
    · rw [hinf]
      exact ⟨"Infinitym", by decide⟩
    · rw [hr]
      exact timeoutText_neg (hle.trans (by norm_num))

/-- No unit is large enough for a long time, however it is rounded. -/
theorem timeoutText_ofRat_large {n : ℕ} (hn : 10 ^ 8 * 3600000 ≤ n) :
    timeoutText (.ofRat n) = none := by
  have hlarge : ((10 ^ 8 * 3600000 : ℕ) : ℚ) ≤ n := by exact_mod_cast hn
  have hpos : (0 : ℚ) < n := lt_of_lt_of_le (by norm_num) hlarge
  rcases JsNumber.natCast_le_ofRat hpos (by norm_num) hlarge with hinf | ⟨r, hr, hle⟩
  · rw [hinf]
    rfl
  · rw [hr]
    exact timeoutText_large (by exact_mod_cast hle)

theorem timelyHeader_iff_of_toInt {z : ℤ} (h : deadline.toInt? = some z) :
    TimelyHeader deadline now m ↔ Fits (z - now) := by
  obtain ⟨htext, hremaining, hdeadline⟩ : timeoutText (deadline.sub now) = _ ∧ _ :=
    timeoutText_sub h
  generalize z - now = t at htext hremaining
  rcases lt_or_ge t 0 with hneg | hnonneg
  · -- The time is over.
    obtain ⟨s, hs⟩ := timeoutText_ofRat_neg hneg
    exact iff_of_false (not_timelyHeader_of_minus hdeadline (htext.trans hs))
      fun hfits => absurd hfits.nonneg (not_le.mpr hneg)
  · obtain ⟨n, rfl⟩ := Int.eq_ofNat_of_zero_le hnonneg
    have hcast : ((n : ℤ) : ℚ) = n := Int.cast_natCast n
    rw [hcast] at htext hremaining
    rw [max_eq_right (Nat.cast_nonneg n)] at hremaining
    by_cases hlt : n < 10 ^ 8 * 3600000
    · obtain ⟨u, hu, hfits⟩ := exists_unit hlt
      have hexact : JsNumber.ofRat n = .finite n := by
        have hint := JsNumber.ofRat_intCast (z := n) (by rw [Nat.abs_cast]; omega)
        rwa [hcast] at hint
      rw [hexact, timeoutText_natCast hu] at htext
      exact (timelyHeader_iff_of_unit hdeadline (List.mem_of_find?_eq_some hu) htext
        hremaining).trans hfits
    · -- The promise stays pending.
      have hnone := htext.trans (timeoutText_ofRat_large (not_lt.mp hlt))
      refine iff_of_false (not_timelyHeader_of_none hdeadline hnone) fun hfits => ?_
      have := hfits.lt
      omega

/-- **When the header is right.** For every deadline that a call can have and every time at
which the channel is connected, `sendMetadata` resolves with a well-formed timeout that is the
time left, rounded up, if and only if the deadline is finite and the time fits: it is not over,
and no more than `99999999` of the first unit in which it is below `10 ^ 8`. -/
theorem timelyHeader_iff {deadline : Deadline} (hdeadline : deadline.Admitted) (now : ℤ)
    (m : Metadata) : TimelyHeader deadline.getTime now m ↔
      ∃ z, deadline.getTime.toInt? = some z ∧ Fits (z - now) := by
  have of_toInt : ∀ {z : ℤ}, deadline.getTime.toInt? = some z →
      (TimelyHeader deadline.getTime now m ↔
        ∃ z, deadline.getTime.toInt? = some z ∧ Fits (z - now)) := by
    intro z hz
    rw [timelyHeader_iff_of_toInt hz, hz]
    simp
  have of_integral : ∀ {z : ℤ}, deadline.getTime = .finite z →
      (TimelyHeader deadline.getTime now m ↔
        ∃ z, deadline.getTime.toInt? = some z ∧ Fits (z - now)) :=
    fun h => of_toInt (h ▸ JsNumber.toInt?_intCast _)
  have of_none : deadline.getTime.toInt? = none → ¬ TimelyHeader deadline.getTime now m →
      (TimelyHeader deadline.getTime now m ↔
        ∃ z, deadline.getTime.toInt? = some z ∧ Fits (z - now)) := by
    intro hz hnot
    rw [hz]
    exact iff_of_false hnot nofun
  cases deadline with
  | date time =>
      rcases hdeadline with rfl | ⟨z, rfl, -⟩
      · exact of_none rfl (not_timelyHeader_of_none nofun rfl)
      · exact of_integral rfl
  | number value =>
      rcases hdeadline with rfl | rfl | ⟨z, rfl⟩
      · have hover : timeoutText (.infinity true) = some ("-" ++ "Infinitym") := by decide
        exact of_none rfl (not_timelyHeader_of_minus nofun hover)
      · exact of_toInt rfl
      · exact of_integral rfl

theorem timelyHeader_iff_second : TimelyHeader (.finite 5000) 4000 Metadata.new :=
  (timelyHeader_iff (show (Deadline.number (.finite 5000)).Admitted from
    .inr (.inr ⟨5000, rfl⟩)) 4000 Metadata.new).mpr ⟨5000, rfl, fits_iff.mpr (by decide)⟩

/-- A deadline that has been reached a millisecond ago gives `-1m`. -/
theorem timelyHeader_past : (Deadline.number (.finite 3999)).Admitted ∧
    ¬ TimelyHeader (Deadline.number (.finite 3999)).getTime 4000 Metadata.new := by
  refine ⟨.inr (.inr ⟨3999, rfl⟩), not_timelyHeader_of_minus (s := "1m") nofun ?_⟩
  decide +kernel

end GrpcNode.JsCore
