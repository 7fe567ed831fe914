import GrpcNode.JsCore.DeadlineTimeout
import Mathlib.Data.Rat.Floor

/-!
# GrpcNode.NativeCore.Timeval

`timeval.cc`: between the deadlines of JavaScript, which are numbers of milliseconds, and the
times of the C core. The arithmetic is that of rational numbers here.

The microseconds of a deadline are converted to `int64_t`, and nothing makes sure that they fit
(`convertsExactly_iff`). Those of a `Date` do, unless it is an invalid one.
-/

namespace GrpcNode.NativeCore

open GrpcNode.Js
open GrpcNode.JsCore (Deadline IsTime)

/-! ### The times of the core -/

/-- `gpr_clock_type` -/
inductive ClockType
  | monotonic
  | realtime
  | precise
  | timespan
  deriving DecidableEq

/-- `gpr_timespec` -/
structure Timespec where
  tvSec : Int
  tvNsec : Int
  clockType : ClockType := .realtime
  deriving DecidableEq

/-- `std::numeric_limits<int64_t>::max()`, and -/
def maxInt64 : Int := 9223372036854775807

/-- `std::numeric_limits<int64_t>::min()` -/
def minInt64 : Int := -9223372036854775808

/-- The functions of `grpc/support/time.h` -/
structure TimeCore where
  /-- `gpr_time_from_micros` -/
  timeFromMicros : Int → ClockType → Timespec
  /-- `gpr_inf_future` -/
  infFuture : ClockType → Timespec
  /-- `gpr_inf_past` -/
  infPast : ClockType → Timespec
  /-- `gpr_time_cmp` -/
  timeCmp : Timespec → Timespec → Int
  /-- `gpr_convert_clock_type` -/
  convertClockType : Timespec → ClockType → Timespec

/-- What gRPC documents of them. The extreme numbers of microseconds are no times. -/
structure TimeCore.Documented (core : TimeCore) : Prop where
  timeFromMicros_split (us : Int) (type : ClockType) : minInt64 < us → us < maxInt64 →
    (core.timeFromMicros us type).tvSec * 10 ^ 9 + (core.timeFromMicros us type).tvNsec =
      us * 1000
  timeFromMicros_normal (us : Int) (type : ClockType) : minInt64 < us → us < maxInt64 →
    0 ≤ (core.timeFromMicros us type).tvNsec ∧ (core.timeFromMicros us type).tvNsec < 10 ^ 9
  timeFromMicros_type (us : Int) (type : ClockType) :
    (core.timeFromMicros us type).clockType = type
  infFuture (type : ClockType) :
    (core.infFuture type).tvSec = maxInt64 ∧ (core.infFuture type).clockType = type
  infPast (type : ClockType) :
    (core.infPast type).tvSec = minInt64 ∧ (core.infPast type).clockType = type
  timeCmp_self (a : Timespec) : core.timeCmp a a = 0
  tvSec_of_timeCmp (a b : Timespec) : core.timeCmp a b = 0 → a.tvSec = b.tvSec
  convertClockType (a : Timespec) : core.convertClockType a a.clockType = a

variable (core : TimeCore)

/-! ### `timeval.cc` -/

/-- `static_cast<int64_t>(x)`, which drops the fraction; `none` is undefined behaviour. -/
def castInt64 (x : ℚ) : Option Int :=
  let n := if x < 0 then -⌊-x⌋ else ⌊x⌋
  if minInt64 ≤ n ∧ n ≤ maxInt64 then some n else none

/-- `MillisecondsToTimespec` -/
def millisecondsToTimespec : JsNumber → Option Timespec
  | .infinity false => some (core.infFuture .realtime)
  | .infinity true => some (core.infPast .realtime)
  | .nan => none
  | .negZero => (castInt64 0).map fun us => core.timeFromMicros us .realtime
  | .finite millis => (castInt64 (millis * 1000)).map fun us => core.timeFromMicros us .realtime

/-- `TimespecToMilliseconds` -/
def timespecToMilliseconds (timespec : Timespec) : JsNumber :=
  let timespec := core.convertClockType timespec .realtime
  if core.timeCmp timespec (core.infFuture .realtime) = 0 then .infinity false
  else if core.timeCmp timespec (core.infPast .realtime) = 0 then .infinity true
  else .finite (timespec.tvSec * 1000 + timespec.tvNsec / 1000000)

/-! ### The deadlines -/

/-- The check of a deadline, which is `none` if it is neither a number nor a `Date`. -/
def deadlineArgument (message : String) : Option Deadline → Except JsError JsNumber
  | some deadline => .ok deadline.getTime
  | none => .error (.typeError message)

/-- The deadline in `Call::New` -/
def Call.newDeadline : Option Deadline → Except JsError JsNumber :=
  deadlineArgument "Call's third argument must be a date or a number"

/-- The deadline in `WatchConnectivityState` -/
def Channel.watchDeadline : Option Deadline → Except JsError JsNumber :=
  deadlineArgument "watchConnectivityState's second argument must be a date or a number"

/-- A `Date`, or an integral number. -/
def Integral : Deadline → Prop
  | .date time => time = .nan ∨ ∃ z : ℤ, time = .finite z ∧ IsTime z
  | .number value => value = .negZero ∨ ∃ z : ℤ, value = .finite z

/-- `x === y` -/
def StrictlyEqual : JsNumber → JsNumber → Prop
  | .nan, _ | _, .nan => False
  | .negZero, y => y = .negZero ∨ y = .finite 0
  | x, .negZero => x = .finite 0
  | x, y => x = y

/-- A deadline that both functions accept, for which the cast is defined, and which comes back
from the core. -/
def ConvertsExactly (deadline : Deadline) : Prop :=
  Call.newDeadline (some deadline) = .ok deadline.getTime ∧
    Channel.watchDeadline (some deadline) = .ok deadline.getTime ∧
    ∃ timespec, millisecondsToTimespec core deadline.getTime = some timespec ∧
      StrictlyEqual (timespecToMilliseconds core timespec) deadline.getTime

/-- A valid `Date`, or a number of milliseconds with less than `2 ^ 63` microseconds. -/
def FitsMicros : Deadline → Prop
  | .date time => time ≠ .nan
  | .number value => value = .negZero ∨
      ∃ z : ℤ, value = .finite z ∧ -9223372036854775 ≤ z ∧ z ≤ 9223372036854775

/-! ### There and back -/

theorem castInt64_intCast (n : ℤ) :
    castInt64 n = if minInt64 ≤ n ∧ n ≤ maxInt64 then some n else none := by
  have hfloor : (if (n : ℚ) < 0 then -⌊-(n : ℚ)⌋ else ⌊(n : ℚ)⌋) = n := by
    rw [← Int.cast_neg, Int.floor_intCast, Int.floor_intCast, neg_neg, ite_self]
  rw [castInt64, hfloor]

theorem millisecondsToTimespec_intCast (z : ℤ) : millisecondsToTimespec core (.finite z) =
    if minInt64 ≤ z * 1000 ∧ z * 1000 ≤ maxInt64 then
      some (core.timeFromMicros (z * 1000) .realtime) else none := by
  have hproduct : (z : ℚ) * 1000 = ((z * 1000 : ℤ) : ℚ) := by norm_cast
  rw [millisecondsToTimespec, hproduct, castInt64_intCast]
  split <;> rfl

variable {core}

/-- The product is no multiple of 1000 if it is extreme. -/
theorem lt_of_le_product {z : ℤ} (h : minInt64 ≤ z * 1000 ∧ z * 1000 ≤ maxInt64) :
    minInt64 < z * 1000 ∧ z * 1000 < maxInt64 := by
  unfold minInt64 maxInt64 at *
  omega

theorem product_iff {z : ℤ} : minInt64 ≤ z * 1000 ∧ z * 1000 ≤ maxInt64 ↔
    -9223372036854775 ≤ z ∧ z ≤ 9223372036854775 := by
  unfold minInt64 maxInt64
  omega

/-- A time that is made of microseconds is not infinite, and gives them back. -/
theorem timespecToMilliseconds_timeFromMicros (hcore : core.Documented) {z : ℤ}
    (h : minInt64 ≤ z * 1000 ∧ z * 1000 ≤ maxInt64) :
    timespecToMilliseconds core (core.timeFromMicros (z * 1000) .realtime) = .finite z := by
  obtain ⟨hlow, hhigh⟩ := lt_of_le_product h
  have hsplit := hcore.timeFromMicros_split _ .realtime hlow hhigh
  have hnormal := hcore.timeFromMicros_normal _ .realtime hlow hhigh
  have hconvert : core.convertClockType (core.timeFromMicros (z * 1000) .realtime) .realtime =
      core.timeFromMicros (z * 1000) .realtime := by
    have hself := hcore.convertClockType (core.timeFromMicros (z * 1000) .realtime)
    rwa [hcore.timeFromMicros_type] at hself
  have hfuture : core.timeCmp (core.timeFromMicros (z * 1000) .realtime)
      (core.infFuture .realtime) ≠ 0 := by
    intro hcmp
    have hsec := (hcore.tvSec_of_timeCmp _ _ hcmp).trans (hcore.infFuture .realtime).1
    unfold minInt64 maxInt64 at *
    omega
  have hpast : core.timeCmp (core.timeFromMicros (z * 1000) .realtime)
      (core.infPast .realtime) ≠ 0 := by
    intro hcmp
    have hsec := (hcore.tvSec_of_timeCmp _ _ hcmp).trans (hcore.infPast .realtime).1
    unfold minInt64 maxInt64 at *
    omega
  rw [timespecToMilliseconds, hconvert, if_neg hfuture, if_neg hpast]
  congr 1
  have hcast : ((core.timeFromMicros (z * 1000) .realtime).tvSec : ℚ) * 10 ^ 9 +
      (core.timeFromMicros (z * 1000) .realtime).tvNsec = z * 1000 * 1000 := by
    exact_mod_cast hsplit
  linarith

/-- An integral number of milliseconds gets to the core exactly if the product fits, -/
theorem millisecondsToTimespec_eq_some_iff {z : ℤ} {timespec : Timespec} :
    millisecondsToTimespec core (.finite z) = some timespec ↔
      (minInt64 ≤ z * 1000 ∧ z * 1000 ≤ maxInt64) ∧
        core.timeFromMicros (z * 1000) .realtime = timespec := by
  rw [millisecondsToTimespec_intCast]
  by_cases h : minInt64 ≤ z * 1000 ∧ z * 1000 ≤ maxInt64
  · rw [if_pos h, Option.some.injEq, and_iff_right h]
  · rw [if_neg h]
    exact iff_of_false (by simp) fun hand => h hand.1

/-- and then it comes back. -/
theorem convertsExactly_number_iff (hcore : core.Documented) {z : ℤ} :
    (∃ timespec, millisecondsToTimespec core (.finite z) = some timespec ∧
        StrictlyEqual (timespecToMilliseconds core timespec) (.finite z)) ↔
      -9223372036854775 ≤ z ∧ z ≤ 9223372036854775 := by
  rw [← product_iff]
  constructor
  · rintro ⟨timespec, hsome, -⟩
    exact (millisecondsToTimespec_eq_some_iff.mp hsome).1
  · intro h
    refine ⟨_, millisecondsToTimespec_eq_some_iff.mpr ⟨h, rfl⟩, ?_⟩
    rw [timespecToMilliseconds_timeFromMicros hcore h]
    exact rfl

/-- The other zero becomes the usual one. -/
theorem millisecondsToTimespec_negZero :
    millisecondsToTimespec core .negZero = some (core.timeFromMicros 0 .realtime) := by
  have hzero : castInt64 0 = some 0 := by
    rw [← Int.cast_zero, castInt64_intCast]
    rfl
  rw [millisecondsToTimespec, hzero]
  rfl

theorem timespecToMilliseconds_zero (hcore : core.Documented) :
    timespecToMilliseconds core (core.timeFromMicros 0 .realtime) = .finite 0 := by
  have hzero := timespecToMilliseconds_timeFromMicros (z := 0) hcore (by decide)
  rwa [zero_mul, Int.cast_zero] at hzero

/-- **Deadlines are converted exactly if their microseconds fit.** -/
theorem convertsExactly_iff (hcore : core.Documented) {deadline : Deadline}
    (h : Integral deadline) : ConvertsExactly core deadline ↔ FitsMicros deadline := by
  have haccepted : ConvertsExactly core deadline ↔
      ∃ timespec, millisecondsToTimespec core deadline.getTime = some timespec ∧
        StrictlyEqual (timespecToMilliseconds core timespec) deadline.getTime :=
    (and_iff_right rfl).trans (and_iff_right rfl)
  rw [haccepted]
  have hzero : ∃ timespec, millisecondsToTimespec core .negZero = some timespec ∧
      StrictlyEqual (timespecToMilliseconds core timespec) .negZero := by
    refine ⟨_, millisecondsToTimespec_negZero, ?_⟩
    rw [timespecToMilliseconds_zero hcore]
    exact rfl
  cases deadline with
  | date time =>
      rcases h with rfl | ⟨z, rfl, htime⟩
      · exact iff_of_false (by simp [Deadline.getTime, millisecondsToTimespec]) fun hne => hne rfl
      · obtain ⟨hlow, hhigh⟩ := abs_le.mp htime
        refine (convertsExactly_number_iff hcore).trans (iff_of_true ?_ (by simp [FitsMicros]))
        omega
  | number value =>
      rcases h with rfl | ⟨z, rfl⟩
      · exact iff_of_true hzero (.inl rfl)
      · refine (convertsExactly_number_iff hcore).trans ?_
        simp [FitsMicros]

/-- What is infinite comes back, -/
theorem timespecToMilliseconds_infinity (hcore : core.Documented) (negative : Bool) :
    ∃ timespec, millisecondsToTimespec core (.infinity negative) = some timespec ∧
      timespecToMilliseconds core timespec = .infinity negative := by
  have hconvert : ∀ a : Timespec, a.clockType = .realtime →
      core.convertClockType a .realtime = a := by
    intro a ha
    have hself := hcore.convertClockType a
    rwa [ha] at hself
  cases negative with
  | false =>
      refine ⟨_, rfl, ?_⟩
      rw [timespecToMilliseconds, hconvert _ (hcore.infFuture _).2, if_pos (hcore.timeCmp_self _)]
  | true =>
      have hfuture : core.timeCmp (core.infPast .realtime) (core.infFuture .realtime) ≠ 0 := by
        intro hcmp
        have hsec := hcore.tvSec_of_timeCmp _ _ hcmp
        rw [(hcore.infPast _).1, (hcore.infFuture _).1] at hsec
        exact absurd hsec (by decide)
      refine ⟨_, rfl, ?_⟩
      rw [timespecToMilliseconds, hconvert _ (hcore.infPast _).2, if_neg hfuture,
        if_pos (hcore.timeCmp_self _)]

/-- and nothing else becomes infinite. -/
theorem timespecToMilliseconds_ne_infinity (hcore : core.Documented) {deadline : Deadline}
    (h : Integral deadline) {timespec : Timespec}
    (hsome : millisecondsToTimespec core deadline.getTime = some timespec) (negative : Bool) :
    timespecToMilliseconds core timespec ≠ .infinity negative := by
  have hnumber : ∀ z : ℤ, millisecondsToTimespec core (.finite z) = some timespec →
      timespecToMilliseconds core timespec ≠ .infinity negative := by
    intro z hz
    obtain ⟨hfits, rfl⟩ := millisecondsToTimespec_eq_some_iff.mp hz
    rw [timespecToMilliseconds_timeFromMicros hcore hfits]
    simp
  cases deadline with
  | date time =>
      rcases h with rfl | ⟨z, rfl, -⟩
      · exact absurd hsome (by simp [Deadline.getTime, millisecondsToTimespec])
      · exact hnumber z hsome
  | number value =>
      rcases h with rfl | ⟨z, rfl⟩
      · rw [Deadline.getTime, millisecondsToTimespec_negZero, Option.some.injEq] at hsome
        rw [← hsome, timespecToMilliseconds_zero hcore]
        simp
      · exact hnumber z hsome

/-- **The conversion of deadlines**: it is exact for those whose microseconds fit, and for no
others, and the infinite ones are apart. -/
theorem deadlineConversion_iff (core : TimeCore) (hcore : core.Documented) :
    (∀ deadline, Integral deadline → (ConvertsExactly core deadline ↔ FitsMicros deadline)) ∧
    (∀ negative, ∃ timespec, millisecondsToTimespec core (.infinity negative) = some timespec ∧
      timespecToMilliseconds core timespec = .infinity negative) ∧
    ∀ deadline, Integral deadline → ∀ timespec,
      millisecondsToTimespec core deadline.getTime = some timespec →
      ∀ negative, timespecToMilliseconds core timespec ≠ .infinity negative :=
  ⟨fun _ h => convertsExactly_iff hcore h, timespecToMilliseconds_infinity hcore,
    fun _ h _ hsome => timespecToMilliseconds_ne_infinity hcore h hsome⟩

/-! ### The core of gRPC -/

/-- The functions as they are in gRPC; a time of one clock is not converted to another here. -/
def TimeCore.gpr : TimeCore where
  timeFromMicros us type :=
    if us = maxInt64 then ⟨maxInt64, 0, type⟩
    else if us = minInt64 then ⟨minInt64, 0, type⟩
    else ⟨us / 1000000, us % 1000000 * 1000, type⟩
  infFuture type := ⟨maxInt64, 0, type⟩
  infPast type := ⟨minInt64, 0, type⟩
  timeCmp a b :=
    if a.tvSec ≠ b.tvSec then (a.tvSec - b.tvSec).sign
    else if a.tvSec = maxInt64 ∨ a.tvSec = minInt64 then 0
    else (a.tvNsec - b.tvNsec).sign
  convertClockType a type := { a with clockType := type }

theorem TimeCore.gpr_documented : TimeCore.gpr.Documented where
  timeFromMicros_split us type hlow hhigh := by
    simp only [gpr, if_neg (ne_of_lt hhigh), if_neg (ne_of_gt hlow)]
    omega
  timeFromMicros_normal us type hlow hhigh := by
    simp only [gpr, if_neg (ne_of_lt hhigh), if_neg (ne_of_gt hlow)]
    omega
  timeFromMicros_type us type := by
    simp only [gpr]
    split
    · rfl
    · split <;> rfl
  infFuture _ := ⟨rfl, rfl⟩
  infPast _ := ⟨rfl, rfl⟩
  timeCmp_self a := by simp [gpr]
  tvSec_of_timeCmp a b h := by
    by_contra hne
    simp only [gpr, ne_eq, hne, not_false_eq_true, if_true] at h
    have := Int.sign_eq_zero_iff_zero.mp h
    omega
  convertClockType _ := rfl

theorem deadlineConversion_gpr :
    (∀ deadline, Integral deadline →
      (ConvertsExactly TimeCore.gpr deadline ↔ FitsMicros deadline)) ∧
    (∀ negative, ∃ timespec,
      millisecondsToTimespec TimeCore.gpr (.infinity negative) = some timespec ∧
      timespecToMilliseconds TimeCore.gpr timespec = .infinity negative) ∧
    ∀ deadline, Integral deadline → ∀ timespec,
      millisecondsToTimespec TimeCore.gpr deadline.getTime = some timespec →
      ∀ negative, timespecToMilliseconds TimeCore.gpr timespec ≠ .infinity negative :=
  deadlineConversion_iff TimeCore.gpr TimeCore.gpr_documented

/-- The first number of milliseconds that is too large. -/
theorem not_convertsExactly_large :
    TimeCore.gpr.Documented ∧ Integral (.number (.finite 9223372036854776)) ∧
      ¬ ConvertsExactly TimeCore.gpr (.number (.finite 9223372036854776)) := by
  refine ⟨TimeCore.gpr_documented, .inr ⟨9223372036854776, by simp⟩, ?_⟩
  rintro ⟨-, -, timespec, hsome, -⟩
  have hcast : (9223372036854776 : ℚ) = ((9223372036854776 : ℤ) : ℚ) := by norm_cast
  rw [Deadline.getTime, hcast, millisecondsToTimespec_intCast, if_neg (by decide)] at hsome
  exact absurd hsome (by simp)

end GrpcNode.NativeCore
