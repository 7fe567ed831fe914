import GrpcNode.Js.Rounding
import GrpcNode.JsCore.CallStream
import GrpcNode.JsCore.Filters
import GrpcNode.Lib.Timer
import Mathlib.Tactic.FieldSimp

/-!
# GrpcNode.JsCore.DeadlineTimers

The timers that wait for a deadline: that of the `DeadlineFilter` constructor, and that of
`waitForReady` in `client.ts`.

`setTimeout` takes a delay of up to `2 ^ 31 - 1` milliseconds, and a longer one as a delay of one
millisecond. So both timers are on time exactly if the deadline is no further away than that, as
far as the subtraction of doubles is exact (`neverEarly_iff`).
-/

namespace GrpcNode.JsCore

open GrpcNode.Js
open Runs (when)

/-! ### The delay -/

/-- The `timeout` that both functions pass to `setTimeout`, unless there is no deadline. -/
def timerDelay? (deadline : JsNumber) (now : Int) : Option JsNumber :=
  if deadline = noDeadline then none
  else
    let timeout := deadline.sub now
    some (if timeout.lt 0 then .finite 0 else timeout)

/-- How much later a function given to `setTimeout` runs at the earliest. -/
def setTimeoutDelay : JsNumber → ℚ
  | .finite q => if 1 ≤ q ∧ q ≤ 2 ^ 31 - 1 then q else 1
  | _ => 1

/-- Before when the timer does not run, if it is set at `started`. -/
def timerDue? (deadline : JsNumber) (now : Int) (started : ℚ) : Option ℚ :=
  (timerDelay? deadline now).map fun delay => started + setTimeoutDelay delay

/-! ### The timer of a call -/

namespace DeadlineFilter

/-- A call with its `DeadlineFilter`. -/
structure Watched where
  stream : CallStream.State := CallStream.State.initial
  /-- History: when the timer has ended the call. -/
  cancelled : List ℚ := []

/-- Everything else that happens to the call. -/
def Watched.next (filterStack : ReceiveFilter) (_ : ℚ) (s : Watched) (act : CallStream.Act) :
    Option Watched :=
  (CallStream.step filterStack s.stream act).map fun stream => { s with stream := stream }

/-- The function given to `setTimeout`. -/
def Watched.expire (time : ℚ) (s : Watched) : Option Watched :=
  when (s.stream.stack = []) {
    stream := s.stream.cancelWithStatus .deadlineExceeded "Deadline exceeded"
    cancelled := if s.stream.call.finalStatus = none then s.cancelled ++ [time] else s.cancelled }

/-- The call is not ended by the timer before the deadline. -/
def Watched.OnTime (deadline : ℚ) (s : Watched) : Prop := ∀ time ∈ s.cancelled, deadline ≤ time

/-- No call is, whose filter has read the clock at `now`. -/
def NeverEarly (deadline : JsNumber) (limit : ℚ) (now : Int) : Prop :=
  ∀ (filterStack : ReceiveFilter) (started : ℚ), now ≤ started → ∀ acts,
    Runs.Always (Timer.step (Watched.next filterStack) Watched.expire)
      (fun s => s.inner.OnTime limit) ⟨started, timerDue? deadline now started, {}⟩ acts

end DeadlineFilter

/-! ### The timer of `waitForReady` -/

namespace WaitForReady

/-- A call of `waitForReady`: whether the channel has called back, and when `callback` was called
and with what. -/
structure Waiting where
  connected : Bool := false
  called : Option (ℚ × Option JsError) := none

/-- `cb`, which is `once(callback)`. -/
def Waiting.cb (s : Waiting) (time : ℚ) (error : Option JsError) : Waiting :=
  { s with called := s.called.or (some (time, error)) }

/-- The function given to `connect` runs. -/
def Waiting.connect (time : ℚ) (s : Waiting) (_ : Unit) : Option Waiting :=
  when (s.connected = false) { s.cb time none with connected := true }

/-- The function given to `setTimeout`. -/
def Waiting.expire (time : ℚ) (s : Waiting) : Option Waiting :=
  some (s.cb time (some (.error "Failed to connect before the deadline")))

/-- The callback does not get an error before the deadline. -/
def Waiting.OnTime (deadline : ℚ) (s : Waiting) : Prop :=
  ∀ time error, s.called = some (time, some error) → deadline ≤ time

/-- No callback does, for a call that has read the clock at `now`. -/
def NeverEarly (deadline : JsNumber) (limit : ℚ) (now : Int) : Prop :=
  ∀ started : ℚ, now ≤ started → ∀ acts,
    Runs.Always (Timer.step Waiting.connect Waiting.expire)
      (fun s => s.inner.OnTime limit) ⟨started, timerDue? deadline now started, {}⟩ acts

end WaitForReady

/-! ### When the delay is long enough -/

/-- The subtraction of doubles gives less than `q`. -/
def RoundedDown (q : ℚ) : Prop := ∃ r, JsNumber.ofRat q = .finite r ∧ r < q

/-- The deadline is at most a millisecond away, or as far as `setTimeout` can wait. -/
def InReach (deadline : ℚ) (now : Int) : Prop :=
  deadline - now ≤ 1 ∨ deadline - now ≤ 2 ^ 31 - 1 ∧ ¬ RoundedDown (deadline - now)

theorem one_le_setTimeoutDelay (x : JsNumber) : 1 ≤ setTimeoutDelay x := by
  unfold setTimeoutDelay
  split
  · split
    · rename_i h
      exact h.1
    · exact le_rfl
  · exact le_rfl

/-- Below 0 it makes no difference what the delay is. -/
theorem setTimeoutDelay_clamp (x : JsNumber) :
    setTimeoutDelay (if x.lt 0 then .finite 0 else x) = setTimeoutDelay x := by
  split
  · rename_i hlt
    have hzero : setTimeoutDelay (.finite 0) = 1 := by decide +kernel
    rw [hzero]
    cases x with
    | finite q =>
        rw [JsNumber.lt, decide_eq_true_iff, Nat.cast_zero] at hlt
        exact (if_neg fun h => absurd (h.1.trans_lt hlt) (by norm_num)).symm
    | _ => rfl
  · rfl

theorem le_setTimeoutDelay_iff {q : ℚ} :
    q ≤ setTimeoutDelay (.ofRat q) ↔ q ≤ 1 ∨ q ≤ 2 ^ 31 - 1 ∧ ¬ RoundedDown q := by
  by_cases hone : q ≤ 1
  · exact iff_of_true (hone.trans (one_le_setTimeoutDelay _)) (.inl hone)
  · have hpos : 0 < q := zero_lt_one.trans (not_le.mp hone)
    simp only [hone, false_or]
    have hle : ((1 : ℕ) : ℚ) ≤ q := by exact_mod_cast (not_le.mp hone).le
    rcases JsNumber.natCast_le_ofRat hpos (by decide) hle with hinf | ⟨r, hr, hle⟩
    · -- The delay is infinite, and the timer runs after a millisecond.
      rw [hinf]
      refine iff_of_false hone fun h => ?_
      have hbound : q ≤ ((2 ^ 31 - 1 : ℕ) : ℚ) := by exact_mod_cast h.1
      obtain ⟨r, hr, -⟩ := JsNumber.ofRat_le_natCast hpos (by decide) hbound
      exact absurd (hinf.symm.trans hr) nofun
    · rw [Nat.cast_one] at hle
      have hrounded : RoundedDown q ↔ r < q := by
        constructor
        · rintro ⟨r', hr', hlt⟩
          obtain rfl := JsNumber.finite.inj (hr.symm.trans hr')
          exact hlt
        · exact fun hlt => ⟨r, hr, hlt⟩
      rw [hr, hrounded, not_lt, setTimeoutDelay]
      by_cases hr' : r ≤ 2 ^ 31 - 1
      · rw [if_pos ⟨hle, hr'⟩]
        exact ⟨fun h => ⟨h.trans hr', h⟩, fun h => h.2⟩
      · -- The delay is too long, and so is the time that is left.
        rw [if_neg fun h => hr' h.2]
        refine iff_of_false hone fun h => hr' ?_
        have hbound : q ≤ ((2 ^ 31 - 1 : ℕ) : ℚ) := by exact_mod_cast h.1
        obtain ⟨r', hr'', -, hle'⟩ := JsNumber.ofRat_le_natCast hpos (by decide) hbound
        obtain rfl := JsNumber.finite.inj (hr.symm.trans hr'')
        exact_mod_cast hle'

variable {deadline : JsNumber} {limit : ℚ} {now : ℤ}

/-- The timer is due `limit - now` later, or a millisecond. -/
theorem timerDue?_eq (h : deadline.toRat? = some limit) (started : ℚ) :
    timerDue? deadline now started = some (started + setTimeoutDelay (.ofRat (limit - now))) := by
  have hsub : deadline ≠ noDeadline ∧
      setTimeoutDelay (deadline.sub now) = setTimeoutDelay (.ofRat (limit - now)) := by
    cases deadline with
    | nan => exact absurd h nofun
    | infinity negative => exact absurd h nofun
    | finite q =>
        obtain rfl := Option.some.inj h
        exact ⟨nofun, rfl⟩
    | negZero =>
        obtain rfl : 0 = limit := Option.some.inj h
        refine ⟨nofun, ?_⟩
        rw [JsNumber.sub]
        split
        · rename_i hnow
          rw [hnow]
          decide +kernel
        · rw [zero_sub]
  rw [timerDue?, timerDelay?, if_neg hsub.1]
  simp only [Option.map_some, setTimeoutDelay_clamp, hsub.2]

theorem limit_le_iff : limit ≤ now + setTimeoutDelay (.ofRat (limit - now)) ↔ InReach limit now := by
  rw [← sub_le_iff_le_add', le_setTimeoutDelay_iff]
  rfl

/-- A timer that is set at `started` keeps the deadline exactly if it is not due before. -/
theorem always_iff_limit_le {σ β : Type} {next : ℚ → σ → β → Option σ} {run : ℚ → σ → Option σ}
    {P : σ → Prop} {s : σ} (h : deadline.toRat? = some limit) (now : ℤ) {started : ℚ} (hs : P s)
    (hnext : ∀ time s act s', P s → next time s act = some s' → P s')
    (hrun : ∀ time s s', limit ≤ time → P s → run time s = some s' → P s')
    (hbreaks : ∀ time, time < limit → ∃ s', run time s = some s' ∧ ¬ P s') :
    (∀ acts, Runs.Always (Timer.step next run) (fun s => P s.inner)
      ⟨started, timerDue? deadline now started, s⟩ acts) ↔
        limit ≤ started + setTimeoutDelay (.ofRat (limit - now)) := by
  rw [timerDue?_eq h]
  refine Timer.always_iff_of_due ?_ hs hnext hrun (hbreaks _)
  exact le_add_of_nonneg_right (zero_le_one.trans (one_le_setTimeoutDelay _))

/-! ### The timers -/

namespace DeadlineFilter

theorem onTime_next {filterStack : ReceiveFilter} {time : ℚ} {s s' : Watched}
    {act : CallStream.Act} (hs : s.OnTime limit) (h : s.next filterStack time act = some s') :
    s'.OnTime limit := by
  obtain ⟨stream, -, rfl⟩ := Option.map_eq_some_iff.mp h
  exact hs

theorem onTime_expire {time : ℚ} {s s' : Watched} (hle : limit ≤ time) (hs : s.OnTime limit)
    (h : s.expire time = some s') : s'.OnTime limit := by
  obtain ⟨-, rfl⟩ := Runs.when_eq_some.mp h
  intro t ht
  dsimp only at ht
  split at ht
  · rcases List.mem_append.mp ht with ht | ht
    · exact hs t ht
    · rwa [List.mem_singleton.mp ht]
  · exact hs t ht

/-- The timer that runs too early ends the call too early. -/
theorem breaks_expire {time : ℚ} (hlt : time < limit) :
    ∃ s', Watched.expire time {} = some s' ∧ ¬ s'.OnTime limit := by
  refine ⟨_, Runs.when_eq_some.mpr ⟨rfl, rfl⟩, fun h => ?_⟩
  exact absurd (h time (List.mem_singleton.mpr rfl)) (not_le.mpr hlt)

theorem neverEarly_iff_inReach (h : deadline.toRat? = some limit) :
    NeverEarly deadline limit now ↔ InReach limit now := by
  have hdue : ∀ (filterStack : ReceiveFilter) (started : ℚ),
      (∀ acts, Runs.Always (Timer.step (Watched.next filterStack) Watched.expire)
        (fun s => s.inner.OnTime limit) ⟨started, timerDue? deadline now started, {}⟩ acts) ↔
        limit ≤ started + setTimeoutDelay (.ofRat (limit - now)) :=
    fun _ _ => always_iff_limit_le h now nofun (fun _ _ _ _ => onTime_next)
      (fun _ _ _ => onTime_expire) (fun _ => breaks_expire)
  rw [← limit_le_iff]
  constructor
  · intro hnever
    exact (hdue .base now).mp (hnever .base now le_rfl)
  · intro hle filterStack started hstarted
    exact (hdue filterStack started).mpr (hle.trans (add_le_add_left hstarted _))

end DeadlineFilter

namespace WaitForReady

theorem onTime_connect {time : ℚ} {s s' : Waiting} {act : Unit} (hs : s.OnTime limit)
    (h : s.connect time act = some s') : s'.OnTime limit := by
  obtain ⟨-, rfl⟩ := Runs.when_eq_some.mp h
  intro t e ht
  rcases Option.or_eq_some_iff.mp ht with hcalled | ⟨-, hcalled⟩
  · exact hs t e hcalled
  · exact absurd (congrArg Prod.snd (Option.some.inj hcalled)) nofun

theorem onTime_expire {time : ℚ} {s s' : Waiting} (hle : limit ≤ time) (hs : s.OnTime limit)
    (h : s.expire time = some s') : s'.OnTime limit := by
  obtain rfl := Option.some.inj h
  intro t e ht
  rcases Option.or_eq_some_iff.mp ht with hcalled | ⟨-, hcalled⟩
  · exact hs t e hcalled
  · obtain ⟨rfl, -⟩ := Prod.mk.inj (Option.some.inj hcalled)
    exact hle

/-- The timer that runs too early fails too early. -/
theorem breaks_expire {time : ℚ} (hlt : time < limit) :
    ∃ s', Waiting.expire time {} = some s' ∧ ¬ s'.OnTime limit := by
  refine ⟨_, rfl, fun h => ?_⟩
  exact absurd (h time _ rfl) (not_le.mpr hlt)

theorem neverEarly_iff_inReach (h : deadline.toRat? = some limit) :
    NeverEarly deadline limit now ↔ InReach limit now := by
  have hdue : ∀ started : ℚ, (∀ acts, Runs.Always (Timer.step Waiting.connect Waiting.expire)
        (fun s => s.inner.OnTime limit) ⟨started, timerDue? deadline now started, {}⟩ acts) ↔
        limit ≤ started + setTimeoutDelay (.ofRat (limit - now)) :=
    fun _ => always_iff_limit_le h now nofun (fun _ _ _ _ => onTime_connect)
      (fun _ _ _ => onTime_expire) (fun _ => breaks_expire)
  rw [← limit_le_iff]
  constructor
  · intro hnever
    exact (hdue now).mp (hnever now le_rfl)
  · intro hle started hstarted
    exact (hdue started).mpr (hle.trans (add_le_add_left hstarted _))

end WaitForReady

/-- **When a deadline does not fire early.** For every finite deadline and every time of the
call, neither timer runs too early, in any run, if and only if the deadline is in reach. -/
theorem neverEarly_iff {deadline : Deadline} {limit : ℚ} (h : deadline.getTime.toRat? = some limit)
    (now : ℤ) : (DeadlineFilter.NeverEarly deadline.getTime limit now ↔ InReach limit now) ∧
      (WaitForReady.NeverEarly deadline.getTime limit now ↔ InReach limit now) :=
  ⟨DeadlineFilter.neverEarly_iff_inReach h, WaitForReady.neverEarly_iff_inReach h⟩

theorem neverEarly_iff_second :
    (DeadlineFilter.NeverEarly (.finite 5000) 5000 4000 ↔ InReach 5000 4000) ∧
      (WaitForReady.NeverEarly (.finite 5000) 5000 4000 ↔ InReach 5000 4000) :=
  neverEarly_iff (show (Deadline.date (.finite 5000)).getTime.toRat? = some 5000 from rfl) 4000

/-- With a deadline `2 ^ 31` milliseconds away, both timers run after one. -/
theorem neverEarly_distant : ¬ DeadlineFilter.NeverEarly (.finite 2147487648) 2147487648 4000 ∧
    ¬ WaitForReady.NeverEarly (.finite 2147487648) 2147487648 4000 := by
  have hfar : ¬ InReach 2147487648 4000 := by
    rintro (h | ⟨h, -⟩)
    · exact absurd h (by norm_num)
    · exact absurd h (by norm_num)
  exact ⟨fun h => hfar ((DeadlineFilter.neverEarly_iff_inReach rfl).mp h),
    fun h => hfar ((WaitForReady.neverEarly_iff_inReach rfl).mp h)⟩

/-! ### Where nothing is rounded down -/

theorem inReach_iff_of_exact {limit : ℚ} {now : ℤ}
    (h : 1 < limit - now → limit - now ≤ 2 ^ 31 - 1 → ∃ (K : ℕ) (j : ℤ),
      limit - now = K * 2 ^ j ∧ K < 2 ^ 53 ∧ -1074 ≤ j) :
    InReach limit now ↔ limit - now ≤ 2 ^ 31 - 1 := by
  constructor
  · rintro (hone | hreach)
    · exact hone.trans (by norm_num)
    · exact hreach.1
  · intro hreach
    rcases le_or_gt (limit - now) 1 with hone | hone
    · exact .inl hone
    · refine .inr ⟨hreach, ?_⟩
      rintro ⟨r, hr, hlt⟩
      obtain ⟨K, j, hq, hK, hj⟩ := h hone hreach
      have habs : |limit - now| = limit - now := abs_of_pos (zero_lt_one.trans hone)
      have hsmall : |limit - now| < 2 ^ 53 := by
        rw [habs]
        exact hreach.trans_lt (by norm_num)
      rw [JsNumber.ofRat_of_double (habs.trans hq) hK hj hsmall] at hr
      exact absurd (JsNumber.finite.inj hr) hlt.ne'

/-- An integral deadline is in reach if it is at most `2 ^ 31 - 1` milliseconds away. -/
theorem inReach_integral_iff {z now : ℤ} : InReach z now ↔ z - now ≤ 2 ^ 31 - 1 := by
  have hcast : (z : ℚ) - now = ((z - now : ℤ) : ℚ) := (Int.cast_sub z now).symm
  have hbound : (z : ℚ) - now ≤ 2 ^ 31 - 1 ↔ z - now ≤ 2 ^ 31 - 1 := by
    rw [hcast]
    exact_mod_cast Iff.rfl
  rw [← hbound]
  refine inReach_iff_of_exact fun hone hreach => ?_
  obtain ⟨n, hn⟩ := Int.eq_ofNat_of_zero_le (a := z - now) (by
    rw [hcast] at hone
    have : (1 : ℤ) < z - now := by exact_mod_cast hone
    omega)
  refine ⟨n, 0, ?_, ?_, by decide⟩
  · rw [hcast, hn, zpow_zero, mul_one, Int.cast_natCast]
  · have := hbound.mp hreach
    omega

/-- So is any double, for a clock that is past 1970. -/
theorem inReach_double_iff {limit : ℚ} {K : ℕ} {j : ℤ} (hlimit : limit = K * 2 ^ j)
    (hK : K < 2 ^ 53) (hj : -1074 ≤ j) {now : ℕ} :
    InReach limit (now : ℤ) ↔ limit - (now : ℤ) ≤ 2 ^ 31 - 1 := by
  refine inReach_iff_of_exact fun hone hreach => ?_
  rw [Int.cast_natCast] at hone hreach ⊢
  rcases le_or_gt 0 j with hnonneg | hneg
  · -- The deadline is an integer.
    obtain ⟨i, rfl⟩ := Int.eq_ofNat_of_zero_le hnonneg
    have hint : limit = ((K * 2 ^ i : ℕ) : ℚ) := by
      rw [hlimit]
      push_cast
      rw [zpow_natCast]
    rw [hint] at hone hreach ⊢
    have hle : now ≤ K * 2 ^ i := by
      have : (now : ℚ) < ((K * 2 ^ i : ℕ) : ℚ) := by linarith
      exact_mod_cast this.le
    rw [← Nat.cast_sub hle] at hreach ⊢
    refine ⟨K * 2 ^ i - now, 0, by rw [zpow_zero, mul_one], ?_, by decide⟩
    have hsmall : ((K * 2 ^ i - now : ℕ) : ℚ) < 2 ^ 53 := hreach.trans_lt (by norm_num)
    exact_mod_cast hsmall
  · -- The clock is a multiple of the last bit of the deadline.
    obtain ⟨i, hi⟩ := Int.eq_ofNat_of_zero_le (neg_pos.mpr hneg).le
    have hnow : (now : ℚ) = ((now * 2 ^ i : ℕ) : ℚ) * 2 ^ j := by
      rw [show j = -(i : ℤ) by omega, zpow_neg, zpow_natCast]
      push_cast
      field_simp
    have hpow : (0 : ℚ) < 2 ^ j := by positivity
    have hle : now * 2 ^ i ≤ K := by
      have : ((now * 2 ^ i : ℕ) : ℚ) * 2 ^ j < K * 2 ^ j := by
        rw [← hnow, ← hlimit]
        linarith
      exact_mod_cast (lt_of_mul_lt_mul_right this hpow.le).le
    refine ⟨K - now * 2 ^ i, j, ?_, by omega, hj⟩
    rw [hlimit, hnow, Nat.cast_sub hle, sub_mul]

end GrpcNode.JsCore
