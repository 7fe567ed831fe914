import Mathlib.Algebra.Ring.Rat
import Mathlib.Tactic.Common

/-!
# GrpcNode.Js.Number

The number type of JavaScript: the double-precision values, and what `Number(s)` makes
of a string.

A finite number is the rational it denotes; `-0` is kept apart from `0`, because the
two differ for the typed checks of V8.
-/

namespace GrpcNode.Js

/-- A value of the number type. -/
inductive JsNumber
  | nan
  | infinity (negative : Bool)
  | negZero
  | finite (q : ℚ)
  deriving Repr, DecidableEq

/-! ### Rounding to a double -/

/-- `⌊log₂ (n / d)⌋` -/
def floorLog2 (n d : Nat) : Int :=
  let k : Int := (Nat.log2 n : Int) - Nat.log2 d
  if d * 2 ^ k.toNat ≤ n * 2 ^ (-k).toNat then k else k - 1

/-- `n / d`, rounded to the nearest integer, ties to the even one. -/
def roundHalfEven (n d : Nat) : Nat :=
  let q := n / d
  let r := 2 * (n % d)
  if r < d then q else if d < r then q + 1 else q + q % 2

namespace JsNumber

/-- Zero with a sign. -/
def zero (negative : Bool) : JsNumber := if negative then negZero else finite 0

/-- The double nearest to `± n / d`: 53 significant bits, the last of them worth at
least `2⁻¹⁰⁷⁴`. -/
def ofRatio (negative : Bool) (n d : Nat) : JsNumber :=
  -- The last bit of the result has the weight `2 ^ e`.
  let e := max (floorLog2 n d - 52) (-1074)
  let m := roundHalfEven (n * 2 ^ (-e).toNat) (d * 2 ^ e.toNat)
  if n = 0 ∨ m = 0 then zero negative
  else if 2 ^ 1024 ≤ m * 2 ^ e.toNat then infinity negative
  else
    let q := mkRat (m * 2 ^ e.toNat) (2 ^ (-e).toNat)
    finite (if negative then -q else q)

end JsNumber

/-! ### `Number(s)` -/

/-- `WhiteSpace` and `LineTerminator`. -/
def isWhiteSpace (c : Char) : Bool :=
  (9 ≤ c.toNat && c.toNat ≤ 13) || (0x2000 ≤ c.toNat && c.toNat ≤ 0x200A) ||
    [0x20, 0xA0, 0x1680, 0x2028, 0x2029, 0x202F, 0x205F, 0x3000, 0xFEFF].contains c.toNat

/-- The string without the white space at its ends. -/
def trim (cs : List Char) : List Char :=
  ((cs.dropWhile isWhiteSpace).reverse.dropWhile isWhiteSpace).reverse

/-- The value of a digit of base `base`. -/
def digitValue? (base : Nat) (c : Char) : Option Nat :=
  let v :=
    if '0' ≤ c ∧ c ≤ '9' then c.toNat - '0'.toNat
    else if 'a' ≤ c ∧ c ≤ 'z' then c.toNat - 'a'.toNat + 10
    else if 'A' ≤ c ∧ c ≤ 'Z' then c.toNat - 'A'.toNat + 10
    else base
  if v < base then some v else none

/-- The value of a non-empty sequence of digits. -/
def digitsValue? (base : Nat) (cs : List Char) : Option Nat :=
  if cs = [] then none
  else cs.foldlM (fun v c => (digitValue? base c).map (base * v + ·)) 0

/-- `SignedInteger`: the exponent of a decimal literal. -/
def signedInteger? : List Char → Option Int
  | '+' :: cs => (digitsValue? 10 cs).map Int.ofNat
  | '-' :: cs => (digitsValue? 10 cs).map fun n => -Int.ofNat n
  | cs => (digitsValue? 10 cs).map Int.ofNat

/-- What follows the digits of a decimal literal: nothing, or an exponent. -/
def exponent? : List Char → Option Int
  | [] => some 0
  | c :: cs => if c = 'e' ∨ c = 'E' then signedInteger? cs else none

/-- `StrUnsignedDecimalLiteral` -/
def unsignedDecimal (negative : Bool) (cs : List Char) : JsNumber :=
  if cs = "Infinity".toList then .infinity negative
  else
    let int := cs.takeWhile Char.isDigit
    let rest := cs.dropWhile Char.isDigit
    let (frac, rest) := match rest with
      | '.' :: rest => (rest.takeWhile Char.isDigit, rest.dropWhile Char.isDigit)
      | rest => ([], rest)
    match digitsValue? 10 (int ++ frac), exponent? rest with
    | some n, some e =>
        let e := e - frac.length
        .ofRatio negative (n * 10 ^ e.toNat) (10 ^ (-e).toNat)
    | _, _ => .nan

/-- `Number(s)` -/
def JsNumber.ofString (s : String) : JsNumber :=
  let nonDecimal (base : Nat) (cs : List Char) : JsNumber :=
    match digitsValue? base cs with
    | some n => .ofRatio false n 1
    | none => .nan
  match trim s.toList with
  | [] => .finite 0
  | '0' :: 'x' :: cs | '0' :: 'X' :: cs => nonDecimal 16 cs
  | '0' :: 'o' :: cs | '0' :: 'O' :: cs => nonDecimal 8 cs
  | '0' :: 'b' :: cs | '0' :: 'B' :: cs => nonDecimal 2 cs
  | '-' :: cs => unsignedDecimal true cs
  | '+' :: cs => unsignedDecimal false cs
  | cs => unsignedDecimal false cs

/-! ### Arithmetic with integers, and `String(n)` -/

namespace JsNumber

/-- The double nearest to a rational. -/
def ofRat (q : ℚ) : JsNumber := ofRatio (q < 0) q.num.natAbs q.den

/-- `x - n` -/
def sub : JsNumber → Int → JsNumber
  | finite q, n => ofRat (q - n)
  | negZero, n => if n = 0 then negZero else ofRat (-n)
  | x, _ => x

/-- `x / d`, for `0 < d` -/
def div : JsNumber → Nat → JsNumber
  | finite q, d => ofRat (q / d)
  | x, _ => x

/-- `x < n` -/
def lt : JsNumber → Nat → Bool
  | nan, _ => false
  | infinity negative, _ => negative
  | negZero, n => 0 < n
  | finite q, n => q < n

/-- `Math.ceil(x)` -/
def ceil : JsNumber → JsNumber
  | finite q => if q < 0 ∧ q.ceil = 0 then negZero else finite q.ceil
  | x => x

end JsNumber

/-- Of the decimal numbers that are nearer to the double `n` than to any other double,
one with the least number of digits before its zeros. -/
def shortest (n : Nat) : Nat :=
  -- Candidates with fewer digits come first, and `n` itself is the last resort.
  let length := (toString n).length
  let candidates := (List.range length).map fun i =>
    roundHalfEven n (10 ^ (length - (i + 1))) * 10 ^ (length - (i + 1))
  (candidates.find? fun w => JsNumber.ofRatio false w 1 = .finite n).getD n

/-- `String(n)` of a non-negative integral double. -/
def naturalText (n : Nat) : String :=
  let digits := toString (shortest n)
  if digits.length ≤ 21 then digits
  else
    let significant := (digits.toList.reverse.dropWhile (· = '0')).reverse
    let exponent := "e+" ++ toString (digits.length - 1)
    match significant with
    | d :: [] => String.ofList [d] ++ exponent
    | d :: ds => String.ofList (d :: '.' :: ds) ++ exponent
    | [] => digits

/-- `String(x)`, where `x` is integral or not finite. -/
def JsNumber.toText : JsNumber → String
  | nan => "NaN"
  | infinity negative => if negative then "-Infinity" else "Infinity"
  | negZero => "0"
  | finite q => (if q < 0 then "-" else "") ++ naturalText q.num.natAbs

/-! ### The characters of `String(n)` -/

/-- The characters that `String(x)` uses. -/
def isNumberChar (c : Char) : Bool := c.isDigit || "-+.eNaInfity".toList.contains c

theorem isNumberChar_of_mem {s : String} (hs : s.toList.all isNumberChar = true) {c : Char}
    (h : c ∈ s.toList) : isNumberChar c :=
  List.all_eq_true.mp hs c h

theorem isNumberChar_toString {n : Nat} {c : Char} (h : c ∈ (toString n).toList) :
    isNumberChar c := by
  rw [Nat.toString_eq_ofList_toDigits, String.toList_ofList] at h
  rw [isNumberChar, Nat.isDigit_of_mem_toDigits (by decide) (by decide) h, Bool.true_or]

theorem isNumberChar_naturalText {n : Nat} {c : Char} (h : c ∈ (naturalText n).toList) :
    isNumberChar c := by
  -- The significant digits are digits of the number, and the exponent adds `e+`.
  have hexponent : ∀ {k : Nat}, c ∈ ("e+" ++ toString k).toList → isNumberChar c := by
    intro k hc
    rw [String.toList_append, List.mem_append] at hc
    rcases hc with hc | hc
    · exact isNumberChar_of_mem (by decide) hc
    · exact isNumberChar_toString hc
  have hsignificant : ∀ {d : Char} {k : Nat},
      d ∈ ((toString k).toList.reverse.dropWhile (· = '0')).reverse → isNumberChar d := by
    intro d k hd
    exact isNumberChar_toString
      (List.mem_reverse.mp ((List.dropWhile_sublist _).subset (List.mem_reverse.mp hd)))
  unfold naturalText at h
  dsimp only at h
  split at h
  · exact isNumberChar_toString h
  · split at h
    · rename_i d hd
      rw [String.toList_append, String.toList_ofList, List.mem_append, List.mem_singleton] at h
      rcases h with rfl | h
      · exact hsignificant (by rw [hd]; exact .head _)
      · exact hexponent h
    · rename_i d ds hd hds
      rw [String.toList_append, String.toList_ofList, List.mem_append] at h
      rcases h with h | h
      · rcases List.mem_cons.mp h with rfl | h
        · exact hsignificant (by rw [hds]; exact .head _)
        · rcases List.mem_cons.mp h with rfl | h
          · decide
          · exact hsignificant (by rw [hds]; exact .tail _ h)
      · exact hexponent h
    · exact isNumberChar_toString h

theorem JsNumber.isNumberChar_toText {x : JsNumber} {c : Char} (h : c ∈ x.toText.toList) :
    isNumberChar c := by
  cases x with
  | nan => exact isNumberChar_of_mem (by decide) h
  | infinity negative =>
      cases negative with
      | true => exact isNumberChar_of_mem (by decide) h
      | false => exact isNumberChar_of_mem (by decide) h
  | negZero => exact isNumberChar_of_mem (by decide) h
  | finite q =>
      rw [toText, String.toList_append, List.mem_append] at h
      rcases h with h | h
      · split at h
        · exact isNumberChar_of_mem (by decide) h
        · exact absurd h List.not_mem_nil
      · exact isNumberChar_naturalText h

theorem printable_of_isNumberChar {c : Char} (h : isNumberChar c) : ' ' ≤ c ∧ c ≤ '~' := by
  rw [isNumberChar, Bool.or_eq_true] at h
  rcases h with h | h
  · rw [Char.isDigit, Bool.and_eq_true, decide_eq_true_iff, decide_eq_true_iff] at h
    exact ⟨UInt32.le_trans (show ' '.val ≤ 48 by decide) h.1,
      UInt32.le_trans h.2 (show 57 ≤ '~'.val by decide)⟩
  · have hall : ("-+.eNaInfity".toList.all fun c => ' ' ≤ c ∧ c ≤ '~') = true := by decide
    exact decide_eq_true_iff.mp (List.all_eq_true.mp hall c (List.contains_iff_mem.mp h))

/-! ### Typed checks -/

/-- `IsUint32()` of V8, which tells `-0` from `0`. -/
def JsNumber.isUint32 : JsNumber → Bool
  | .finite q => q.den = 1 && 0 ≤ q.num && q.num < 2 ^ 32
  | _ => false

/-- The index that a number denotes as a property name, if it denotes one: `-0` is
written `0`. -/
def JsNumber.toIndex? : JsNumber → Option Nat
  | .negZero => some 0
  | .finite q => if q.den = 1 ∧ 0 ≤ q.num then some q.num.toNat else none
  | _ => none

/-! ### Values -/

/-- The value of a finite number. -/
def JsNumber.toRat? : JsNumber → Option ℚ
  | .finite q => some q
  | .negZero => some 0
  | _ => none

/-- The integer that a number is. -/
def JsNumber.toInt? : JsNumber → Option Int
  | .finite q => if q.den = 1 then some q.num else none
  | .negZero => some 0
  | _ => none

@[simp] theorem JsNumber.toInt?_intCast (z : ℤ) : (JsNumber.finite z).toInt? = some z := by
  simp [toInt?]

end GrpcNode.Js
