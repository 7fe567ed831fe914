import GrpcNode.Js.Text

/-!
# GrpcNode.Js.Base64

The base64 text of a buffer: it reads back as the buffer, whatever the length, and it is
printable ASCII.
-/

namespace GrpcNode.Js

namespace Base64

/-! ### The alphabet -/

theorem value?_digit : ∀ n < 64, value? (digit n) = some n := by
  decide

theorem value?_pad : value? '=' = none := by
  decide

theorem printable_digit (n : Nat) : ' ' ≤ digit n ∧ digit n ≤ '~' := by
  by_cases hn : n < 64
  · have hall : ∀ n < 64, ' ' ≤ digit n ∧ digit n ≤ '~' := by decide
    exact hall n hn
  · have hslash : digit n = '/' := by
      rw [digit, if_neg (by omega), if_neg (by omega), if_neg (by omega), if_neg (by omega)]
    rw [hslash]
    decide

theorem printable_encode (buf : Buffer) : ∀ c ∈ encode buf, ' ' ≤ c ∧ c ≤ '~' := by
  have hpad : ' ' ≤ '=' ∧ '=' ≤ '~' := by decide
  induction buf using encode.induct with
  | case1 a b c rest ih => simpa [encode, printable_digit] using ih
  | case2 a b => simp [encode, printable_digit, hpad]
  | case3 a => simp [encode, printable_digit, hpad]
  | case4 => simp [encode]

/-! ### The round trip -/

theorem ofNat_eq {n : Nat} {a : UInt8} (h : n = a.toNat) : UInt8.ofNat n = a := by
  rw [h]
  exact UInt8.ofNat_toNat

/-- The first byte of a group is in its first two digits; the rest of the second is of the
next byte. -/
theorem first_byte (a : UInt8) {next : Nat} (h : next < 16) :
    UInt8.ofNat (a.toNat / 4 * 4 + (a.toNat % 4 * 16 + next) / 16) = a :=
  ofNat_eq (by omega)

theorem second_byte (b : UInt8) (previous : Nat) {next : Nat} (h : next < 4) :
    UInt8.ofNat ((previous * 16 + b.toNat / 16) % 16 * 16 + (b.toNat % 16 * 4 + next) / 4) = b :=
  ofNat_eq (by have hb := b.toNat_lt; omega)

theorem third_byte (c : UInt8) (previous : Nat) :
    UInt8.ofNat ((previous * 4 + c.toNat / 64) % 4 * 64 + c.toNat % 64) = c :=
  ofNat_eq (by have hc := c.toNat_lt; omega)

theorem bytes_encode (buf : Buffer) : bytes ((encode buf).filterMap value?) = buf := by
  induction buf using encode.induct with
  | case1 a b c rest ih =>
      have ha := a.toNat_lt
      have hb := b.toNat_lt
      have hc := c.toNat_lt
      simp only [encode, List.filterMap_cons, value?_digit (a.toNat / 4) (by omega),
        value?_digit (a.toNat % 4 * 16 + b.toNat / 16) (by omega),
        value?_digit (b.toNat % 16 * 4 + c.toNat / 64) (by omega),
        value?_digit (c.toNat % 64) (by omega), bytes, ih]
      rw [first_byte a (by omega), second_byte b _ (by omega), third_byte c]
  | case2 a b =>
      have ha := a.toNat_lt
      have hb := b.toNat_lt
      simp only [encode, List.filterMap_cons, List.filterMap_nil, value?_pad,
        value?_digit (a.toNat / 4) (by omega),
        value?_digit (a.toNat % 4 * 16 + b.toNat / 16) (by omega),
        value?_digit (b.toNat % 16 * 4) (by omega), bytes]
      rw [first_byte a (by omega)]
      exact congrArg (fun x => [a, x]) (second_byte b _ (show 0 < 4 by omega))
  | case3 a =>
      have ha := a.toNat_lt
      simp only [encode, List.filterMap_cons, List.filterMap_nil, value?_pad,
        value?_digit (a.toNat / 4) (by omega), value?_digit (a.toNat % 4 * 16) (by omega), bytes]
      exact congrArg (fun x => [x]) (first_byte a (show 0 < 16 by omega))
  | case4 => rfl

end Base64

/-- **Base64 loses nothing**: the text of a buffer reads back as the buffer, whatever its
length. -/
theorem fromBase64_toBase64 (buf : Buffer) : fromBase64 (toBase64 buf) = buf := by
  rw [fromBase64, toBase64, String.toList_ofList, Base64.bytes_encode]

theorem printable_toBase64 {buf : Buffer} {c : Char} (h : c ∈ (toBase64 buf).toList) :
    ' ' ≤ c ∧ c ≤ '~' := by
  rw [toBase64, String.toList_ofList] at h
  exact Base64.printable_encode buf c h

end GrpcNode.Js
