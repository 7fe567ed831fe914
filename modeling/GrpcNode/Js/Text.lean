import GrpcNode.Js.Buffer

/-!
# GrpcNode.Js.Text

The string operations of JavaScript and Node that the sources use on header names and
values: `toLowerCase`, `endsWith`, the lengths and the bytes, and the two directions of base64.
-/

namespace GrpcNode.Js

/-- What `toLowerCase` makes of one character. Besides `A`..`Z`, the Kelvin sign
U+212A is the one character whose lower-case form is ASCII, and U+0130 the one whose
form begins with an ASCII letter. Every other character keeps or gets a form without
ASCII characters; those are not told apart here. -/
def lowerChar (c : Char) : List Char :=
  if 'A' ≤ c ∧ c ≤ 'Z' then [Char.ofNat (c.toNat + 32)]
  else if c = '\u212A' then ['k']
  else if c = '\u0130' then ['i', '\u0307']
  else [c]

/-- `s.toLowerCase()`. -/
def toLowerCase (s : String) : String := String.ofList (s.toList.flatMap lowerChar)

/-- `s.endsWith(suffix)`. -/
def endsWith (s suffix : String) : Bool := suffix.toList.isSuffixOf s.toList

/-- `s.length`: the number of UTF-16 code units. -/
def utf16Length (s : String) : Nat :=
  (s.toList.map fun c => if c.toNat < 0x10000 then 1 else 2).sum

/-- The UTF-8 form of a string. -/
def toUtf8 (s : String) : Buffer := s.toList.flatMap String.utf8EncodeChar

namespace Base64

/-- The character for six bits. -/
def digit (n : Nat) : Char :=
  if n < 26 then Char.ofNat (n + 65)
  else if n < 52 then Char.ofNat (n + 71)
  else if n < 62 then Char.ofNat (n - 4)
  else if n = 62 then '+'
  else '/'

/-- The padded encoding, three bytes at a time. -/
def encode : Buffer → List Char
  | a :: b :: c :: rest =>
      digit (a.toNat / 4) :: digit (a.toNat % 4 * 16 + b.toNat / 16) ::
        digit (b.toNat % 16 * 4 + c.toNat / 64) :: digit (c.toNat % 64) :: encode rest
  | [a, b] =>
      [digit (a.toNat / 4), digit (a.toNat % 4 * 16 + b.toNat / 16), digit (b.toNat % 16 * 4), '=']
  | [a] => [digit (a.toNat / 4), digit (a.toNat % 4 * 16), '=', '=']
  | [] => []

/-- The six bits a character stands for, in the usual or in the URL alphabet. -/
def value? (c : Char) : Option Nat :=
  if 'A' ≤ c ∧ c ≤ 'Z' then some (c.toNat - 65)
  else if 'a' ≤ c ∧ c ≤ 'z' then some (c.toNat - 71)
  else if '0' ≤ c ∧ c ≤ '9' then some (c.toNat + 4)
  else if c = '+' ∨ c = '-' then some 62
  else if c = '/' ∨ c = '_' then some 63
  else none

/-- The bytes of a sequence of six-bit digits; six bits left over are dropped. -/
def bytes : List Nat → Buffer
  | a :: b :: c :: d :: rest =>
      UInt8.ofNat (a * 4 + b / 16) :: UInt8.ofNat (b % 16 * 16 + c / 4) ::
        UInt8.ofNat (c % 4 * 64 + d) :: bytes rest
  | [a, b, c] => [UInt8.ofNat (a * 4 + b / 16), UInt8.ofNat (b % 16 * 16 + c / 4)]
  | [a, b] => [UInt8.ofNat (a * 4 + b / 16)]
  | _ => []

end Base64

/-- `buf.toString('base64')`. -/
def toBase64 (buf : Buffer) : String := String.ofList (Base64.encode buf)

/-- `Buffer.from(s, 'base64')`: characters outside the alphabets, padding included, are
skipped. -/
def fromBase64 (s : String) : Buffer := Base64.bytes (s.toList.filterMap Base64.value?)

example : toBase64 [0, 1, 2, 3] = "AAECAw==" := by decide

example : fromBase64 "AAECAw==" = [0, 1, 2, 3] := by decide

end GrpcNode.Js
