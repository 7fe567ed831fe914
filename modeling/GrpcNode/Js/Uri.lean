import GrpcNode.Js.Number
import GrpcNode.Js.Object

/-!
# GrpcNode.Js.Uri

`decodeURI`: percent-encoded UTF-8, except that the escapes of the reserved characters
stay as they are. An escape that is cut short, and bytes that are not UTF-8, are a
`URIError`.
-/

namespace GrpcNode.Js

/-- `reservedURISet`: the reserved characters, and `#`. -/
def reservedUri : List Char := ";/?:@&=+$,#".toList

/-- One escape `%XX` and what follows it. -/
def escape? : List Char → Option (Nat × List Char)
  | '%' :: a :: b :: cs => do
      let high ← digitValue? 16 a
      let low ← digitValue? 16 b
      return (16 * high + low, cs)
  | _ => none

/-- `n` escaped continuation bytes after the bits `bits` of a character. -/
def continuation? : Nat → Nat → List Char → Option (Nat × List Char)
  | 0, bits, cs => some (bits, cs)
  | n + 1, bits, cs =>
      match escape? cs with
      | some (byte, cs) =>
          if 0x80 ≤ byte ∧ byte < 0xC0 then continuation? n (64 * bits + byte % 64) cs else none
      | none => none

/-- The least character whose UTF-8 form has `n` continuation bytes. -/
def leastOfLength : Nat → Nat
  | 1 => 0x80
  | 2 => 0x800
  | _ => 0x10000

/-- A character of several bytes, the first of which is `byte`. -/
def multibyte? (byte : Nat) (cs : List Char) : Option (Char × List Char) := do
  let (n, bits) ←
    if 0xC0 ≤ byte ∧ byte < 0xE0 then some (1, byte % 32)
    else if 0xE0 ≤ byte ∧ byte < 0xF0 then some (2, byte % 16)
    else if 0xF0 ≤ byte ∧ byte < 0xF8 then some (3, byte % 8)
    else none
  let (v, cs) ← continuation? n bits cs
  if leastOfLength n ≤ v ∧ v.isValidChar then return (Char.ofNat v, cs) else none

/-- The first character of the decoded string with what is left to decode. A reserved
character gives its escape back, which is why this is a list. -/
def decodeUriHead? : List Char → Option (List Char × List Char)
  | [] => none
  | c :: cs =>
      if c ≠ '%' then some ([c], cs)
      else match escape? (c :: cs) with
        | none => none
        | some (byte, rest) =>
            if byte < 0x80 then
              let decoded := Char.ofNat byte
              some (if decoded ∈ reservedUri then (c :: cs).take 3 else [decoded], rest)
            else (multibyte? byte rest).map fun r => ([r.1], r.2)

/-- The loop of `decodeURI`; each pass takes a character at least, which the fuel
counts. -/
def decodeUriLoop : Nat → List Char → Option (List Char)
  | _, [] => some []
  | 0, _ :: _ => none
  | fuel + 1, cs => do
      let (decoded, rest) ← decodeUriHead? cs
      return decoded ++ (← decodeUriLoop fuel rest)

/-- `decodeURI(s)` -/
def decodeURI (s : String) : Except JsError String :=
  match decodeUriLoop s.length s.toList with
  | some cs => .ok (String.ofList cs)
  | none => .error (.uriError "URI malformed")

end GrpcNode.Js
