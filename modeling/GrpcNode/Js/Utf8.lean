import GrpcNode.Js.Text
import GrpcNode.Lib.Transducer

/-!
# GrpcNode.Js.Utf8

Reading UTF-8 back into a string. What is not UTF-8 is read as U+FFFD, one for each longest
piece that could have been the beginning of a character, as the Encoding Standard has it.

The decoder takes a byte at a time. `run_encodeChar` says that it reads a character from the
bytes of the character, and `run_cutChar` that it waits for more after some of them.
-/

namespace GrpcNode.Js

/-- U+FFFD -/
def replacementCharacter : Char := '\uFFFD'

/-- The state of the decoder: between two characters or inside one, with the bits it has read of
it, the number of bytes needed after the next one, and the bounds of the next one. -/
inductive Utf8Decoder
  | start
  | inside (codePoint needed lower upper : Nat)

namespace Utf8Decoder

/-- The first byte of a character. -/
def lead (b : Nat) : Utf8Decoder × List Char :=
  if b < 0x80 then (start, [Char.ofNat b])
  else if 0xC2 ≤ b ∧ b < 0xE0 then (inside (b - 0xC0) 0 0x80 0xBF, [])
  else if 0xE0 ≤ b ∧ b < 0xF0 then
    -- Neither an overlong form nor a surrogate.
    (inside (b - 0xE0) 1 (if b = 0xE0 then 0xA0 else 0x80) (if b = 0xED then 0x9F else 0xBF), [])
  else if 0xF0 ≤ b ∧ b < 0xF5 then
    (inside (b - 0xF0) 2 (if b = 0xF0 then 0x90 else 0x80) (if b = 0xF4 then 0x8F else 0xBF), [])
  else (start, [replacementCharacter])

def step : Utf8Decoder → UInt8 → Utf8Decoder × List Char
  | start, b => lead b.toNat
  | inside codePoint needed lower upper, b =>
      if lower ≤ b.toNat ∧ b.toNat ≤ upper then
        let codePoint := codePoint * 64 + b.toNat % 64
        match needed with
        | 0 => (start, [Char.ofNat codePoint])
        | needed + 1 => (inside codePoint needed 0x80 0xBF, [])
      else
        -- The byte that does not fit may begin the next character.
        let next := lead b.toNat
        (next.1, replacementCharacter :: next.2)

/-- What the end of the bytes adds. -/
def finish : Utf8Decoder → List Char
  | start => []
  | inside .. => [replacementCharacter]

end Utf8Decoder

/-- The characters that bytes are read as. -/
def utf8Chars (bytes : Buffer) : List Char :=
  let read := Transducer.run Utf8Decoder.step .start bytes
  read.2 ++ read.1.finish

/-- `String::NewFromUtf8` -/
def fromUtf8 (bytes : Buffer) : String := String.ofList (utf8Chars bytes)

namespace Utf8Decoder

/-! ### One character -/

theorem step_tail {codePoint lower upper n : Nat} (needed : Nat) (hlower : lower ≤ n + 0x80)
    (hupper : n + 0x80 ≤ upper) (hn : n < 64) :
    step (inside codePoint needed lower upper) (UInt8.ofNat (n + 0x80)) =
      match needed with
      | 0 => (start, [Char.ofNat (codePoint * 64 + n)])
      | needed + 1 => (inside (codePoint * 64 + n) needed 0x80 0xBF, []) := by
  have hbyte : (UInt8.ofNat (n + 0x80)).toNat = n + 0x80 := by
    rw [UInt8.toNat_ofNat']
    omega
  have hmod : (n + 0x80) % 64 = n := by omega
  rw [step, hbyte, if_pos ⟨hlower, hupper⟩, hmod]

/-- The bytes of the code point `v` after its first: the last `n + 1` groups of six bits. -/
def tailBytes (v : Nat) : Nat → Buffer
  | 0 => [UInt8.ofNat (v % 64 + 0x80)]
  | n + 1 => UInt8.ofNat (v / 64 ^ (n + 1) % 64 + 0x80) :: tailBytes v n

/-- The decoder has read all of `v` but the last `n + 1` groups, and accepts the next one. -/
def WaitsFor (v n : Nat) (decoder : Utf8Decoder) : Prop :=
  ∃ lower upper, decoder = inside (v / 64 ^ (n + 1)) n lower upper ∧
    lower ≤ v / 64 ^ n % 64 + 0x80 ∧ v / 64 ^ n % 64 + 0x80 ≤ upper

namespace WaitsFor

variable {v n : Nat} {decoder : Utf8Decoder}

theorem finish_eq (h : WaitsFor v n decoder) : decoder.finish = [replacementCharacter] := by
  obtain ⟨lower, upper, rfl, -, -⟩ := h
  rfl

theorem step_last (h : WaitsFor v 0 decoder) :
    step decoder (UInt8.ofNat (v % 64 + 0x80)) = (start, [Char.ofNat v]) := by
  obtain ⟨lower, upper, rfl, hlower, hupper⟩ := h
  rw [Nat.pow_zero, Nat.div_one] at hlower hupper
  rw [step_tail 0 hlower hupper (Nat.mod_lt v (by decide)), Nat.zero_add, Nat.pow_one,
    Nat.div_add_mod']

theorem step_next (h : WaitsFor v (n + 1) decoder) :
    ∃ next, step decoder (UInt8.ofNat (v / 64 ^ (n + 1) % 64 + 0x80)) = (next, []) ∧
      WaitsFor v n next := by
  obtain ⟨lower, upper, rfl, hlower, hupper⟩ := h
  have hgroup := Nat.mod_lt (v / 64 ^ (n + 1)) (show 0 < 64 by decide)
  rw [step_tail (n + 1) hlower hupper hgroup, Nat.pow_succ 64 (n + 1), ← Nat.div_div_eq_div_mul,
    Nat.div_add_mod']
  exact ⟨_, rfl, 0x80, 0xBF, rfl, by omega, by omega⟩

theorem run (h : WaitsFor v n decoder) :
    Transducer.run step decoder (tailBytes v n) = (start, [Char.ofNat v]) := by
  induction n generalizing decoder with
  | zero => rw [tailBytes, Transducer.run_cons, h.step_last, Transducer.run_nil]; rfl
  | succ n ih =>
      obtain ⟨next, hstep, hnext⟩ := h.step_next
      rw [tailBytes, Transducer.run_cons, hstep, ih hnext]
      rfl

/-- Some of the bytes, but not all of them. -/
theorem run_cut (h : WaitsFor v n decoder) {bytes : Buffer} (hbytes : bytes <+: tailBytes v n)
    (hcut : bytes ≠ tailBytes v n) :
    ∃ next, Transducer.run step decoder bytes = (next, []) ∧
      next.finish = [replacementCharacter] := by
  induction n generalizing decoder bytes with
  | zero =>
      rcases List.prefix_cons_iff.mp hbytes with rfl | ⟨rest, rfl, hrest⟩
      · exact ⟨decoder, rfl, h.finish_eq⟩
      · obtain rfl := List.prefix_nil.mp hrest
        exact absurd rfl hcut
  | succ n ih =>
      rcases List.prefix_cons_iff.mp hbytes with rfl | ⟨rest, rfl, hrest⟩
      · exact ⟨decoder, rfl, h.finish_eq⟩
      · obtain ⟨next, hstep, hnext⟩ := h.step_next
        obtain ⟨last, hrun, hlast⟩ := ih hnext hrest (fun heq => hcut (by rw [heq]; rfl))
        refine ⟨last, ?_, hlast⟩
        rw [Transducer.run_cons, hstep, hrun]
        rfl

end WaitsFor

/-! ### The first byte -/

theorem lead_two {n : Nat} (h : 2 ≤ n) (hn : n < 0x20) :
    lead (n + 0xC0) = (inside n 0 0x80 0xBF, []) := by
  rw [lead, if_neg (by omega), if_pos (by omega), Nat.add_sub_cancel]

theorem lead_three {n : Nat} (hn : n < 0x10) :
    lead (n + 0xE0) =
      (inside n 1 (if n = 0 then 0xA0 else 0x80) (if n = 13 then 0x9F else 0xBF), []) := by
  rw [lead, if_neg (by omega), if_neg (by omega), if_pos (by omega), Nat.add_sub_cancel]
  simp

theorem lead_four {n : Nat} (hn : n < 5) :
    lead (n + 0xF0) =
      (inside n 2 (if n = 0 then 0x90 else 0x80) (if n = 4 then 0x8F else 0xBF), []) := by
  rw [lead, if_neg (by omega), if_neg (by omega), if_neg (by omega), if_pos (by omega),
    Nat.add_sub_cancel]
  simp

/-- The UTF-8 form of a character: ASCII, or a first byte that tells what the decoder has to
wait for. -/
theorem encodeChar_cases (c : Char) :
    (c.toNat < 0x80 ∧ String.utf8EncodeChar c = [UInt8.ofNat c.toNat]) ∨
    ∃ b n decoder, String.utf8EncodeChar c = b :: tailBytes c.toNat n ∧
      step start b = (decoder, []) ∧ WaitsFor c.toNat n decoder := by
  have hvalid : c.toNat < 0xD800 ∨ 0xDFFF < c.toNat ∧ c.toNat < 0x110000 := c.valid
  have hstep : ∀ n, n < 256 → step start (UInt8.ofNat n) = lead n := by
    intro n hn
    rw [step, UInt8.toNat_ofNat', Nat.mod_eq_of_lt hn]
  unfold String.utf8EncodeChar
  rw [show c.val.toNat = c.toNat from rfl]
  generalize c.toNat = v at hvalid ⊢
  dsimp only
  split
  · exact .inl ⟨by omega, rfl⟩
  right
  split
  · have hmod : v / 64 % 0x20 = v / 64 := by omega
    rw [hmod]
    refine ⟨_, 0, _, rfl, (hstep _ (by omega)).trans (lead_two (by omega) (by omega)),
      0x80, 0xBF, rfl, by omega, by omega⟩
  split
  · have hmod : v / 4096 % 0x10 = v / 64 ^ 2 := by omega
    rw [hmod]
    refine ⟨_, 1, _, rfl, (hstep _ (by omega)).trans (lead_three (by omega)), _, _, rfl, ?_, ?_⟩
    · split <;> omega
    · split <;> omega
  · have hmod : v / 262144 % 0x08 = v / 64 ^ 3 := by omega
    rw [hmod]
    refine ⟨_, 2, _, rfl, (hstep _ (by omega)).trans (lead_four (by omega)), _, _, rfl, ?_, ?_⟩
    · split <;> omega
    · split <;> omega

/-- **The decoder reads a character from its bytes.** -/
theorem run_encodeChar (c : Char) :
    Transducer.run step start (String.utf8EncodeChar c) = (start, [c]) := by
  have hread : Char.ofNat c.toNat = c := Char.ofNat_toNat c
  rcases encodeChar_cases c with ⟨hascii, hbytes⟩ | ⟨b, n, decoder, hbytes, hstep, hwaits⟩
  · have hlead : step start (UInt8.ofNat c.toNat) = (start, [c]) := by
      rw [step, UInt8.toNat_ofNat', Nat.mod_eq_of_lt (by omega), lead, if_pos hascii, hread]
    rw [hbytes, Transducer.run_cons, hlead]
    rfl
  · rw [hbytes, Transducer.run_cons, hstep, hwaits.run, hread]
    rfl

/-- **After some of the bytes of a character it has read nothing, and waits for the others.** -/
theorem run_cutChar {c : Char} {bytes : Buffer} (hbytes : bytes <+: String.utf8EncodeChar c)
    (hnil : bytes ≠ []) (hcut : bytes ≠ String.utf8EncodeChar c) :
    ∃ decoder, Transducer.run step start bytes = (decoder, []) ∧
      decoder.finish = [replacementCharacter] := by
  rcases encodeChar_cases c with ⟨-, heq⟩ | ⟨b, n, decoder, heq, hstep, hwaits⟩
  · rw [heq] at hbytes hcut
    rcases List.prefix_cons_iff.mp hbytes with rfl | ⟨rest, rfl, hrest⟩
    · exact absurd rfl hnil
    · obtain rfl := List.prefix_nil.mp hrest
      exact absurd rfl hcut
  · rw [heq] at hbytes hcut
    rcases List.prefix_cons_iff.mp hbytes with rfl | ⟨rest, rfl, hrest⟩
    · exact absurd rfl hnil
    · obtain ⟨next, hrun, hfinish⟩ := hwaits.run_cut hrest (fun h => hcut (by rw [h]))
      refine ⟨next, ?_, hfinish⟩
      rw [Transducer.run_cons, hstep, hrun]
      rfl

end Utf8Decoder

/-! ### Strings -/

theorem utf8Chars_nil : utf8Chars [] = [] := rfl

theorem utf8Chars_encodeChar_append (c : Char) (rest : Buffer) :
    utf8Chars (String.utf8EncodeChar c ++ rest) = c :: utf8Chars rest := by
  unfold utf8Chars
  rw [Transducer.run_append, Utf8Decoder.run_encodeChar]
  rfl

theorem utf8Chars_flatMap_append (cs : List Char) (rest : Buffer) :
    utf8Chars (cs.flatMap String.utf8EncodeChar ++ rest) = cs ++ utf8Chars rest := by
  induction cs with
  | nil => rfl
  | cons c cs ih =>
      rw [List.flatMap_cons, List.append_assoc, utf8Chars_encodeChar_append, ih, List.cons_append]

theorem utf8Chars_cutChar {c : Char} {bytes : Buffer}
    (hbytes : bytes <+: String.utf8EncodeChar c) (hnil : bytes ≠ [])
    (hcut : bytes ≠ String.utf8EncodeChar c) : utf8Chars bytes = [replacementCharacter] := by
  obtain ⟨decoder, hrun, hfinish⟩ := Utf8Decoder.run_cutChar hbytes hnil hcut
  unfold utf8Chars
  rw [hrun]
  exact hfinish

/-- **A string is read back from its UTF-8 form.** -/
theorem fromUtf8_toUtf8 (s : String) : fromUtf8 (toUtf8 s) = s := by
  rw [fromUtf8, toUtf8, ← List.append_nil (s.toList.flatMap _), utf8Chars_flatMap_append,
    utf8Chars_nil, List.append_nil, String.ofList_toList]

/-- A surrogate, an overlong form and the beginning of a character, with ASCII around them. -/
example : fromUtf8 [0x61, 0xED, 0xA0, 0x62, 0xC0, 0x63, 0xF0, 0x9F] =
    "a\uFFFD\uFFFDb\uFFFDc\uFFFD" := by decide

end GrpcNode.Js
