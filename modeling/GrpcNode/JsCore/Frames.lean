import Mathlib.Data.List.Induction
import GrpcNode.JsCore.Framing

/-!
# GrpcNode.JsCore.Frames

Which byte strings are complete: concatenations of length-prefixed frames, each with the
compressed flag 0 (`Framed`).

The decoder could tell. `Complete` asks of its own states that every flag byte is 0 and
that it is between two messages at the end; `framed_iff_complete` says that this is the
same. From left to right the bytes are read frame by frame. From right to left they are
read one at a time, and `Unfinished` says what the decoder knows of the last frame.
-/

namespace GrpcNode.JsCore

open GrpcNode.Js

/-- A message on the wire, not compressed. -/
def frame (message : Buffer) : Buffer := 0 :: (sizeBytes message.length ++ message)

/-- A concatenation of complete frames that are not compressed. -/
def Framed (bytes : Buffer) : Prop :=
  ∃ messages : List Buffer, (∀ message ∈ messages, message.length < 2 ^ 32) ∧
    bytes = (messages.map frame).flatten

namespace Framed

theorem nil : Framed [] := ⟨[], nofun, rfl⟩

theorem append_frame {bytes message : Buffer} (h : Framed bytes) (hmessage : message.length < 2 ^ 32) :
    Framed (bytes ++ frame message) := by
  obtain ⟨messages, hsizes, rfl⟩ := h
  refine ⟨messages ++ [message], ?_, by simp⟩
  intro m hm
  rcases List.mem_append.mp hm with hm | hm
  · exact hsizes m hm
  · rw [List.mem_singleton.mp hm]
    exact hmessage

end Framed

/-! ### What the decoder could check -/

namespace Progress

/-- The flag bytes that are read on the way are 0. -/
def FlagsClear (p : Progress) : Buffer → Prop
  | [] => True
  | byte :: bytes => (p.readState = .noData → byte = 0) ∧ (p.step byte).1.FlagsClear bytes

theorem flagsClear_append {p : Progress} {as bs : Buffer} : p.FlagsClear (as ++ bs) ↔
    p.FlagsClear as ∧ (Transducer.run step p as).1.FlagsClear bs := by
  induction as generalizing p with
  | nil => simp [FlagsClear]
  | cons byte as ih => simp only [List.cons_append, FlagsClear, ih, Transducer.run_cons, and_assoc]

end Progress

/-- The decoder finds no compressed frame in the bytes and is between two messages at their
end. -/
structure Complete (bytes : Buffer) : Prop where
  uncompressed : Decoder.initial.progress.FlagsClear bytes
  noData : (decodeProgress bytes).readState = .noData

/-! ### Frames are complete -/

namespace Progress

theorem flagsClear_readingSize {bytes : Buffer} {p : Progress} (hp : p.readState = .readingSize)
    (hlen : bytes.length ≤ p.readSizeRemaining) : p.FlagsClear bytes := by
  induction bytes generalizing p with
  | nil => trivial
  | cons byte bytes ih =>
      rw [List.length_cons] at hlen
      refine ⟨fun h => absurd (hp.symm.trans h) nofun, ?_⟩
      cases bytes with
      | nil => trivial
      | cons byte' bytes =>
          rw [List.length_cons] at hlen
          have hrem : ¬ p.readSizeRemaining - 1 = 0 := by omega
          have hstep : (p.step byte).1.readState = .readingSize := by
            simp only [step, hp, if_neg hrem]
          have hleft : (p.step byte).1.readSizeRemaining = p.readSizeRemaining - 1 := by
            simp only [step, hp, if_neg hrem]
          exact ih hstep (by rw [hleft, List.length_cons]; omega)

theorem flagsClear_readingMessage {bytes : Buffer} {p : Progress}
    (hp : p.readState = .readingMessage) (hlen : bytes.length ≤ p.readMessageRemaining) :
    p.FlagsClear bytes := by
  induction bytes generalizing p with
  | nil => trivial
  | cons byte bytes ih =>
      rw [List.length_cons] at hlen
      refine ⟨fun h => absurd (hp.symm.trans h) nofun, ?_⟩
      cases bytes with
      | nil => trivial
      | cons byte' bytes =>
          rw [List.length_cons] at hlen
          have hrem : ¬ p.readMessageRemaining - 1 = 0 := by omega
          have hstep : (p.step byte).1.readState = .readingMessage := by
            simp only [step, hp, if_neg hrem]
          have hleft : (p.step byte).1.readMessageRemaining = p.readMessageRemaining - 1 := by
            simp only [step, hp, if_neg hrem]
          exact ih hstep (by rw [hleft, List.length_cons]; omega)

/-- A frame that starts between two messages is clear. -/
theorem flagsClear_frame {p : Progress} (hp : p.readState = .noData)
    (hsize : p.readPartialSize.length = 4) {message : Buffer} (hm : message.length < 2 ^ 32) :
    p.FlagsClear (frame message) := by
  have hflag : (step p 0).1.readState = .readingSize ∧ (step p 0).1.readSizeRemaining = 4 := by
    simp only [step, hp, and_self]
  rw [frame, ← List.cons_append, flagsClear_append, run_header hp hsize]
  refine ⟨⟨fun _ => rfl, flagsClear_readingSize hflag.1 (Nat.le_of_eq hflag.2.symm)⟩, ?_⟩
  simp only [sizeRead, readUInt32BE_sizeBytes hm]
  by_cases hzero : 0 < message.length
  · simp only [if_pos hzero]
    exact flagsClear_readingMessage rfl (Nat.le_refl _)
  · have hnil : message = [] := List.eq_nil_of_length_eq_zero (by omega)
    rw [hnil]
    trivial

theorem flagsClear_frames {messages : List Buffer} {p : Progress} (hp : p.readState = .noData)
    (hsize : p.readPartialSize.length = 4)
    (hm : ∀ message ∈ messages, message.length < 2 ^ 32) :
    p.FlagsClear (messages.map frame).flatten ∧
      (Transducer.run step p (messages.map frame).flatten).1.readState = .noData := by
  induction messages generalizing p with
  | nil => exact ⟨trivial, hp⟩
  | cons message messages ih =>
      have hfirst := hm message List.mem_cons_self
      obtain ⟨q, hq, hqsize, hrun⟩ := run_encodeMessage hp hsize (m := { message }) hfirst
      rw [encodeMessage_eq] at hrun
      change Transducer.run step p (frame message) = _ at hrun
      obtain ⟨hclear, hend⟩ := ih hq hqsize fun m hm' => hm m (List.mem_cons_of_mem _ hm')
      rw [List.map_cons, List.flatten_cons, flagsClear_append, Transducer.run_append, hrun]
      exact ⟨⟨flagsClear_frame hp hsize hfirst, hclear⟩, hend⟩

end Progress

theorem Framed.complete {bytes : Buffer} (h : Framed bytes) : Complete bytes := by
  obtain ⟨messages, hm, rfl⟩ := h
  obtain ⟨hclear, hend⟩ :=
    Progress.flagsClear_frames (p := Decoder.initial.progress) rfl rfl hm
  exact ⟨hclear, hend⟩

/-! ### Complete bytes are frames -/

/-- Four bytes are the form of the number that is read from them. -/
theorem sizeBytes_readUInt32BE {bytes : Buffer} (h : bytes.length = 4) :
    sizeBytes (bytes.readUInt32BE 0) = bytes := by
  obtain ⟨a, b, c, d, rfl⟩ : ∃ a b c d : UInt8, bytes = [a, b, c, d] := List.length_eq_four.mp h
  have ha := a.toNat_lt
  have hb := b.toNat_lt
  have hc := c.toNat_lt
  have hd := d.toNat_lt
  simp only [sizeBytes, Buffer.readUInt32BE, Buffer.readUInt8, Nat.zero_add, List.getD_cons_zero,
    List.getD_cons_succ, List.cons.injEq, ← UInt8.toNat_inj, UInt8.toNat_ofNat']
  refine ⟨?_, ?_, ?_, ?_, trivial⟩ <;> omega

theorem readUInt32BE_lt (bytes : Buffer) : bytes.readUInt32BE 0 < 2 ^ 32 := by
  have h := fun i => (bytes.getD i 0).toNat_lt
  have h0 := h 0
  have h1 := h 1
  have h2 := h 2
  have h3 := h 3
  simp only [Buffer.readUInt32BE, Buffer.readUInt8, Nat.zero_add]
  omega

/-- What the decoder knows of the bytes since the end of the last message. -/
inductive Unfinished (p : Progress) : Buffer → Prop
  | between : p.readState = .noData → Unfinished p []
  | size {read : Buffer} : p.readState = .readingSize → 0 < p.readSizeRemaining →
      read.length + p.readSizeRemaining = 4 → read <+: p.readPartialSize →
      p.partialMessage = [] → Unfinished p (0 :: read)
  | message : p.readState = .readingMessage → 0 < p.readMessageRemaining →
      p.partialMessage.length + p.readMessageRemaining = p.readPartialSize.readUInt32BE 0 →
      Unfinished p (0 :: (p.readPartialSize ++ p.partialMessage))

/-- The bytes are frames and the beginning of another one. -/
structure ReadUpTo (p : Progress) (bytes : Buffer) : Prop where
  size_length : p.readPartialSize.length = 4
  frames : ∃ before part, bytes = before ++ part ∧ Framed before ∧ Unfinished p part

theorem prefix_set {α : Type*} {as bs : List α} (h : as <+: bs) (hlt : as.length < bs.length)
    (b : α) : as ++ [b] <+: bs.set as.length b := by
  obtain ⟨rest, rfl⟩ := h
  cases rest with
  | nil => simp at hlt
  | cons c rest =>
      refine ⟨rest, ?_⟩
      rw [List.set_append_right _ _ (Nat.le_refl _), Nat.sub_self]
      simp

/-- The size is known, and decides whether a message follows. -/
theorem readUpTo_sizeRead {p : Progress} {before read : Buffer} (hbefore : Framed before)
    (hsize : p.readPartialSize = read) (hlen : read.length = 4) (hnone : p.partialMessage = []) :
    ReadUpTo p.sizeRead.1 (before ++ 0 :: read) := by
  subst hsize
  unfold Progress.sizeRead
  by_cases hzero : 0 < p.readPartialSize.readUInt32BE 0
  · simp only [if_pos hzero]
    refine ⟨hlen, before, _, rfl, hbefore, ?_⟩
    have hmessage := Unfinished.message (p := { p with
      readState := .readingMessage
      readMessageSize := p.readPartialSize.readUInt32BE 0
      readMessageRemaining := p.readPartialSize.readUInt32BE 0 }) rfl hzero (by simp [hnone])
    simpa only [hnone, List.append_nil] using hmessage
  · simp only [if_neg hzero]
    have hempty : frame [] = 0 :: p.readPartialSize := by
      have hnone : p.readPartialSize.readUInt32BE 0 = 0 := by omega
      rw [frame, List.append_nil, List.length_nil, ← hnone, sizeBytes_readUInt32BE hlen]
    refine ⟨hlen, before ++ 0 :: p.readPartialSize, [], (List.append_nil _).symm, ?_, .between rfl⟩
    rw [← hempty]
    exact hbefore.append_frame (by decide)

/-- One byte more. -/
theorem ReadUpTo.step {p : Progress} {bytes : Buffer} (h : ReadUpTo p bytes) {byte : UInt8}
    (hflag : p.readState = .noData → byte = 0) : ReadUpTo (p.step byte).1 (bytes ++ [byte]) := by
  obtain ⟨hlen, before, part, rfl, hbefore, hpart⟩ := h
  rw [List.append_assoc]
  cases hpart with
  | between hp =>
      obtain rfl := hflag hp
      simp only [Progress.step, hp]
      refine ⟨by rw [Buffer.length_fillZero, hlen], before, [0], rfl, hbefore, ?_⟩
      exact .size rfl (Nat.zero_lt_succ 3) rfl List.nil_prefix rfl
  | @size read hp hpos hread hprefix hnone =>
      have hset := prefix_set hprefix (by omega) byte
      have hindex : 4 - p.readSizeRemaining = read.length := by omega
      have hread' : (read ++ [byte]).length + (p.readSizeRemaining - 1) = 4 := by
        rw [List.length_append, List.length_singleton]
        omega
      simp only [Progress.step, hp, hindex, List.cons_append]
      by_cases hdone : p.readSizeRemaining - 1 = 0
      · simp only [if_pos hdone]
        have hall : read ++ [byte] = p.readPartialSize.set read.length byte :=
          hset.eq_of_length (by rw [List.length_set]; omega)
        exact readUpTo_sizeRead hbefore hall.symm (by omega) hnone
      · simp only [if_neg hdone]
        refine ⟨by rw [List.length_set, hlen], before, _, rfl, hbefore, ?_⟩
        exact .size (p := { p with
          readState := .readingSize
          readPartialSize := p.readPartialSize.set read.length byte
          readSizeRemaining := p.readSizeRemaining - 1 }) rfl (Nat.pos_of_ne_zero hdone) hread' hset
          hnone
  | message hp hpos hsum =>
      simp only [Progress.step, hp, List.cons_append, List.append_assoc]
      by_cases hdone : p.readMessageRemaining - 1 = 0
      · simp only [if_pos hdone]
        -- The last byte: the message has the size that its frame announces.
        have hmessage : (p.partialMessage ++ [byte]).length = p.readPartialSize.readUInt32BE 0 := by
          simp only [List.length_append, List.length_singleton]
          omega
        refine ⟨hlen, before ++ frame (p.partialMessage ++ [byte]), [], ?_, ?_, .between rfl⟩
        · rw [frame, hmessage, sizeBytes_readUInt32BE hlen, List.append_nil]
        · exact hbefore.append_frame (hmessage ▸ readUInt32BE_lt _)
      · simp only [if_neg hdone]
        refine ⟨hlen, before, _, rfl, hbefore, ?_⟩
        have hsum' : (p.partialMessage ++ [byte]).length + (p.readMessageRemaining - 1) =
            p.readPartialSize.readUInt32BE 0 := by
          rw [List.length_append, List.length_singleton]
          omega
        exact .message (p := { p with
          readState := .readingMessage
          partialMessage := p.partialMessage ++ [byte]
          readMessageRemaining := p.readMessageRemaining - 1 }) rfl (Nat.pos_of_ne_zero hdone) hsum'

theorem readUpTo_of_flagsClear {bytes : Buffer}
    (h : Decoder.initial.progress.FlagsClear bytes) : ReadUpTo (decodeProgress bytes) bytes := by
  induction bytes using List.reverseRecOn with
  | nil => exact ⟨rfl, [], [], rfl, .nil, .between rfl⟩
  | append_singleton bytes byte ih =>
      obtain ⟨hclear, hflag, -⟩ := Progress.flagsClear_append.mp h
      have hstep := (ih hclear).step hflag
      rw [decodeProgress_append]
      exact hstep

/-- **The decoder can tell complete bytes.** -/
theorem framed_iff_complete {bytes : Buffer} : Framed bytes ↔ Complete bytes := by
  constructor
  · exact Framed.complete
  · rintro ⟨hclear, hend⟩
    obtain ⟨-, before, part, rfl, hbefore, hpart⟩ := readUpTo_of_flagsClear hclear
    generalize decodeProgress (before ++ part) = p at hend hpart
    cases hpart with
    | between _ =>
        rw [List.append_nil]
        exact hbefore
    | size hp _ _ _ _ => exact absurd (hp.symm.trans hend) nofun
    | message hp _ _ => exact absurd (hp.symm.trans hend) nofun

end GrpcNode.JsCore
