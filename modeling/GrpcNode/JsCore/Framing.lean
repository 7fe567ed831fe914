import GrpcNode.Js.Buffer
import GrpcNode.Lib.Transducer

/-!
# GrpcNode.JsCore.Framing

The length-prefixed message framing of `call-stream.ts`: the `'data'` handler
that `attachHttp2Stream` installs, and `encodeMessage`.

The decoder is a three-phase loop whose counters and partial buffers survive from
one HTTP/2 data chunk to the next. `Decoder.pass` is one pass through the
`switch` of that loop and `Decoder.onData` the loop over one chunk. What the
decoder *is for* is said by `Progress.step`, which takes one byte at a time and
knows no chunks; `Decoder.onData_progress` proves that the handler does to a chunk
what `Progress.step` does to its bytes, whence the cuts between the chunks do not
matter (`Transducer.runChunks_congr`).
-/

namespace GrpcNode.JsCore

open GrpcNode.Js

/-- `ReadState` of `call-stream.ts`. -/
inductive ReadState
  | noData
  | readingSize
  | readingMessage
  deriving Repr, DecidableEq

/-- `WriteObject` of `call-stream.ts`. -/
structure WriteObject where
  message : Buffer
  flags : Option Nat := none
  deriving Repr, DecidableEq

/-- The fields of `Http2CallStream` that the `'data'` handler decodes with. -/
structure Decoder where
  readState : ReadState
  readCompressFlag : Bool
  readPartialSize : Buffer
  readSizeRemaining : Nat
  readMessageSize : Nat
  readPartialMessage : List Buffer
  readMessageRemaining : Nat
  deriving Repr, DecidableEq

/-- `emptyBuffer` of `call-stream.ts`. -/
def emptyBuffer : Buffer := Buffer.alloc 0

namespace Decoder

/-- The field initialisers of `Http2CallStream`. -/
def initial : Decoder where
  readState := .noData
  readCompressFlag := false
  readPartialSize := Buffer.alloc 4
  readSizeRemaining := 4
  readMessageSize := 0
  readPartialMessage := []
  readMessageRemaining := 0

/-- `this.readState = ReadState.NO_DATA`, which follows every `tryPush`. -/
def reset (d : Decoder) : Decoder := { d with readState := .noData }

/-- One pass through the `switch` of the `'data'` handler: the decoder, the new
`readHead`, and the message that the pass hands to `tryPush`, if any. After the
hand-over the handler still has to `reset` the decoder. -/
def pass (d : Decoder) (data : Buffer) (readHead : Nat) : Decoder × Nat × Option Buffer :=
  match d.readState with
  | .noData =>
      -- The first byte is the flag. Everything that the last message has left is cleared here.
      ({ readState := .readingSize
         readCompressFlag := data.readUInt8 readHead != 0
         readPartialSize := d.readPartialSize.fillZero
         readSizeRemaining := 4
         readMessageSize := 0
         readPartialMessage := []
         readMessageRemaining := 0 }, readHead + 1, none)
  | .readingSize =>
      let toRead := min (data.length - readHead) d.readSizeRemaining
      let partialSize := data.copy d.readPartialSize (4 - d.readSizeRemaining) readHead
        (readHead + toRead)
      let remaining := d.readSizeRemaining - toRead
      let d := { d with readPartialSize := partialSize, readSizeRemaining := remaining }
      if remaining = 0 then
        let size := partialSize.readUInt32BE 0
        let d := { d with readMessageSize := size, readMessageRemaining := size }
        if 0 < size then
          ({ d with readState := .readingMessage }, readHead + toRead, none)
        else
          -- There are no bytes to wait for; this hands over from inside the size phase.
          (d, readHead + toRead, some emptyBuffer)
      else
        (d, readHead + toRead, none)
  | .readingMessage =>
      let toRead := min (data.length - readHead) d.readMessageRemaining
      let parts := d.readPartialMessage ++ [data.slice readHead (readHead + toRead)]
      let remaining := d.readMessageRemaining - toRead
      let d := { d with readPartialMessage := parts, readMessageRemaining := remaining }
      if remaining = 0 then
        (d, readHead + toRead, some (Buffer.concat parts d.readMessageSize))
      else
        (d, readHead + toRead, none)

/-- The `while` loop of the `'data'` handler from `readHead` on, with the messages
it hands to `tryPush`. The fuel bounds the number of passes. -/
def loop : Nat → Decoder → Buffer → Nat → Decoder × List Buffer
  | 0, d, _, _ => (d, [])
  | fuel + 1, d, data, readHead =>
      if readHead < data.length then
        match d.pass data readHead with
        | (d', readHead', none) => loop fuel d' data readHead'
        | (d', readHead', some message) =>
            let r := loop fuel d'.reset data readHead'
            (r.1, message :: r.2)
      else
        (d, [])

/-- The `'data'` handler on one chunk. Every pass reads at least one byte
(`pass_spec`), so `data.length` passes are enough. -/
def onData (d : Decoder) (data : Buffer) : Decoder × List Buffer :=
  loop data.length d data 0

end Decoder

/-- `encodeMessage`: one zero byte for the compressed flag, the length as a
big-endian 32-bit number, the message. -/
def encodeMessage (message : WriteObject) : Buffer :=
  let output := Buffer.alloc (message.message.length + 5)
  let output := output.writeUInt8 0 0
  let output := output.writeUInt32BE message.message.length 1
  message.message.copy output 5 0 message.message.length

/-! ### What the decoder is for

`Progress` is the decoder state with the pieces of the partial message joined, and
`Progress.step` reads one byte. -/

/-- How far the framing has got: the phase, the size bytes read so far, the
remaining counts and the concatenated partial message. -/
structure Progress where
  readState : ReadState
  readCompressFlag : Bool
  readPartialSize : Buffer
  readSizeRemaining : Nat
  readMessageSize : Nat
  partialMessage : Buffer
  readMessageRemaining : Nat
  deriving Repr, DecidableEq

/-- The decoder state as far as it can be told apart by what it will decode. -/
def Decoder.progress (d : Decoder) : Progress where
  readState := d.readState
  readCompressFlag := d.readCompressFlag
  readPartialSize := d.readPartialSize
  readSizeRemaining := d.readSizeRemaining
  readMessageSize := d.readMessageSize
  partialMessage := d.readPartialMessage.flatten
  readMessageRemaining := d.readMessageRemaining

namespace Progress

/-- The four size bytes are there: the size is known. A message of size zero is
complete at once. -/
def sizeRead (p : Progress) : Progress × List Buffer :=
  let size := p.readPartialSize.readUInt32BE 0
  let p := { p with readMessageSize := size, readMessageRemaining := size }
  if 0 < size then ({ p with readState := .readingMessage }, [])
  else ({ p with readState := .noData }, [emptyBuffer])

/-- The framing, one byte at a time. -/
def step (p : Progress) (byte : UInt8) : Progress × List Buffer :=
  match p.readState with
  | .noData =>
      ({ readState := .readingSize
         readCompressFlag := byte.toNat != 0
         readPartialSize := p.readPartialSize.fillZero
         readSizeRemaining := 4
         readMessageSize := 0
         partialMessage := []
         readMessageRemaining := 0 }, [])
  | .readingSize =>
      let p := { p with
        readPartialSize := p.readPartialSize.set (4 - p.readSizeRemaining) byte
        readSizeRemaining := p.readSizeRemaining - 1 }
      if p.readSizeRemaining = 0 then p.sizeRead else (p, [])
  | .readingMessage =>
      let p := { p with
        partialMessage := p.partialMessage ++ [byte]
        readMessageRemaining := p.readMessageRemaining - 1 }
      if p.readMessageRemaining = 0 then ({ p with readState := .noData }, [p.partialMessage])
      else (p, [])

/-! ### Runs inside one phase -/

/-- Bytes that do not go beyond the size field are written into it, and the last of
its four bytes makes the size known. -/
theorem run_readingSize :
    ∀ {bytes : Buffer} {p : Progress}, p.readState = .readingSize → bytes ≠ [] →
      bytes.length ≤ p.readSizeRemaining → p.readSizeRemaining ≤ 4 →
      p.readPartialSize.length = 4 →
      Transducer.run step p bytes =
        let q := { p with
          readPartialSize := p.readPartialSize.overwrite bytes (4 - p.readSizeRemaining)
          readSizeRemaining := p.readSizeRemaining - bytes.length }
        if q.readSizeRemaining = 0 then q.sizeRead else (q, []) := by
  intro bytes
  -- The induction is on the bytes; the phase changes at the last one, which is the base case.
  induction bytes with
  | nil => intro p _ h; exact absurd rfl h
  | cons byte bytes ih =>
      intro p hp _ hlen hle hsize
      rw [List.length_cons] at hlen
      have hover : p.readPartialSize.overwrite (byte :: bytes) (4 - p.readSizeRemaining) = _ :=
        Buffer.overwrite_cons (by omega)
      rw [Transducer.run_cons]
      cases bytes with
      | nil =>
          simp only [step, hp, Transducer.run_nil, List.append_nil]
          rw [hover, Buffer.overwrite_nil]
          rfl
      | cons byte' bytes =>
          simp only [List.length_cons] at hlen ih ⊢
          have hrem : ¬ p.readSizeRemaining - 1 = 0 := by omega
          have hstart : 4 - (p.readSizeRemaining - 1) = 4 - p.readSizeRemaining + 1 := by omega
          have hsub : p.readSizeRemaining - 1 - (bytes.length + 1) =
              p.readSizeRemaining - (bytes.length + 1 + 1) := by omega
          simp only [step, hp, if_neg hrem, List.nil_append]
          rw [ih rfl (by simp) (by simp only; omega) (by simp only; omega) (by simpa using hsize)]
          simp only [hstart, hsub, hover]

/-- Bytes that do not go beyond the message are appended to it, and its last byte
hands it over. -/
theorem run_readingMessage :
    ∀ {bytes : Buffer} {p : Progress}, p.readState = .readingMessage → bytes ≠ [] →
      bytes.length ≤ p.readMessageRemaining →
      Transducer.run step p bytes =
        let q := { p with
          partialMessage := p.partialMessage ++ bytes
          readMessageRemaining := p.readMessageRemaining - bytes.length }
        if q.readMessageRemaining = 0 then ({ q with readState := .noData }, [q.partialMessage])
        else (q, []) := by
  intro bytes
  induction bytes with
  | nil => intro p _ h; exact absurd rfl h
  | cons byte bytes ih =>
      intro p hp _ hlen
      rw [List.length_cons] at hlen
      rw [Transducer.run_cons]
      cases bytes with
      | nil =>
          simp only [step, hp, Transducer.run_nil, List.append_nil]
          rfl
      | cons byte' bytes =>
          simp only [List.length_cons] at hlen ih ⊢
          have hrem : ¬ p.readMessageRemaining - 1 = 0 := by omega
          have hsub : p.readMessageRemaining - 1 - (bytes.length + 1) =
              p.readMessageRemaining - (bytes.length + 1 + 1) := by omega
          simp only [step, hp, if_neg hrem, List.nil_append]
          rw [ih rfl (by simp) (by simp only; omega)]
          simp only [hsub, List.append_assoc, List.singleton_append]

end Progress

/-! ### The handler does what the framing says -/

namespace Decoder

/-- What the counters of a decoder between two passes satisfy. -/
structure WF (d : Decoder) : Prop where
  size_length : d.readPartialSize.length = 4
  readingSize : d.readState = .readingSize → 0 < d.readSizeRemaining ∧
    d.readSizeRemaining ≤ 4 ∧ d.readPartialMessage = []
  readingMessage : d.readState = .readingMessage → 0 < d.readMessageRemaining ∧
    d.readPartialMessage.flatten.length + d.readMessageRemaining = d.readMessageSize

theorem initial_wf : initial.WF := ⟨rfl, nofun, nofun⟩

/-- The decoder once the message of a pass, if there is one, is handed over. -/
def settled (d : Decoder) : Option Buffer → Decoder
  | none => d
  | some _ => d.reset

theorem reset_wf {d : Decoder} (h : d.readPartialSize.length = 4) : d.reset.WF :=
  ⟨h, nofun, nofun⟩

/-- What a pass does: it reads some bytes, at least one and none beyond the chunk,
and takes the framing from before these bytes to after them. -/
structure PassSpec (d : Decoder) (data : Buffer) (readHead : Nat)
    (r : Decoder × Nat × Option Buffer) : Prop where
  advances : readHead < r.2.1
  bounded : r.2.1 ≤ data.length
  wf : (r.1.settled r.2.2).WF
  run : Transducer.run Progress.step d.progress (data.slice readHead r.2.1) =
    ((r.1.settled r.2.2).progress, r.2.2.toList)

theorem slice_succ {data : Buffer} {i : Nat} (h : i < data.length) :
    data.slice i (i + 1) = [data.getD i 0] := by
  rw [Buffer.slice_eq_take_drop, List.drop_eq_getElem_cons h, Nat.add_sub_cancel_left,
    List.take_succ_cons, List.take_zero, List.getD_eq_getElem?_getD, List.getElem?_eq_getElem h,
    Option.getD_some]

theorem pass_noData {d : Decoder} {data : Buffer} {readHead : Nat} (hd : d.WF)
    (h : readHead < data.length) (hstate : d.readState = .noData) :
    PassSpec d data readHead (d.pass data readHead) := by
  rw [pass, hstate]
  refine ⟨Nat.lt_succ_self _, h, ⟨?_, fun _ => ⟨Nat.zero_lt_succ 3, Nat.le_refl 4, rfl⟩, nofun⟩, ?_⟩
  · simpa [settled] using hd.size_length
  · simp only [slice_succ h, Transducer.run_cons, Transducer.run_nil, Progress.step, progress,
      hstate, settled, Buffer.readUInt8]
    rfl

theorem pass_readingSize {d : Decoder} {data : Buffer} {readHead : Nat} (hd : d.WF)
    (h : readHead < data.length) (hstate : d.readState = .readingSize) :
    PassSpec d data readHead (d.pass data readHead) := by
  obtain ⟨state, flag, sizeBytes, sizeLeft, messageSize, parts, messageLeft⟩ := d
  obtain rfl : state = .readingSize := hstate
  obtain ⟨hpos, hle, hparts⟩ := hd.readingSize rfl
  have hsize : sizeBytes.length = 4 := hd.size_length
  dsimp only at hpos hle hparts
  -- What the pass copies stays inside the chunk and inside the four bytes.
  set toRead := min (data.length - readHead) sizeLeft with htoRead
  have hread : 0 < toRead := by omega
  have hend : readHead + toRead ≤ data.length := by omega
  set bytes := data.slice readHead (readHead + toRead) with hbytes
  have hlen : bytes.length = toRead := by
    rw [hbytes, Buffer.length_slice _ hend, Nat.add_sub_cancel_left]
  have hcopy : data.copy sizeBytes (4 - sizeLeft) readHead (readHead + toRead) =
      sizeBytes.overwrite bytes (4 - sizeLeft) :=
    Buffer.copy_of_fits hend (by omega)
  have hover : (sizeBytes.overwrite bytes (4 - sizeLeft)).length = 4 := by
    rw [Buffer.length_overwrite (by omega), hsize]
  have hne : bytes ≠ [] := List.ne_nil_of_length_pos (by omega)
  have hfits : bytes.length ≤ sizeLeft := by rw [hlen]; exact Nat.min_le_right ..
  have hrun := Progress.run_readingSize
    (p := progress ⟨.readingSize, flag, sizeBytes, sizeLeft, messageSize, parts, messageLeft⟩)
    rfl hne hfits hle hsize
  simp only [progress, hlen] at hrun
  simp only [pass, ← htoRead, hcopy]
  by_cases hdone : sizeLeft - toRead = 0
  · -- The size is complete; it decides whether a message follows.
    simp only [if_pos hdone, Progress.sizeRead] at hrun ⊢
    by_cases hzero : 0 < Buffer.readUInt32BE (sizeBytes.overwrite bytes (4 - sizeLeft)) 0
    · simp only [if_pos hzero] at hrun ⊢
      refine ⟨Nat.lt_add_of_pos_right hread, hend, ⟨hover, nofun, fun _ => ⟨hzero, ?_⟩⟩, hrun⟩
      simp [settled, hparts]
    · simp only [if_neg hzero] at hrun ⊢
      exact ⟨Nat.lt_add_of_pos_right hread, hend, reset_wf hover, hrun⟩
  · simp only [if_neg hdone] at hrun ⊢
    refine ⟨Nat.lt_add_of_pos_right hread, hend, ⟨hover, fun _ => ⟨?_, ?_, hparts⟩, nofun⟩, hrun⟩
    · exact Nat.pos_of_ne_zero hdone
    · exact Nat.le_trans (Nat.sub_le _ _) hle

theorem pass_readingMessage {d : Decoder} {data : Buffer} {readHead : Nat} (hd : d.WF)
    (h : readHead < data.length) (hstate : d.readState = .readingMessage) :
    PassSpec d data readHead (d.pass data readHead) := by
  obtain ⟨state, flag, sizeBytes, sizeLeft, messageSize, parts, messageLeft⟩ := d
  obtain rfl : state = .readingMessage := hstate
  obtain ⟨hpos, htotal⟩ := hd.readingMessage rfl
  have hsize : sizeBytes.length = 4 := hd.size_length
  dsimp only at hpos htotal
  set toRead := min (data.length - readHead) messageLeft with htoRead
  have hread : 0 < toRead := by omega
  have hend : readHead + toRead ≤ data.length := by omega
  set bytes := data.slice readHead (readHead + toRead) with hbytes
  have hlen : bytes.length = toRead := by
    rw [hbytes, Buffer.length_slice _ hend, Nat.add_sub_cancel_left]
  have hjoin : (parts ++ [bytes]).flatten = parts.flatten ++ bytes := by simp
  have hne : bytes ≠ [] := List.ne_nil_of_length_pos (by omega)
  have hfits : bytes.length ≤ messageLeft := by rw [hlen]; exact Nat.min_le_right ..
  have hrun := Progress.run_readingMessage
    (p := progress ⟨.readingMessage, flag, sizeBytes, sizeLeft, messageSize, parts, messageLeft⟩)
    rfl hne hfits
  simp only [progress, hlen] at hrun
  simp only [pass, ← htoRead, ← hbytes]
  by_cases hdone : messageLeft - toRead = 0
  · -- The parts have the length that the size announced, so `concat` neither cuts nor pads.
    have hconcat : Buffer.concat (parts ++ [bytes]) messageSize = parts.flatten ++ bytes := by
      rw [Buffer.concat_of_length, hjoin]
      rw [hjoin, List.length_append, hlen]
      omega
    simp only [if_pos hdone, hconcat] at hrun ⊢
    refine ⟨Nat.lt_add_of_pos_right hread, hend, reset_wf hsize, ?_⟩
    simpa only [settled, reset, progress, hjoin, ← hbytes, Option.toList_some] using hrun
  · simp only [if_neg hdone] at hrun ⊢
    refine ⟨Nat.lt_add_of_pos_right hread, hend, ⟨hsize, nofun, fun _ => ⟨?_, ?_⟩⟩, ?_⟩
    · exact Nat.pos_of_ne_zero hdone
    · simp only [settled, hjoin, List.length_append, hlen]
      omega
    · simpa only [settled, progress, hjoin, ← hbytes, Option.toList_none] using hrun

theorem pass_spec {d : Decoder} {data : Buffer} {readHead : Nat} (hd : d.WF)
    (h : readHead < data.length) : PassSpec d data readHead (d.pass data readHead) := by
  cases hstate : d.readState with
  | noData => exact pass_noData hd h hstate
  | readingSize => exact pass_readingSize hd h hstate
  | readingMessage => exact pass_readingMessage hd h hstate

/-- The framing of what is left of a chunk, one pass at a time. -/
theorem run_of_pass {d d' : Decoder} {data : Buffer} {readHead readHead' : Nat}
    {message : Option Buffer} (hd : d.WF) (h : readHead < data.length)
    (hr : d.pass data readHead = (d', readHead', message)) :
    Transducer.run Progress.step d.progress (data.drop readHead) =
      ((Transducer.run Progress.step (d'.settled message).progress (data.drop readHead')).1,
        message.toList ++
          (Transducer.run Progress.step (d'.settled message).progress (data.drop readHead')).2) := by
  have hpass := pass_spec hd h
  rw [hr] at hpass
  obtain ⟨hadv, -, -, hrun⟩ := hpass
  dsimp only at hadv hrun
  rw [← Buffer.slice_append_drop data (Nat.le_of_lt hadv), Transducer.run_append, hrun]

theorem wf_of_pass {d d' : Decoder} {data : Buffer} {readHead readHead' : Nat}
    {message : Option Buffer} (hd : d.WF) (h : readHead < data.length)
    (hr : d.pass data readHead = (d', readHead', message)) : (d'.settled message).WF := by
  have hpass := pass_spec hd h
  rw [hr] at hpass
  exact hpass.wf

/-- With a pass of fuel for every byte left, the loop reads the chunk to its end. -/
theorem loop_spec {data : Buffer} :
    ∀ {fuel : Nat} {d : Decoder} {readHead : Nat}, d.WF → readHead ≤ data.length →
      data.length - readHead ≤ fuel →
      (loop fuel d data readHead).1.WF ∧
        Transducer.run Progress.step d.progress (data.drop readHead) =
          ((loop fuel d data readHead).1.progress, (loop fuel d data readHead).2) := by
  intro fuel
  induction fuel with
  | zero =>
      intro d readHead hd hle hfuel
      rw [List.drop_eq_nil_of_le (by omega)]
      exact ⟨hd, rfl⟩
  | succ fuel ih =>
      intro d readHead hd hle hfuel
      by_cases hlt : readHead < data.length
      · have hpass := pass_spec hd hlt
        rcases hr : d.pass data readHead with ⟨d', readHead', message⟩
        rw [hr] at hpass
        have hadv : readHead < readHead' := hpass.advances
        have hbound : readHead' ≤ data.length := hpass.bounded
        obtain ⟨ihwf, ihrun⟩ :=
          ih (wf_of_pass hd hlt hr) hbound (show data.length - readHead' ≤ fuel by omega)
        rw [run_of_pass hd hlt hr, ihrun]
        cases message with
        | none => simpa only [loop, if_pos hlt, hr, settled] using ⟨ihwf, rfl⟩
        | some message => simpa only [loop, if_pos hlt, hr, settled] using ⟨ihwf, rfl⟩
      · rw [List.drop_eq_nil_of_le (by omega)]
        simpa only [loop, if_neg hlt] using ⟨hd, rfl⟩

theorem onData_wf (d : Decoder) (data : Buffer) (hd : d.WF) : (d.onData data).1.WF :=
  (loop_spec hd (Nat.zero_le _) (Nat.le_refl _)).1

/-- **The `'data'` handler on a chunk is the framing on the chunk's bytes.** -/
theorem onData_progress (d : Decoder) (data : Buffer) (hd : d.WF) :
    Transducer.run Progress.step d.progress data =
      ((d.onData data).1.progress, (d.onData data).2) :=
  (loop_spec hd (Nat.zero_le _) (Nat.le_refl _)).2

end Decoder

/-! ### Encoding -/

/-- The big-endian 32-bit form of a length. -/
def sizeBytes (n : Nat) : Buffer :=
  [UInt8.ofNat (n / 256 ^ 3), UInt8.ofNat (n / 256 ^ 2), UInt8.ofNat (n / 256), UInt8.ofNat n]

theorem readUInt32BE_sizeBytes {n : Nat} (h : n < 2 ^ 32) :
    (sizeBytes n).readUInt32BE 0 = n := by
  simp only [Buffer.readUInt32BE, Buffer.readUInt8, sizeBytes, List.getD_cons_zero,
    List.getD_cons_succ, UInt8.toNat_ofNat']
  omega

theorem encodeMessage_eq (m : WriteObject) :
    encodeMessage m = 0 :: (sizeBytes m.message.length ++ m.message) := by
  have halloc : Buffer.alloc (m.message.length + 5) =
      0 :: 0 :: 0 :: 0 :: 0 :: Buffer.alloc m.message.length := rfl
  have hslice : m.message.slice 0 m.message.length = m.message := by
    rw [Buffer.slice, List.take_length, List.drop_zero]
  rw [encodeMessage, halloc]
  simp only [Buffer.writeUInt8, Buffer.writeUInt32BE, List.set_cons_zero, List.set_cons_succ]
  rw [Buffer.copy_of_fits (Nat.le_refl _) (by simp; omega), hslice]
  simp [Buffer.overwrite, sizeBytes, Buffer.alloc]
  omega

namespace Progress

/-- Between two messages, a zero flag and the bytes of a size are read. -/
theorem run_header {p : Progress} (hp : p.readState = .noData)
    (hsize : p.readPartialSize.length = 4) (n : Nat) :
    Transducer.run step p (0 :: sizeBytes n) =
      sizeRead ⟨.readingSize, false, sizeBytes n, 0, 0, [], 0⟩ := by
  have hfill : p.readPartialSize.fillZero.length = 4 := by rw [Buffer.length_fillZero, hsize]
  have hover : p.readPartialSize.fillZero.overwrite (sizeBytes n) 0 = sizeBytes n := by
    have hdrop : p.readPartialSize.fillZero.drop 4 = [] := List.drop_eq_nil_of_le (by omega)
    simpa [Buffer.overwrite, sizeBytes] using hdrop
  have hflag : step p 0 = (⟨.readingSize, false, p.readPartialSize.fillZero, 4, 0, [], 0⟩, []) := by
    simp only [step, hp]
    rfl
  have hne : sizeBytes n ≠ [] := List.cons_ne_nil _ _
  have hlen : (sizeBytes n).length = 4 := rfl
  rw [Transducer.run_cons, hflag]
  rw [run_readingSize rfl hne (Nat.le_of_eq hlen) (Nat.le_refl 4) hfill]
  simp only [Nat.sub_self, hover, hlen, if_true]
  rfl

/-- Between two messages, an encoded message is read back. -/
theorem run_encodeMessage {p : Progress} (hp : p.readState = .noData)
    (hsize : p.readPartialSize.length = 4) {m : WriteObject} (hm : m.message.length < 2 ^ 32) :
    ∃ q : Progress, q.readState = .noData ∧ q.readPartialSize.length = 4 ∧
      Transducer.run step p (encodeMessage m) = (q, [m.message]) := by
  -- The flag, the four size bytes, and then the body, if there is one.
  rw [encodeMessage_eq, ← List.cons_append, Transducer.run_append, run_header hp hsize]
  simp only [sizeRead, readUInt32BE_sizeBytes hm]
  by_cases hzero : 0 < m.message.length
  · simp only [if_pos hzero]
    rw [run_readingMessage rfl (List.ne_nil_of_length_pos hzero) (Nat.le_refl _)]
    simp only [Nat.sub_self, if_true]
    exact ⟨_, rfl, rfl, rfl⟩
  · have hnil : m.message = [] := List.eq_nil_of_length_eq_zero (by omega)
    simp only [hnil, Transducer.run_nil]
    exact ⟨_, rfl, rfl, rfl⟩

theorem run_encodeMessages :
    ∀ {ms : List WriteObject} {p : Progress}, p.readState = .noData →
      p.readPartialSize.length = 4 → (∀ m ∈ ms, m.message.length < 2 ^ 32) →
      ∃ q : Progress, q.readState = .noData ∧
        Transducer.run step p (ms.map encodeMessage).flatten = (q, ms.map WriteObject.message) := by
  intro ms
  induction ms with
  | nil => intro p hp _ _; exact ⟨p, hp, rfl⟩
  | cons m ms ih =>
      intro p hp hsize hms
      obtain ⟨q, hq, hqsize, hrun⟩ :=
        run_encodeMessage hp hsize (hms m List.mem_cons_self)
      obtain ⟨q', hq', hrun'⟩ := ih hq hqsize fun m' hm' => hms m' (List.mem_cons_of_mem _ hm')
      refine ⟨q', hq', ?_⟩
      rw [List.map_cons, List.flatten_cons, Transducer.run_append, hrun, hrun']
      rfl

end Progress

/-! ### Chunks -/

/-- The messages contained in a byte string that starts between two messages. -/
def decode (bytes : Buffer) : List Buffer :=
  (Transducer.run Progress.step Decoder.initial.progress bytes).2

/-- The decoder after the bytes `bytes`, as far as the framing is concerned. -/
def decodeProgress (bytes : Buffer) : Progress :=
  (Transducer.run Progress.step Decoder.initial.progress bytes).1

theorem decode_append (as bs : Buffer) :
    decode (as ++ bs) = decode as ++ (Transducer.run Progress.step (decodeProgress as) bs).2 := by
  rw [decode, Transducer.run_append]
  rfl

theorem decodeProgress_append (as bs : Buffer) :
    decodeProgress (as ++ bs) = (Transducer.run Progress.step (decodeProgress as) bs).1 := by
  rw [decodeProgress, Transducer.run_append]
  rfl

/-- Feeding the handler any chunks decodes their concatenation. -/
theorem onData_chunks (chunks : List Buffer) :
    (Transducer.runChunks Decoder.onData Decoder.initial chunks).2 = decode chunks.flatten ∧
      (Transducer.runChunks Decoder.onData Decoder.initial chunks).1.progress =
        decodeProgress chunks.flatten := by
  have h := Transducer.runChunks_refines Decoder.onData_wf Decoder.onData_progress chunks
    Decoder.initial_wf
  rw [decode, decodeProgress, h]
  exact ⟨rfl, rfl⟩

/-- What is encoded message by message is decoded to the messages. -/
theorem decode_encodeMessages {ms : List WriteObject}
    (hms : ∀ m ∈ ms, m.message.length < 2 ^ 32) :
    decode (ms.map encodeMessage).flatten = ms.map WriteObject.message ∧
      (decodeProgress (ms.map encodeMessage).flatten).readState = .noData := by
  obtain ⟨q, hq, hrun⟩ := Progress.run_encodeMessages (p := Decoder.initial.progress) rfl rfl hms
  rw [decode, decodeProgress, hrun]
  exact ⟨rfl, hq⟩

/-- **The framing does not see the chunks.** Whatever chunks a byte string arrives in,
the handler hands the same messages to `tryPush` and is left in the same state; and
chunks of encoded messages give these messages back, with the decoder between two
messages. -/
theorem onData_framing :
    (∀ chunks chunks' : List Buffer, chunks.flatten = chunks'.flatten →
      (Transducer.runChunks Decoder.onData Decoder.initial chunks).2 =
          (Transducer.runChunks Decoder.onData Decoder.initial chunks').2 ∧
        (Transducer.runChunks Decoder.onData Decoder.initial chunks).1.progress =
          (Transducer.runChunks Decoder.onData Decoder.initial chunks').1.progress) ∧
    (∀ (ms : List WriteObject) (chunks : List Buffer),
      (∀ m ∈ ms, m.message.length < 2 ^ 32) →
      chunks.flatten = (ms.map encodeMessage).flatten →
      (Transducer.runChunks Decoder.onData Decoder.initial chunks).2 =
          ms.map WriteObject.message ∧
        (Transducer.runChunks Decoder.onData Decoder.initial chunks).1.readState = .noData) := by
  constructor
  · intro chunks chunks' h
    exact Transducer.runChunks_congr Decoder.onData_wf Decoder.onData_progress
      Decoder.initial_wf h
  · intro ms chunks hms h
    obtain ⟨houtputs, hprogress⟩ := onData_chunks chunks
    obtain ⟨hdecode, hstate⟩ := decode_encodeMessages hms
    rw [h] at houtputs hprogress
    refine ⟨houtputs.trans hdecode, ?_⟩
    rw [← hprogress] at hstate
    exact hstate

/-- Two messages, one of them empty, cut in the size, in the body and not at all. -/
theorem onData_framing_three_chunks :
    (Transducer.runChunks Decoder.onData Decoder.initial
      [[0, 0, 0], [0, 2, 7], [], [8, 0, 0, 0, 0, 0]]).2 = [[7, 8], []] :=
  (onData_framing.2 [{ message := [7, 8] }, { message := [] }]
    [[0, 0, 0], [0, 2, 7], [], [8, 0, 0, 0, 0, 0]] (by decide) (by decide)).1

end GrpcNode.JsCore
