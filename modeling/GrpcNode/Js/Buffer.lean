import Mathlib.Algebra.Ring.Nat
import Mathlib.Tactic.Common

/-!
# GrpcNode.Js.Buffer

Node's `Buffer` as a list of bytes, with the operations the sources use. Writes
return the updated buffer. Offsets are in range wherever the sources call these,
so the range errors of the real methods are not modelled.
-/

namespace GrpcNode.Js

/-- A Node `Buffer`, or a view of one (`slice`): its bytes. -/
abbrev Buffer := List UInt8

namespace Buffer

/-- `Buffer.alloc(size)`: zero-filled. -/
def alloc (size : Nat) : Buffer := List.replicate size 0

/-- `buf.fill(0)`. -/
def fillZero (buf : Buffer) : Buffer := List.replicate buf.length 0

/-- `buf.slice(start, end)`. -/
def slice (buf : Buffer) (start stop : Nat) : Buffer := (buf.take stop).drop start

/-- `buf.readUInt8(offset)`. -/
def readUInt8 (buf : Buffer) (offset : Nat) : Nat := (buf.getD offset 0).toNat

/-- `buf.readUInt32BE(offset)`. -/
def readUInt32BE (buf : Buffer) (offset : Nat) : Nat :=
  ((buf.readUInt8 offset * 256 + buf.readUInt8 (offset + 1)) * 256
    + buf.readUInt8 (offset + 2)) * 256 + buf.readUInt8 (offset + 3)

/-- `buf.writeUInt8(value, offset)`. -/
def writeUInt8 (buf : Buffer) (value offset : Nat) : Buffer :=
  buf.set offset (UInt8.ofNat value)

/-- `buf.writeUInt32BE(value, offset)`. -/
def writeUInt32BE (buf : Buffer) (value offset : Nat) : Buffer :=
  (((buf.writeUInt8 (value / 256 ^ 3) offset).writeUInt8 (value / 256 ^ 2) (offset + 1)).writeUInt8
    (value / 256) (offset + 2)).writeUInt8 value (offset + 3)

/-- `buf` with `bytes` written over it from `start` on. -/
def overwrite (buf bytes : Buffer) (start : Nat) : Buffer :=
  buf.take start ++ bytes ++ buf.drop (start + bytes.length)

/-- `source.copy(target, targetStart, sourceStart, sourceEnd)`, as the target it
leaves: at most as many bytes as fit are copied. -/
def copy (source target : Buffer) (targetStart sourceStart sourceEnd : Nat) : Buffer :=
  target.overwrite ((source.slice sourceStart sourceEnd).take (target.length - targetStart))
    targetStart

/-- `Buffer.concat(list, totalLength)`: truncated or zero-filled to `totalLength`. -/
def concat (list : List Buffer) (totalLength : Nat) : Buffer :=
  (list.flatten ++ alloc totalLength).take totalLength

/-! ### Laws -/

@[simp] theorem length_alloc (n : Nat) : (alloc n).length = n := List.length_replicate

@[simp] theorem length_fillZero (buf : Buffer) : buf.fillZero.length = buf.length :=
  List.length_replicate

theorem slice_eq_take_drop (buf : Buffer) (start stop : Nat) :
    buf.slice start stop = (buf.drop start).take (stop - start) := by
  rw [slice, List.drop_take]

/-- A slice that reads to its end, followed by what is behind it. -/
theorem slice_append_drop (buf : Buffer) {start stop : Nat} (h : start ≤ stop) :
    buf.slice start stop ++ buf.drop stop = buf.drop start := by
  rw [slice_eq_take_drop]
  have hdrop : buf.drop stop = (buf.drop start).drop (stop - start) := by
    rw [List.drop_drop]
    congr 1
    omega
  rw [hdrop, List.take_append_drop]

theorem length_slice (buf : Buffer) {start stop : Nat} (h : stop ≤ buf.length) :
    (buf.slice start stop).length = stop - start := by
  simp only [slice, List.length_drop, List.length_take]
  omega

@[simp] theorem overwrite_nil (buf : Buffer) (start : Nat) : buf.overwrite [] start = buf := by
  simp [overwrite]

theorem length_overwrite {buf bytes : Buffer} {start : Nat}
    (h : start + bytes.length ≤ buf.length) : (buf.overwrite bytes start).length = buf.length := by
  simp only [overwrite, List.length_append, List.length_take, List.length_drop]
  omega

/-- Overwriting is setting the first byte and overwriting with the rest. -/
theorem overwrite_cons {buf : Buffer} {byte : UInt8} {bytes : Buffer} {start : Nat}
    (h : start < buf.length) :
    buf.overwrite (byte :: bytes) start = overwrite (buf.set start byte) bytes (start + 1) := by
  have htake : (buf.set start byte).take (start + 1) = buf.take start ++ [byte] := by
    rw [List.set_eq_take_append_cons_drop, if_pos h]
    have hlen : (buf.take start).length = start := by rw [List.length_take]; omega
    rw [List.take_append, List.take_of_length_le (by omega), hlen]
    simp
  have hdrop : (buf.set start byte).drop (start + 1 + bytes.length) =
      buf.drop (start + (bytes.length + 1)) := by
    rw [List.drop_set_of_lt (by omega)]
    congr 1
    omega
  simp only [overwrite, List.length_cons, htake, hdrop, List.append_assoc, List.singleton_append]

/-- A copy that fits writes the whole source slice. -/
theorem copy_of_fits {source target : Buffer} {targetStart sourceStart sourceEnd : Nat}
    (hend : sourceEnd ≤ source.length)
    (h : targetStart + (sourceEnd - sourceStart) ≤ target.length) :
    source.copy target targetStart sourceStart sourceEnd =
      target.overwrite (source.slice sourceStart sourceEnd) targetStart := by
  rw [copy, List.take_of_length_le (by rw [length_slice _ hend]; omega)]

/-- The pieces of a message of the announced size are joined without padding. -/
theorem concat_of_length {list : List Buffer} {n : Nat} (h : list.flatten.length = n) :
    concat list n = list.flatten := by
  rw [concat, List.take_append_of_le_length (Nat.le_of_eq h.symm),
    List.take_of_length_le (Nat.le_of_eq h)]

end Buffer

end GrpcNode.Js
