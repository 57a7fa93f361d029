import Mathlib.Tactic

namespace buffer

abbrev Bytes : Type :=
  List UInt8

/-- Bytes of a given number that are all zero, as a new Uint8Array has them. -/
def zeros (length : Nat) : Bytes :=
  List.replicate length 0

/-- Bytes combined with a stream, each with the byte of the stream at its place. -/
def xorStream (keystream : Nat → UInt8) (bytes : Bytes) : Bytes :=
  bytes.mapIdx fun place byte => byte ^^^ keystream place

/-- Whether a chunk fits where it is written. -/
def Fits (target chunk : Bytes) (offset : Nat) : Prop :=
  offset + chunk.length ≤ target.length

instance (target chunk : Bytes) (offset : Nat) : Decidable (Fits target chunk offset) :=
  inferInstanceAs (Decidable (_ ≤ _))

/-- The bytes after a chunk that fits was written over them. -/
def overwrite (target chunk : Bytes) (offset : Nat) : Bytes :=
  target.take offset ++ (chunk ++ target.drop (offset + chunk.length))

/-- A stream takes itself away again. -/
theorem xorStream_xorStream (keystream : Nat → UInt8) (bytes : Bytes) :
    xorStream keystream (xorStream keystream bytes) = bytes := by
  apply List.ext_getElem
  · simp [xorStream]
  · intro place h h'
    simp only [xorStream, List.getElem_mapIdx]
    rw [UInt8.xor_assoc, UInt8.xor_self, UInt8.xor_zero]

theorem length_zeros (length : Nat) : (zeros length).length = length :=
  List.length_replicate

theorem zeros_zero : zeros 0 = [] := rfl

/-- A chunk fits behind what was written as long as there is room for it. -/
theorem fits_append_zeros {chunk : Bytes} {room : Nat} (h : chunk.length ≤ room) (written : Bytes) :
    Fits (written ++ zeros room) chunk written.length := by
  unfold Fits
  rw [List.length_append, length_zeros]
  omega

theorem overwrite_append_zeros (chunk : Bytes) (room : Nat) (written : Bytes) :
    overwrite (written ++ zeros room) chunk written.length = written ++ chunk ++ zeros (room - chunk.length) := by
  unfold overwrite zeros
  rw [List.take_left, List.drop_append, List.drop_eq_nil_of_le (by omega), List.nil_append, List.drop_replicate,
    Nat.add_sub_cancel_left, List.append_assoc]

end buffer
