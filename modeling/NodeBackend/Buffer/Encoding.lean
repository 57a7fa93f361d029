import NodeBackend.Buffer.Base64
import NodeBackend.Buffer.Utf8

namespace buffer

open js

/-- An encoding of a Buffer, under one of its names. -/
inductive BufferEncoding
  | ascii
  | utf8
  | utf16le
  | base64
  | base64url
  | latin1
  | hex
  deriving DecidableEq, Repr

/-- The low byte of every unit. -/
def lowBytes (text : Units) : Bytes :=
  text.map fun unit => UInt8.ofNat unit.toNat

def utf16Write (text : Units) : Bytes :=
  text.flatMap fun unit => [UInt8.ofNat unit.toNat, UInt8.ofNat (unit.toNat / 256)]

/-- Units from pairs of bytes. An odd byte at the end is dropped. -/
def utf16Read : Bytes → Units
  | low :: high :: rest => UInt16.ofNat (high.toNat * 256 + low.toNat) :: utf16Read rest
  | _ => []

/-- Buffer.from of a string. -/
def BufferEncoding.write : BufferEncoding → Units → Bytes
  | ascii, text => lowBytes text
  | utf8, text => utf8Encode (characters text)
  | utf16le, text => utf16Write text
  | base64, text => base64Write text
  | base64url, text => base64Write text
  | latin1, text => lowBytes text
  | hex, text => hexWrite text

/-- The toString of a Buffer. -/
def BufferEncoding.read : BufferEncoding → Bytes → Units
  | ascii, bytes => bytes.map fun byte => UInt16.ofNat (byte.toNat % 128)
  | utf8, bytes => fromCharacters (utf8Decode bytes)
  | utf16le, bytes => utf16Read bytes
  | base64, bytes => base64Read false bytes
  | base64url, bytes => base64Read true bytes
  | latin1, bytes => bytes.map fun byte => UInt16.ofNat byte.toNat
  | hex, bytes => hexRead bytes

/-- A string that is read again from its bytes. -/
def Canonical (encoding : BufferEncoding) (text : Units) : Prop :=
  encoding.read (encoding.write text) = text

instance (encoding : BufferEncoding) (text : Units) : Decidable (Canonical encoding text) :=
  inferInstanceAs (Decidable (_ = _))

/-- The encodings that tell all bytes apart. -/
def BufferEncoding.Lossless (encoding : BufferEncoding) : Prop :=
  encoding ∈ [hex, base64, base64url, latin1]

instance (encoding : BufferEncoding) : Decidable encoding.Lossless :=
  inferInstanceAs (Decidable (_ ∈ _))

theorem write_read_latin1 (bytes : Bytes) : BufferEncoding.latin1.write (BufferEncoding.latin1.read bytes) = bytes := by
  simp only [BufferEncoding.write, BufferEncoding.read, lowBytes, List.map_map]
  conv_rhs => rw [← List.map_id bytes]
  apply List.map_congr_left
  intro byte _
  have hlt := byte.toNat_lt
  simp only [Function.comp, id]
  rw [toNat_ofNat_unit (by omega), UInt8.ofNat_toNat]

/-- Bytes are written again from what a lossless encoding reads. -/
theorem BufferEncoding.write_read {encoding : BufferEncoding} (h : encoding.Lossless) (bytes : Bytes) :
    encoding.write (encoding.read bytes) = bytes := by
  simp only [Lossless, List.mem_cons, List.not_mem_nil, or_false] at h
  obtain rfl | rfl | rfl | rfl := h
  · exact hexWrite_hexRead bytes
  · exact base64Write_base64Read false bytes
  · exact base64Write_base64Read true bytes
  · exact write_read_latin1 bytes

/-- What a lossless encoding reads is canonical. -/
theorem canonical_read {encoding : BufferEncoding} (h : encoding.Lossless) (bytes : Bytes) :
    Canonical encoding (encoding.read bytes) := by
  rw [Canonical, encoding.write_read h]

/-- A text without unpaired surrogates is canonical in utf8. -/
theorem canonical_utf8 (text : String) : Canonical .utf8 (units text) := by
  simp only [Canonical, BufferEncoding.write, BufferEncoding.read, units, characters_fromCharacters,
    utf8Decode_utf8Encode]

end buffer
