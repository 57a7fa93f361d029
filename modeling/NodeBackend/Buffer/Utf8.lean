import NodeBackend.Buffer.Hex

namespace buffer

open js

/-- The bytes of characters. -/
def utf8Encode (characters : List Char) : Bytes :=
  characters.flatMap String.utf8EncodeChar

/-- A character of which bytes are missing, and the range of the next one. -/
structure Utf8Pending where
  codePoint : Nat
  needed : Nat
  lower : Nat
  upper : Nat

/-- A byte at the start of a character. -/
def utf8Start (byte : UInt8) : List Char × Option Utf8Pending :=
  let n := byte.toNat
  if n ≤ 127 then ([Char.ofNat n], none)
  else if 194 ≤ n ∧ n ≤ 223 then ([], some ⟨n - 192, 1, 128, 191⟩)
  else if 224 ≤ n ∧ n ≤ 239 then
    ([], some ⟨n - 224, 2, if n = 224 then 160 else 128, if n = 237 then 159 else 191⟩)
  else if 240 ≤ n ∧ n ≤ 244 then
    ([], some ⟨n - 240, 3, if n = 240 then 144 else 128, if n = 244 then 143 else 191⟩)
  else ([replacementCharacter], none)

/-- A byte within a character. One that does not continue it is read again as a start. -/
def utf8Continue (pending : Utf8Pending) (byte : UInt8) : List Char × Option Utf8Pending :=
  let n := byte.toNat
  if pending.lower ≤ n ∧ n ≤ pending.upper then
    let codePoint := pending.codePoint * 64 + (n - 128)
    if pending.needed ≤ 1 then ([Char.ofNat codePoint], none)
    else ([], some ⟨codePoint, pending.needed - 1, 128, 191⟩)
  else (replacementCharacter :: (utf8Start byte).1, (utf8Start byte).2)

def utf8Step : Option Utf8Pending → UInt8 → List Char × Option Utf8Pending
  | none => utf8Start
  | some pending => utf8Continue pending

def utf8DecodeFrom : Option Utf8Pending → Bytes → List Char
  | none, [] => []
  | some _, [] => [replacementCharacter]
  | pending, byte :: rest => (utf8Step pending byte).1 ++ utf8DecodeFrom (utf8Step pending byte).2 rest

/-- The characters of bytes, with U+FFFD for what is not well formed. -/
def utf8Decode (bytes : Bytes) : List Char :=
  utf8DecodeFrom none bytes

theorem toNat_ofNat_of_lt {n : Nat} (hn : n < 256) : (UInt8.ofNat n).toNat = n :=
  UInt8.toNat_ofNat_of_lt' hn

theorem utf8DecodeFrom_start (byte : UInt8) (rest : Bytes) : utf8DecodeFrom none (byte :: rest) =
    (utf8Start byte).1 ++ utf8DecodeFrom (utf8Start byte).2 rest := rfl

/-- A byte in the range that a character waits for. -/
theorem utf8DecodeFrom_last {pending : Utf8Pending} {n : Nat} (hn : n < 256)
    (hrange : pending.lower ≤ n ∧ n ≤ pending.upper) (hneeded : pending.needed ≤ 1) (rest : Bytes) :
    utf8DecodeFrom (some pending) (UInt8.ofNat n :: rest) =
      Char.ofNat (pending.codePoint * 64 + (n - 128)) :: utf8DecodeFrom none rest := by
  have hbyte : (UInt8.ofNat n).toNat = n := toNat_ofNat_of_lt hn
  simp only [utf8DecodeFrom, utf8Step, utf8Continue, hbyte, if_pos hrange, if_pos hneeded, List.singleton_append]

theorem utf8DecodeFrom_middle {pending : Utf8Pending} {n : Nat} (hn : n < 256)
    (hrange : pending.lower ≤ n ∧ n ≤ pending.upper) (hneeded : ¬ pending.needed ≤ 1) (rest : Bytes) :
    utf8DecodeFrom (some pending) (UInt8.ofNat n :: rest) =
      utf8DecodeFrom (some ⟨pending.codePoint * 64 + (n - 128), pending.needed - 1, 128, 191⟩) rest := by
  have hbyte : (UInt8.ofNat n).toNat = n := toNat_ofNat_of_lt hn
  simp only [utf8DecodeFrom, utf8Step, utf8Continue, hbyte, if_pos hrange, if_neg hneeded, List.nil_append]

section characters

variable {n : Nat} (rest : Bytes)

theorem utf8Decode_one (hn : n ≤ 127) :
    utf8DecodeFrom none (UInt8.ofNat n :: rest) = Char.ofNat n :: utf8DecodeFrom none rest := by
  have hbyte : (UInt8.ofNat n).toNat = n := toNat_ofNat_of_lt (by omega)
  simp only [utf8DecodeFrom_start, utf8Start, hbyte, if_pos hn, List.singleton_append]

theorem utf8Decode_two (hlower : 128 ≤ n) (hupper : n ≤ 2047) :
    utf8DecodeFrom none (UInt8.ofNat (n / 64 % 32 + 192) :: UInt8.ofNat (n % 64 + 128) :: rest) =
      Char.ofNat n :: utf8DecodeFrom none rest := by
  have hfirst : (UInt8.ofNat (n / 64 % 32 + 192)).toNat = n / 64 + 192 := by
    rw [toNat_ofNat_of_lt (by omega)]
    omega
  have hpoint : (n / 64 + 192 - 192) * 64 + (n % 64 + 128 - 128) = n := by omega
  rw [utf8DecodeFrom_start]
  simp only [utf8Start, hfirst]
  rw [if_neg (by omega), if_pos (by omega), List.nil_append,
    utf8DecodeFrom_last (by omega) (by dsimp only; omega) (by simp), hpoint]

theorem utf8Decode_three (hlower : 2048 ≤ n) (hupper : n ≤ 65535) (hscalar : ¬ (55296 ≤ n ∧ n ≤ 57343)) :
    utf8DecodeFrom none (UInt8.ofNat (n / 4096 % 16 + 224) :: UInt8.ofNat (n / 64 % 64 + 128) ::
      UInt8.ofNat (n % 64 + 128) :: rest) = Char.ofNat n :: utf8DecodeFrom none rest := by
  have hfirst : (UInt8.ofNat (n / 4096 % 16 + 224)).toNat = n / 4096 + 224 := by
    rw [toNat_ofNat_of_lt (by omega)]
    omega
  have hpoint : ((n / 4096 + 224 - 224) * 64 + (n / 64 % 64 + 128 - 128)) * 64 + (n % 64 + 128 - 128) = n := by omega
  rw [utf8DecodeFrom_start]
  simp only [utf8Start, hfirst]
  rw [if_neg (by omega), if_neg (by omega), if_pos (by omega), List.nil_append,
    utf8DecodeFrom_middle (by omega) (by constructor <;> dsimp only <;> split <;> omega) (by simp),
    utf8DecodeFrom_last (by omega) (by dsimp only; omega) (by simp), hpoint]

theorem utf8Decode_four (hlower : 65536 ≤ n) (hupper : n ≤ 1114111) :
    utf8DecodeFrom none (UInt8.ofNat (n / 262144 % 8 + 240) :: UInt8.ofNat (n / 4096 % 64 + 128) ::
      UInt8.ofNat (n / 64 % 64 + 128) :: UInt8.ofNat (n % 64 + 128) :: rest) =
      Char.ofNat n :: utf8DecodeFrom none rest := by
  have hfirst : (UInt8.ofNat (n / 262144 % 8 + 240)).toNat = n / 262144 + 240 := by
    rw [toNat_ofNat_of_lt (by omega)]
    omega
  have hpoint : (((n / 262144 + 240 - 240) * 64 + (n / 4096 % 64 + 128 - 128)) * 64 + (n / 64 % 64 + 128 - 128)) * 64 +
      (n % 64 + 128 - 128) = n := by omega
  rw [utf8DecodeFrom_start]
  simp only [utf8Start, hfirst]
  rw [if_neg (by omega), if_neg (by omega), if_neg (by omega), if_pos (by omega), List.nil_append,
    utf8DecodeFrom_middle (by omega) (by constructor <;> dsimp only <;> split <;> omega) (by simp),
    utf8DecodeFrom_middle (by omega) (by dsimp only; omega) (by simp),
    utf8DecodeFrom_last (by omega) (by dsimp only; omega) (by simp), hpoint]

theorem utf8DecodeFrom_encodeChar (c : Char) :
    utf8DecodeFrom none (String.utf8EncodeChar c ++ rest) = c :: utf8DecodeFrom none rest := by
  have hvalid : c.toNat < 55296 ∨ 57343 < c.toNat ∧ c.toNat < 1114112 := c.valid
  have hchar : Char.ofNat c.toNat = c := Char.ofNat_toNat c
  have hval : c.val.toNat = c.toNat := rfl
  unfold String.utf8EncodeChar
  simp only [hval]
  split
  · have h := utf8Decode_one rest (n := c.toNat) (by omega)
    rwa [hchar] at h
  · split
    · have h := utf8Decode_two rest (n := c.toNat) (by omega) (by omega)
      rwa [hchar] at h
    · split
      · have h := utf8Decode_three rest (n := c.toNat) (by omega) (by omega) (by omega)
        rwa [hchar] at h
      · have h := utf8Decode_four rest (n := c.toNat) (by omega) (by omega)
        rwa [hchar] at h

end characters

/-- Characters are decoded from their bytes. -/
theorem utf8Decode_utf8Encode (characters : List Char) : utf8Decode (utf8Encode characters) = characters := by
  induction characters with
  | nil => rfl
  | cons c rest ih =>
    have hencode : utf8Encode (c :: rest) = String.utf8EncodeChar c ++ utf8Encode rest := List.flatMap_cons
    rw [utf8Decode, hencode, utf8DecodeFrom_encodeChar]
    exact congrArg (c :: ·) ih

end buffer
