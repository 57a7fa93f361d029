import NodeBackend.Buffer.Encoding

namespace node_backend.cryptography_service

open js buffer

/-- A cipher of node:crypto in a mode that combines its input with a stream. What
`update` keeps back comes with `final`. -/
structure Cipher where
  keystream : Nat → UInt8
  update : Bytes → Bytes
  final : Bytes → Bytes
  output : ∀ data, update data ++ final data = xorStream keystream data

/-- createCipheriv of aes-256-gcm. It throws where the key or the initialization vector
has a length that it does not take. -/
structure Aes256Gcm where
  createCipheriv : Bytes → Bytes → Option Cipher
  accepts : ∀ key iv, key.length = 32 → iv.length = 12 → (createCipheriv key iv).isSome = true

/-- The result of crypto.randomBytes. -/
structure RandomBytes (count : Nat) where
  bytes : Bytes
  length : bytes.length = count

/-- CryptographyService.changeBufferEncoding. -/
def changeBufferEncoding (data : Units) (encoding decoding : BufferEncoding) : Units :=
  decoding.read (encoding.write data)

/-- The bytes that `update` takes from a string. It throws for half a byte. -/
def inputBytes (data : Units) (inputEncoding : BufferEncoding) : Option Bytes :=
  if inputEncoding = .hex ∧ data.length % 2 = 1 then none else some (inputEncoding.write data)

/-- What both directions do inside of their try block, which is to encrypt. -/
def cipherText (aes : Aes256Gcm) (data : Units) (inputEncoding : BufferEncoding) (keyContent iv : Units)
    (outputEncoding : BufferEncoding) : Option Units := do
  let cipher ← aes.createCipheriv (BufferEncoding.hex.write keyContent) (BufferEncoding.hex.write iv)
  let bytes ← inputBytes data inputEncoding
  let hexText := BufferEncoding.hex.read (cipher.update bytes) ++ BufferEncoding.hex.read (cipher.final bytes)
  return outputEncoding.read (BufferEncoding.hex.write hexText)

structure Encryption where
  encrypted : Option Units
  iv : Units

structure Decryption where
  decrypted : Option Units
  iv : Units

/-- CryptographyService.symmetricAESEncrypt, with the bytes that it draws where no
initialization vector is given. -/
def symmetricAESEncrypt (aes : Aes256Gcm) (random : RandomBytes 12) (data : Units) (inputEncoding : BufferEncoding)
    (keyContent : Units) (outputEncoding : BufferEncoding) (iv : Option Units) : Encryption :=
  let IV := iv.getD (BufferEncoding.hex.read random.bytes)
  ⟨cipherText aes data inputEncoding keyContent IV outputEncoding, IV⟩

/-- CryptographyService.symmetricAESDecrypt, which creates a cipher as well. -/
def symmetricAESDecrypt (aes : Aes256Gcm) (data : Units) (inputEncoding : BufferEncoding) (keyContent iv : Units)
    (outputEncoding : BufferEncoding) : Decryption :=
  ⟨cipherText aes data inputEncoding keyContent iv outputEncoding, iv⟩

variable {aes : Aes256Gcm}

/-- The two parts of a hexadecimal text are of whole bytes, so nothing is lost where
they meet. -/
theorem hex_parts (cipher : Cipher) (bytes : Bytes) :
    BufferEncoding.hex.write
      (BufferEncoding.hex.read (cipher.update bytes) ++ BufferEncoding.hex.read (cipher.final bytes)) =
      xorStream cipher.keystream bytes := by
  simp only [BufferEncoding.write, BufferEncoding.read, ← hexRead_append, cipher.output, hexWrite_hexRead]

theorem cipherText_eq {data keyContent iv : Units} {inputEncoding : BufferEncoding} (outputEncoding : BufferEncoding)
    {cipher : Cipher} {bytes : Bytes}
    (hcipher : aes.createCipheriv (BufferEncoding.hex.write keyContent) (BufferEncoding.hex.write iv) =
      some cipher) (hinput : inputBytes data inputEncoding = some bytes) :
    cipherText aes data inputEncoding keyContent iv outputEncoding =
      some (outputEncoding.read (xorStream cipher.keystream bytes)) := by
  unfold cipherText
  simp only [hcipher, hinput, Option.bind_eq_bind, Option.bind_some, hex_parts, Option.pure_def]

/-- A hexadecimal text that is canonical has whole bytes. -/
theorem inputBytes_of_canonical {data : Units} {inputEncoding : BufferEncoding} (h : Canonical inputEncoding data) :
    inputBytes data inputEncoding = some (inputEncoding.write data) := by
  unfold inputBytes
  rw [if_neg]
  rintro ⟨rfl, hodd⟩
  have hlength : (hexRead (hexWrite data)).length = data.length := congrArg List.length h
  rw [length_hexRead] at hlength
  omega

theorem exists_cipher (aes : Aes256Gcm) {keyContent iv : Units} (hkey : HexOf 32 keyContent) (hiv : HexOf 12 iv) :
    ∃ cipher, aes.createCipheriv (BufferEncoding.hex.write keyContent) (BufferEncoding.hex.write iv) = some cipher :=
  Option.isSome_iff_exists.mp (aes.accepts _ _ (length_hexWrite hkey) (length_hexWrite hiv))

/-- The initialization vector is of twelve bytes, whether it is given or drawn. -/
theorem hexOf_iv (random : RandomBytes 12) {iv : Option Units} (hiv : ∀ given ∈ iv, HexOf 12 given) :
    HexOf 12 (iv.getD (BufferEncoding.hex.read random.bytes)) := by
  cases iv with
  | some given => exact hiv given rfl
  | none =>
    have hdrawn := hexOf_hexRead random.bytes
    rwa [random.length] at hdrawn

/-- What was encrypted is decrypted with the same key and the vector that was returned,
the encodings swapped. -/
theorem symmetricAESDecrypt_symmetricAESEncrypt (aes : Aes256Gcm) (random : RandomBytes 12) {data keyContent : Units}
    {inputEncoding outputEncoding : BufferEncoding} {iv : Option Units} (hdata : Canonical inputEncoding data)
    (houtput : outputEncoding.Lossless) (hkey : HexOf 32 keyContent) (hiv : ∀ given ∈ iv, HexOf 12 given) :
    ∃ encrypted,
      (symmetricAESEncrypt aes random data inputEncoding keyContent outputEncoding iv).encrypted = some encrypted ∧
      (symmetricAESDecrypt aes encrypted outputEncoding keyContent
        (symmetricAESEncrypt aes random data inputEncoding keyContent outputEncoding iv).iv inputEncoding).decrypted =
        some data := by
  obtain ⟨cipher, hcipher⟩ := exists_cipher aes hkey (hexOf_iv random hiv)
  have hencrypt := cipherText_eq outputEncoding hcipher (inputBytes_of_canonical hdata)
  have hdecrypt := cipherText_eq inputEncoding hcipher
    (inputBytes_of_canonical (canonical_read houtput (xorStream cipher.keystream (inputEncoding.write data))))
  refine ⟨_, hencrypt, ?_⟩
  unfold symmetricAESDecrypt symmetricAESEncrypt
  rw [hdecrypt, outputEncoding.write_read houtput, xorStream_xorStream, hdata]

/-- A cipher with a stream that repeats some bytes, and holds nothing back. -/
def Cipher.repeating (stream : Bytes) : Cipher where
  keystream place := stream.getD (place % stream.length) 0
  update data := xorStream (fun place => stream.getD (place % stream.length) 0) data
  final _ := []
  output _ := List.append_nil _

/-- A stream that begins as the one of the key and the vector below does. -/
def Aes256Gcm.validKey : Aes256Gcm where
  createCipheriv key iv :=
    if key.length = 32 ∧ iv.length = 12 then
      some (Cipher.repeating [89, 185, 24, 24, 210, 98, 120, 90, 109, 54, 183, 165])
    else none
  accepts key iv hkey hiv := by
    rw [if_pos ⟨hkey, hiv⟩]
    rfl

/-- The SHA-256 hash of "ValidKey". -/
def validKey : Units :=
  units "95b80e0f941c6b5aa75992ee76bed8f5b96921c3a31223afdb8cbaac24c876b4"

def encryptedHello : Encryption :=
  symmetricAESEncrypt Aes256Gcm.validKey ⟨zeros 12, length_zeros 12⟩ (units "Hello world!") .utf8 validKey .base64
    (some (units "2a19dd220ef09ff472b59447"))

theorem decrypts_encryptedHello : encryptedHello.encrypted = some (units "Edx0dL1CDzUfWtOE") ∧
    ∃ encrypted, encryptedHello.encrypted = some encrypted ∧
      (symmetricAESDecrypt Aes256Gcm.validKey encrypted .base64 validKey encryptedHello.iv .utf8).decrypted =
        some (units "Hello world!") := by
  refine ⟨by decide +kernel, ?_⟩
  apply symmetricAESDecrypt_symmetricAESEncrypt Aes256Gcm.validKey
  · exact canonical_utf8 "Hello world!"
  · decide
  · decide +kernel
  · rintro given ⟨⟩
    decide +kernel

end node_backend.cryptography_service
