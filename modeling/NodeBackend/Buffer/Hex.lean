import NodeBackend.Buffer.Bytes
import NodeBackend.Js.Units

namespace buffer

open js

/-- A digit below sixteen, in lower case. -/
def hexDigit (n : Nat) : UInt16 :=
  UInt16.ofNat (if n < 10 then 48 + n else 87 + n)

/-- The value of a digit in either case. -/
def hexValue (unit : UInt16) : Option Nat :=
  let n := unit.toNat
  if 48 ≤ n ∧ n ≤ 57 then some (n - 48)
  else if 97 ≤ n ∧ n ≤ 102 then some (n - 87)
  else if 65 ≤ n ∧ n ≤ 70 then some (n - 55)
  else none

def hexByte (byte : UInt8) : Units :=
  [hexDigit (byte.toNat / 16), hexDigit (byte.toNat % 16)]

/-- The hexadecimal text of bytes. -/
def hexRead (bytes : Bytes) : Units :=
  bytes.flatMap hexByte

/-- The bytes of a hexadecimal text, until the first pair that is not of two digits. -/
def hexWrite : Units → Bytes
  | high :: low :: rest =>
    match hexValue high, hexValue low with
    | some h, some l => UInt8.ofNat (16 * h + l) :: hexWrite rest
    | _, _ => []
  | _ => []

theorem hexValue_hexDigit {n : Nat} (hn : n < 16) : hexValue (hexDigit n) = some n := by
  interval_cases n <;> decide

theorem hexWrite_hexByte (byte : UInt8) (rest : Units) : hexWrite (hexByte byte ++ rest) = byte :: hexWrite rest := by
  have hlt := byte.toNat_lt
  have hhigh : hexValue (hexDigit (byte.toNat / 16)) = some (byte.toNat / 16) := hexValue_hexDigit (by omega)
  have hlow : hexValue (hexDigit (byte.toNat % 16)) = some (byte.toNat % 16) := hexValue_hexDigit (by omega)
  have hbyte : UInt8.ofNat (16 * (byte.toNat / 16) + byte.toNat % 16) = byte := by
    rw [Nat.div_add_mod, UInt8.ofNat_toNat]
  simp only [hexByte, List.cons_append, List.nil_append, hexWrite, hhigh, hlow, hbyte]

theorem hexWrite_hexRead (bytes : Bytes) : hexWrite (hexRead bytes) = bytes := by
  induction bytes with
  | nil => rfl
  | cons byte rest ih =>
    have hread : hexRead (byte :: rest) = hexByte byte ++ hexRead rest := List.flatMap_cons
    rw [hread, hexWrite_hexByte, ih]

theorem hexRead_append (bytes more : Bytes) : hexRead (bytes ++ more) = hexRead bytes ++ hexRead more :=
  List.flatMap_append

theorem length_hexRead (bytes : Bytes) : (hexRead bytes).length = 2 * bytes.length := by
  induction bytes with
  | nil => rfl
  | cons byte rest ih =>
    have hread : hexRead (byte :: rest) = hexByte byte ++ hexRead rest := List.flatMap_cons
    rw [hread, List.length_append, ih, List.length_cons]
    simp only [hexByte, List.length_cons, List.length_nil]
    omega

/-- A text of digits that stand for a number of bytes. -/
def HexOf (count : Nat) (text : Units) : Prop :=
  text.length = 2 * count ∧ ∀ unit ∈ text, (hexValue unit).isSome = true

instance (count : Nat) (text : Units) : Decidable (HexOf count text) :=
  @instDecidableAnd _ _ _ (List.decidableBAll _ text)

theorem length_hexWrite {count : Nat} {text : Units} (h : HexOf count text) : (hexWrite text).length = count := by
  induction count generalizing text with
  | zero =>
    have hempty : text = [] := List.length_eq_zero_iff.mp h.1
    subst hempty
    rfl
  | succ count ih =>
    obtain ⟨hlength, hdigits⟩ := h
    obtain ⟨high, low, rest, rfl⟩ : ∃ high low rest, text = high :: low :: rest := by
      match text, hlength with
      | high :: low :: rest, _ => exact ⟨high, low, rest, rfl⟩
      | [_], hlength => simp at hlength; omega
      | [], hlength => simp at hlength
    obtain ⟨highValue, hhigh⟩ := Option.isSome_iff_exists.mp (hdigits high (by simp))
    obtain ⟨lowValue, hlow⟩ := Option.isSome_iff_exists.mp (hdigits low (by simp))
    simp only [hexWrite, hhigh, hlow, List.length_cons]
    rw [ih ⟨by simp at hlength; omega, fun unit hunit => hdigits unit (by simp [hunit])⟩]

theorem hexOf_hexRead (bytes : Bytes) : HexOf bytes.length (hexRead bytes) := by
  refine ⟨length_hexRead bytes, ?_⟩
  intro unit hunit
  obtain ⟨byte, _, hbyte⟩ := List.mem_flatMap.mp hunit
  have hlt := byte.toNat_lt
  simp only [hexByte, List.mem_cons, List.not_mem_nil, or_false] at hbyte
  obtain rfl | rfl := hbyte
  · rw [hexValue_hexDigit (by omega)]
    rfl
  · rw [hexValue_hexDigit (by omega)]
    rfl

end buffer
