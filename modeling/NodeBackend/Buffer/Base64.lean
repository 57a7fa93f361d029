import NodeBackend.Buffer.Hex

namespace buffer

open js

/-- The digit of a sextet, in the alphabet of base64 or of base64url. -/
def base64Digit (url : Bool) (n : Nat) : UInt16 :=
  UInt16.ofNat (if n < 26 then 65 + n
    else if n < 52 then 71 + n
    else if n < 62 then n - 4
    else if n = 62 then (if url then 45 else 43)
    else if url then 95 else 47)

/-- The sextet of a digit of either alphabet. -/
def base64Value (unit : UInt16) : Option Nat :=
  let n := unit.toNat
  if 65 ≤ n ∧ n ≤ 90 then some (n - 65)
  else if 97 ≤ n ∧ n ≤ 122 then some (n - 71)
  else if 48 ≤ n ∧ n ≤ 57 then some (n + 4)
  else if n = 43 ∨ n = 45 then some 62
  else if n = 47 ∨ n = 95 then some 63
  else none

/-- Bytes as sextets, the last ones filled up with zeros. -/
def sextets : Bytes → List Nat
  | a :: b :: c :: rest =>
    a.toNat / 4 :: (a.toNat % 4 * 16 + b.toNat / 16) :: (b.toNat % 16 * 4 + c.toNat / 64) :: c.toNat % 64 ::
      sextets rest
  | [a, b] => [a.toNat / 4, a.toNat % 4 * 16 + b.toNat / 16, b.toNat % 16 * 4]
  | [a] => [a.toNat / 4, a.toNat % 4 * 16]
  | [] => []

/-- The whole bytes of sextets. -/
def fromSextets : List Nat → Bytes
  | a :: b :: c :: d :: rest =>
    UInt8.ofNat (a * 4 + b / 16) :: UInt8.ofNat (b % 16 * 16 + c / 4) :: UInt8.ofNat (c % 4 * 64 + d) ::
      fromSextets rest
  | [a, b, c] => [UInt8.ofNat (a * 4 + b / 16), UInt8.ofNat (b % 16 * 16 + c / 4)]
  | [a, b] => [UInt8.ofNat (a * 4 + b / 16)]
  | _ => []

/-- Base64 is padded to groups of four, base64url is not. -/
def base64Padding (url : Bool) (length : Nat) : Units :=
  if url then [] else List.replicate ((3 - length % 3) % 3) 61

/-- The base64 text of bytes. -/
def base64Read (url : Bool) (bytes : Bytes) : Units :=
  (sextets bytes).map (base64Digit url) ++ base64Padding url bytes.length

/-- The bytes of a base64 text. Whatever is no digit is left out. -/
def base64Write (text : Units) : Bytes :=
  fromSextets (text.filterMap base64Value)

theorem base64Value_base64Digit (url : Bool) {n : Nat} (hn : n < 64) : base64Value (base64Digit url n) = some n := by
  cases url <;> interval_cases n <;> decide

theorem sextets_lt (bytes : Bytes) : ∀ n ∈ sextets bytes, n < 64 := by
  fun_induction sextets bytes with
  | case1 a b c rest ih =>
    have ha := a.toNat_lt
    have hb := b.toNat_lt
    have hc := c.toNat_lt
    simp only [List.forall_mem_cons]
    exact ⟨by omega, by omega, by omega, by omega, ih⟩
  | case2 a b =>
    have ha := a.toNat_lt
    have hb := b.toNat_lt
    simp only [List.forall_mem_cons]
    exact ⟨by omega, by omega, by omega, by simp⟩
  | case3 a =>
    have ha := a.toNat_lt
    simp only [List.forall_mem_cons]
    exact ⟨by omega, by omega, by simp⟩
  | case4 => simp

theorem ofNat_of_eq {n : Nat} (byte : UInt8) (h : n = byte.toNat) : UInt8.ofNat n = byte := by
  rw [h, UInt8.ofNat_toNat]

theorem fromSextets_sextets (bytes : Bytes) : fromSextets (sextets bytes) = bytes := by
  fun_induction sextets bytes with
  | case1 a b c rest ih =>
    have ha := a.toNat_lt
    have hb := b.toNat_lt
    have hc := c.toNat_lt
    rw [fromSextets, ih, ofNat_of_eq a (by omega), ofNat_of_eq b (by omega),
      ofNat_of_eq c (by omega)]
  | case2 a b =>
    have ha := a.toNat_lt
    have hb := b.toNat_lt
    rw [fromSextets, ofNat_of_eq a (by omega), ofNat_of_eq b (by omega)]
  | case3 a =>
    have ha := a.toNat_lt
    rw [fromSextets, ofNat_of_eq a (by omega)]
  | case4 => rfl

theorem filterMap_base64Digit (url : Bool) {digits : List Nat} (h : ∀ n ∈ digits, n < 64) :
    (digits.map (base64Digit url)).filterMap base64Value = digits := by
  induction digits with
  | nil => rfl
  | cons n rest ih =>
    rw [List.forall_mem_cons] at h
    rw [List.map_cons, List.filterMap_cons, base64Value_base64Digit url h.1, ih h.2]

theorem filterMap_base64Padding (url : Bool) (length : Nat) :
    (base64Padding url length).filterMap base64Value = [] := by
  rw [List.filterMap_eq_nil_iff]
  intro unit hunit
  unfold base64Padding at hunit
  cases url with
  | true => cases hunit
  | false =>
    rw [List.eq_of_mem_replicate hunit]
    rfl

theorem base64Write_base64Read (url : Bool) (bytes : Bytes) : base64Write (base64Read url bytes) = bytes := by
  rw [base64Write, base64Read, List.filterMap_append, filterMap_base64Padding, List.append_nil,
    filterMap_base64Digit url (sextets_lt bytes), fromSextets_sextets]

end buffer
