import Mathlib.Algebra.Order.Floor.Ring
import Mathlib.Data.Rat.Floor
import NodeBackend.Json.Number

namespace js

/-- A magnitude that a double can have: 53 bits and an exponent. -/
def Representable (x : ℚ) : Prop :=
  ∃ (bits : ℕ) (exponent : ℤ), bits < 2 ^ 53 ∧ -1074 ≤ exponent ∧ exponent ≤ 971 ∧ x = bits * 2 ^ exponent

theorem representable_zero : Representable 0 :=
  ⟨0, 0, by simp, by simp, by simp, by simp⟩

theorem representable_of_lt {n : ℕ} (hn : n < 2 ^ 53) : Representable n :=
  ⟨n, 0, hn, by simp, by simp, by simp⟩

theorem Representable.nonneg {x : ℚ} (h : Representable x) : 0 ≤ x := by
  obtain ⟨bits, exponent, _, _, _, rfl⟩ := h
  positivity

/-- Two different doubles are more than half a unit in the last place of one apart. -/
theorem Representable.gap {x y : ℚ} (hx : Representable x) (hy : Representable y) (hpos : 0 < y) (hlt : y < x) :
    y * (1 + 1 / 2 ^ 53) < x := by
  obtain ⟨m, e, hm, _, _, rfl⟩ := hx
  obtain ⟨k, f, hk, _, _, rfl⟩ := hy
  have hm' : (m : ℚ) < 2 ^ 53 := by exact_mod_cast hm
  have hk' : (k : ℚ) < 2 ^ 53 := by exact_mod_cast hk
  obtain hle | hle := le_total f e
  · obtain ⟨d, rfl⟩ := Int.le.dest hle
    have hunit : (0 : ℚ) < 2 ^ f := by positivity
    rw [zpow_add₀ (by simp), zpow_natCast] at hlt ⊢
    have hbits : k < m * 2 ^ d := by
      have hscaled : (k : ℚ) * 2 ^ f < (m * 2 ^ d) * 2 ^ f := by linarith
      exact_mod_cast lt_of_mul_lt_mul_right hscaled hunit.le
    have hstep : (k : ℚ) + 1 ≤ m * 2 ^ d := by exact_mod_cast hbits
    have hbelow : (k : ℚ) * (1 + 1 / 2 ^ 53) < m * 2 ^ d := by linarith
    have hscaled := mul_lt_mul_of_pos_right hbelow hunit
    linarith
  · obtain ⟨d, rfl⟩ := Int.le.dest hle
    have hunit : (0 : ℚ) < 2 ^ e := by positivity
    rw [zpow_add₀ (by simp), zpow_natCast] at hlt ⊢
    have hbits : k * 2 ^ d < m := by
      have hscaled : ((k : ℚ) * 2 ^ d) * 2 ^ e < m * 2 ^ e := by linarith
      exact_mod_cast lt_of_mul_lt_mul_right hscaled hunit.le
    have hstep : (k : ℚ) * 2 ^ d + 1 ≤ m := by exact_mod_cast hbits
    have hbelow : ((k : ℚ) * 2 ^ d) * (1 + 1 / 2 ^ 53) < m := by linarith
    have hscaled := mul_lt_mul_of_pos_right hbelow hunit
    linarith

/-- A finite double by its sign and its magnitude. Zero comes with either sign. -/
structure Double where
  negative : Bool
  magnitude : ℚ
  representable : Representable magnitude

/-- A natural number below 2 ^ 53. -/
def Double.ofNat (n : ℕ) (hn : n < 2 ^ 53) : Double :=
  ⟨false, n, representable_of_lt hn⟩

def Double.zero : Double := .ofNat 0 (by simp)

def Double.one : Double := .ofNat 1 (by simp)

def Double.ten : Double := .ofNat 10 (by simp)

/-- The value of a double, where both zeros are one. -/
def Double.value (x : Double) : ℚ :=
  if x.negative then -x.magnitude else x.magnitude

/-- A value of type Number. -/
inductive Number
  | nan
  | infinity (negative : Bool)
  | finite (value : Double)

/-- Exact magnitudes from here on become infinite. -/
def overflow : ℚ :=
  json.overflow

theorem overflow_eq : overflow = 2 ^ 970 * (2 ^ 54 - 1) := by
  have hle : 2 ^ 970 ≤ 2 ^ 1024 := by gcongr <;> simp
  calc overflow = ((2 ^ 1024 - 2 ^ 970 : ℕ) : ℚ) := congrArg Nat.cast json.overflow_eq
    _ = 2 ^ 1024 - 2 ^ 970 := by rw [Nat.cast_sub hle, Nat.cast_pow, Nat.cast_pow, Nat.cast_ofNat]
    _ = 2 ^ 970 * 2 ^ 54 - 2 ^ 970 := congrArg (· - 2 ^ 970) (pow_add 2 970 54)
    _ = 2 ^ 970 * (2 ^ 54 - 1) := (mul_sub_one _ _).symm

theorem one_lt_overflow : 1 < overflow := by
  have hfactor : (2 : ℚ) ≤ 2 ^ 54 - 1 := by norm_num
  have hone : (1 : ℚ) ≤ 2 ^ 970 := one_le_pow₀ (by simp)
  calc (1 : ℚ) < 1 * 2 := by simp
    _ ≤ 2 ^ 970 * (2 ^ 54 - 1) := mul_le_mul hone hfactor (by simp) (by positivity)
    _ = overflow := overflow_eq.symm

/-- Rounding of exact magnitudes to the nearest double. Which way ties go is left open. -/
structure Rounding where
  nearest : ℚ → ℚ
  representable : ∀ q, Representable (nearest q)
  closest : ∀ q y, Representable y → |nearest q - q| ≤ |y - q|

namespace Rounding

variable (rounding : Rounding) {q x y : ℚ}

theorem nearest_of_representable (hq : Representable q) : rounding.nearest q = q := by
  have hclosest := rounding.closest q q hq
  rw [sub_self, abs_zero] at hclosest
  exact sub_eq_zero.mp (abs_nonpos_iff.mp hclosest)

theorem nearest_le (hy : Representable y) (hle : q ≤ y) : rounding.nearest q ≤ y := by
  by_contra hlt
  have hclosest := rounding.closest q y hy
  rw [abs_of_nonneg (by linarith), abs_of_nonneg (by linarith)] at hclosest
  linarith

theorem le_nearest (hy : Representable y) (hle : y ≤ q) : y ≤ rounding.nearest q := by
  by_contra hlt
  have hclosest := rounding.closest q y hy
  rw [abs_of_nonpos (by linarith), abs_of_nonpos (by linarith)] at hclosest
  linarith

theorem representable_one : Representable 1 := by
  simpa using representable_of_lt (n := 1) (by simp)

theorem one_lt_nearest (hq : 1 + 1 / 2 ^ 53 < q) : 1 < rounding.nearest q := by
  have hnext : Representable (1 + 1 / 2 ^ 52) := ⟨2 ^ 52 + 1, -52, by simp, by simp, by simp, by norm_num⟩
  obtain hle | hlt := le_total (1 + 1 / 2 ^ 52) q
  · exact lt_of_lt_of_le (by norm_num) (rounding.le_nearest hnext hle)
  · by_contra hsmall
    have hclosest := rounding.closest q _ hnext
    rw [abs_of_nonpos (by norm_num at hq; linarith), abs_of_nonneg (by linarith)] at hclosest
    norm_num at hclosest hq
    linarith

theorem nearest_lt_one (hq : q * (1 + 1 / 2 ^ 53) < 1) : rounding.nearest q < 1 := by
  have hprevious : Representable (1 - 1 / 2 ^ 53) := ⟨2 ^ 53 - 1, -53, by simp, by simp, by simp, by norm_num⟩
  obtain hle | hlt := le_total q (1 - 1 / 2 ^ 53)
  · exact lt_of_le_of_lt (rounding.nearest_le hprevious hle) (by norm_num)
  · by_contra hlarge
    have hclosest := rounding.closest q _ hprevious
    norm_num at hq hlt hlarge
    rw [abs_of_nonneg (by linarith), abs_of_nonpos (by norm_num; linarith)] at hclosest
    norm_num at hclosest
    linarith

/-- A quotient of doubles is above one exactly if the dividend is above the divisor. -/
theorem nearest_div_le_one_iff (hx : Representable x) (hy : Representable y) (hpos : 0 < y) :
    rounding.nearest (x / y) ≤ 1 ↔ x ≤ y := by
  constructor
  · intro hle
    by_contra hlt
    rw [not_le] at hlt
    have hgap : 1 + 1 / 2 ^ 53 < x / y := by
      rw [lt_div_iff₀ hpos, mul_comm]
      exact hx.gap hy hpos hlt
    exact absurd (rounding.one_lt_nearest hgap) (not_lt.mpr hle)
  · intro hle
    exact rounding.nearest_le representable_one ((div_le_one hpos).mpr hle)

theorem nearest_div_lt_one_iff (hx : Representable x) (hy : Representable y) (hpos : 0 < y) :
    rounding.nearest (x / y) < 1 ↔ x < y := by
  constructor
  · intro hlt
    by_contra hle
    rw [not_lt] at hle
    exact absurd (rounding.le_nearest representable_one ((one_le_div hpos).mpr hle)) (not_le.mpr hlt)
  · intro hlt
    obtain hzero | hxpos := hx.nonneg.eq_or_lt
    · rw [← hzero, zero_div]
      exact rounding.nearest_lt_one (by simp)
    · apply rounding.nearest_lt_one
      rw [div_mul_eq_mul_div, div_lt_one hpos]
      exact hy.gap hx hxpos hlt

theorem nearest_zero : rounding.nearest 0 = 0 :=
  rounding.nearest_of_representable representable_zero

/-- The number that an exact result is rounded to. -/
def number (negative : Bool) (magnitude : ℚ) : Number :=
  if overflow ≤ magnitude then .infinity negative
  else .finite ⟨negative, rounding.nearest magnitude, rounding.representable magnitude⟩

theorem number_of_lt {negative : Bool} {magnitude : ℚ} (h : magnitude < overflow) :
    rounding.number negative magnitude =
      .finite ⟨negative, rounding.nearest magnitude, rounding.representable magnitude⟩ :=
  if_neg (not_le.mpr h)

theorem number_of_le {negative : Bool} {magnitude : ℚ} (h : overflow ≤ magnitude) :
    rounding.number negative magnitude = .infinity negative :=
  if_pos h

/-- The number of a count. -/
def ofNat (n : ℕ) : Number :=
  rounding.number false n

/-- Whole numbers that a double can have are in range. -/
theorem lt_overflow_of_lt {n : ℕ} (hn : n < 2 ^ 53) : (n : ℚ) < overflow := by
  have hbound : (n : ℚ) < 2 ^ 53 := by exact_mod_cast hn
  have hrange : (2 : ℚ) ^ 53 ≤ 2 ^ 970 * (2 ^ 54 - 1) := by
    calc (2 : ℚ) ^ 53 ≤ 1 * (2 ^ 54 - 1) := by norm_num
      _ ≤ 2 ^ 970 * (2 ^ 54 - 1) := mul_le_mul_of_nonneg_right (one_le_pow₀ (by simp)) (by norm_num)
  rw [← overflow_eq] at hrange
  exact lt_of_lt_of_le hbound hrange

theorem number_natCast {n : ℕ} (hn : n < 2 ^ 53) : rounding.number false n = .finite (.ofNat n hn) := by
  have hnearest := rounding.nearest_of_representable (representable_of_lt hn)
  simp only [Double.ofNat, rounding.number_of_lt (lt_overflow_of_lt hn), hnearest]

theorem ofNat_of_lt {n : ℕ} (hn : n < 2 ^ 53) : rounding.ofNat n = .finite (.ofNat n hn) :=
  rounding.number_natCast hn

/-- `x / y`. -/
def divide (x : Number) (y : Double) : Number :=
  match x with
  | .nan => .nan
  | .infinity negative => .infinity (negative != y.negative)
  | .finite x =>
    if y.magnitude = 0 then (if x.magnitude = 0 then .nan else .infinity (x.negative != y.negative))
    else rounding.number (x.negative != y.negative) (x.magnitude / y.magnitude)

theorem divide_of_ne {x y : Double} (hy : y.magnitude ≠ 0) :
    rounding.divide (.finite x) y = rounding.number (x.negative != y.negative) (x.magnitude / y.magnitude) :=
  if_neg hy

theorem divide_by_zero {x y : Double} (hy : y.magnitude = 0) (hx : x.magnitude ≠ 0) :
    rounding.divide (.finite x) y = .infinity (x.negative != y.negative) :=
  (if_pos hy).trans (if_neg hx)

theorem divide_zero_by_zero {x y : Double} (hy : y.magnitude = 0) (hx : x.magnitude = 0) :
    rounding.divide (.finite x) y = .nan :=
  (if_pos hy).trans (if_pos hx)

/-- `x * y`. -/
def multiply (x y : Double) : Number :=
  rounding.number (x.negative != y.negative) (x.magnitude * y.magnitude)

/-- A product of whole numbers is exact as long as it is small. -/
theorem multiply_natCast {x y : Double} {m n : ℕ} (hx : x.negative = false) (hy : y.negative = false)
    (hm : x.magnitude = m) (hn : y.magnitude = n) (hproduct : m * n < 2 ^ 53) :
    rounding.multiply x y = .finite (.ofNat (m * n) hproduct) := by
  have hcast : (m : ℚ) * n = (m * n : ℕ) := by push_cast; rfl
  rw [multiply, hx, hy, hm, hn, hcast]
  exact rounding.number_natCast hproduct

/-- `x - y`. A difference of zero is negative only where both are zero, x the negative one. -/
def subtract (x y : Number) : Number :=
  match x, y with
  | .nan, _ | _, .nan => .nan
  | .infinity negative, .infinity negative' => if negative = negative' then .nan else .infinity negative
  | .infinity negative, .finite _ => .infinity negative
  | .finite _, .infinity negative => .infinity (!negative)
  | .finite x, .finite y =>
    let difference := x.value - y.value
    if difference = 0 then rounding.number (x.negative && x.magnitude = 0 && !y.negative) 0
    else rounding.number (difference < 0) |difference|

end Rounding

theorem Representable.floor {x : ℚ} (h : Representable x) : Representable ⌊x⌋₊ := by
  obtain ⟨bits, exponent, hbits, hlow, hhigh, rfl⟩ := h
  obtain hle | hle := le_total 0 exponent
  · obtain ⟨d, rfl⟩ := Int.eq_ofNat_of_zero_le hle
    have hwhole : (bits : ℚ) * 2 ^ (d : ℤ) = (bits * 2 ^ d : ℕ) := by push_cast; rw [zpow_natCast]
    rw [hwhole, Nat.floor_natCast]
    exact ⟨bits, d, hbits, hlow, hhigh, hwhole.symm⟩
  · have hsmall : (bits : ℚ) * 2 ^ exponent ≤ bits :=
      mul_le_of_le_one_right (by positivity) (zpow_le_one_of_nonpos₀ (by simp) hle)
    have hfloor : ⌊(bits : ℚ) * 2 ^ exponent⌋₊ ≤ bits := Nat.floor_le_of_le hsmall
    exact representable_of_lt (by omega)

theorem Representable.ceil {x : ℚ} (h : Representable x) : Representable ⌈x⌉₊ := by
  obtain ⟨bits, exponent, hbits, hlow, hhigh, rfl⟩ := h
  obtain hle | hle := le_total 0 exponent
  · obtain ⟨d, rfl⟩ := Int.eq_ofNat_of_zero_le hle
    have hwhole : (bits : ℚ) * 2 ^ (d : ℤ) = (bits * 2 ^ d : ℕ) := by push_cast; rw [zpow_natCast]
    rw [hwhole, Nat.ceil_natCast]
    exact ⟨bits, d, hbits, hlow, hhigh, hwhole.symm⟩
  · have hsmall : (bits : ℚ) * 2 ^ exponent ≤ bits :=
      mul_le_of_le_one_right (by positivity) (zpow_le_one_of_nonpos₀ (by simp) hle)
    have hceil : ⌈(bits : ℚ) * 2 ^ exponent⌉₊ ≤ bits := Nat.ceil_le.mpr hsmall
    exact representable_of_lt (by omega)

/-- Math.ceil, which rounds a negative number towards zero. -/
def Number.ceil : Number → Number
  | nan => nan
  | infinity negative => infinity negative
  | finite ⟨true, magnitude, h⟩ => finite ⟨true, ⌊magnitude⌋₊, h.floor⟩
  | finite ⟨false, magnitude, h⟩ => finite ⟨false, ⌈magnitude⌉₊, h.ceil⟩

/-- The Boolean of a number. -/
def Number.truthy : Number → Bool
  | nan => false
  | infinity _ => true
  | finite x => x.magnitude != 0

def Number.zero : Number := .finite .zero

/-- `Math.max(0, x)`. -/
def Number.maxZero : Number → Number
  | nan => nan
  | infinity negative => if negative then zero else infinity false
  | finite x => if x.negative then zero else finite x

def Number.one : Number := .finite .one

/-- `x || 1`. -/
def Number.orOne (x : Number) : Number :=
  if x.truthy then x else .one

/-- A number that is a natural one. -/
def Number.IsNat (x : Number) (n : ℕ) : Prop :=
  ∃ h, x = .finite ⟨false, n, h⟩

/-- A finite whole number that is at least one. -/
def Number.Positive (x : Number) : Prop :=
  ∃ n : ℕ, 1 ≤ n ∧ x.IsNat n

theorem Number.IsNat.unique {x : Number} {m n : ℕ} (hm : x.IsNat m) (hn : x.IsNat n) : m = n := by
  obtain ⟨_, rfl⟩ := hm
  obtain ⟨_, h⟩ := hn
  simpa using h

theorem Number.isNat_one : one.IsNat 1 :=
  ⟨representable_of_lt (by simp), rfl⟩

theorem Number.not_positive_infinity (negative : Bool) : ¬ (infinity negative).Positive := by
  rintro ⟨_, _, _, h⟩
  cases h

theorem Number.not_positive_negative {magnitude : ℚ} {h : Representable magnitude} :
    ¬ (finite ⟨true, magnitude, h⟩).Positive := by
  rintro ⟨_, _, _, h⟩
  cases h

/-- What `x || 1` makes of a natural number. -/
theorem Number.isNat_orOne (n : ℕ) (h : Representable n) : (finite ⟨false, n, h⟩).orOne.IsNat (max 1 n) := by
  unfold orOne truthy
  obtain rfl | hn := Nat.eq_zero_or_pos n
  · exact isNat_one
  · rw [if_pos (by simpa using hn.ne'), max_eq_right hn]
    exact ⟨h, rfl⟩

/-- What `x || 1` makes of a negative whole number, zero among them. -/
theorem Number.orOne_negative (n : ℕ) (h : Representable n) :
    (finite ⟨true, n, h⟩).orOne = if n = 0 then one else finite ⟨true, n, h⟩ := by
  unfold orOne truthy
  by_cases hn : n = 0
  · subst hn
    rfl
  · rw [if_pos (by simpa using hn), if_neg hn]

theorem Number.eq_one_iff {x : Number} {n : ℕ} (h : x.IsNat n) : x = one ↔ n = 1 := by
  constructor
  · rintro rfl
    exact h.unique isNat_one
  · rintro rfl
    obtain ⟨_, rfl⟩ := h
    simp [one, Double.one, Double.ofNat]

end js
