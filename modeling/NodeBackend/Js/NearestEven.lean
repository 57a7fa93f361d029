import NodeBackend.Js.Double
import Mathlib.Data.Int.Log

namespace js

/-- The nearest integer, of two as near the even one. -/
def roundEven (x : ℚ) : ℤ :=
  if x - ⌊x⌋ < 1 / 2 then ⌊x⌋
  else if 1 / 2 < x - ⌊x⌋ then ⌊x⌋ + 1
  else if ⌊x⌋ % 2 = 0 then ⌊x⌋ else ⌊x⌋ + 1

theorem floor_le_roundEven (x : ℚ) : ⌊x⌋ ≤ roundEven x := by
  unfold roundEven
  split
  · exact le_rfl
  · split
    · omega
    · split <;> omega

theorem roundEven_le_floor_add_one (x : ℚ) : roundEven x ≤ ⌊x⌋ + 1 := by
  unfold roundEven
  split
  · omega
  · split
    · exact le_rfl
    · split <;> omega

/-- No integer is nearer. -/
theorem abs_roundEven_sub_le (x : ℚ) (m : ℤ) : |(roundEven x : ℚ) - x| ≤ |(m : ℚ) - x| := by
  have hlow := Int.floor_le x
  have hhigh := Int.lt_floor_add_one x
  have hbelow : ∀ {bound : ℚ}, bound ≤ x - ⌊x⌋ → bound ≤ ⌊x⌋ + 1 - x → bound ≤ |(m : ℚ) - x| := by
    intro bound hleft hright
    obtain hle | hlt := le_or_gt m ⌊x⌋
    · have hcast : (m : ℚ) ≤ ⌊x⌋ := by exact_mod_cast hle
      rw [abs_of_nonpos (by linarith)]
      linarith
    · have hcast : (⌊x⌋ : ℚ) + 1 ≤ m := by exact_mod_cast hlt
      rw [abs_of_nonneg (by linarith)]
      linarith
  have hdown : |(⌊x⌋ : ℚ) - x| = x - ⌊x⌋ := by
    rw [abs_of_nonpos (by linarith)]
    ring
  have hup : |((⌊x⌋ + 1 : ℤ) : ℚ) - x| = ⌊x⌋ + 1 - x := by
    push_cast
    exact abs_of_nonneg (by linarith)
  unfold roundEven
  split
  · rw [hdown]
    exact hbelow le_rfl (by linarith)
  · split
    · rw [hup]
      exact hbelow (by linarith) le_rfl
    · split
      · rw [hdown]
        exact hbelow le_rfl (by linarith)
      · rw [hup]
        exact hbelow (by linarith) le_rfl

/-- The largest magnitude of a double. -/
def largest : ℚ :=
  (2 ^ 53 - 1) * 2 ^ (971 : ℤ)

/-- The exponent of the last place of the doubles around a magnitude. -/
def lastPlace (q : ℚ) : ℤ :=
  max (-1074) (Int.log 2 q - 52)

/-- The nearest double, of two as near the one whose last bit is even. -/
def nearestEven (q : ℚ) : ℚ :=
  if q ≤ 0 then 0
  else if largest ≤ q then largest
  else roundEven (q / 2 ^ lastPlace q) * 2 ^ lastPlace q

theorem representable_largest : Representable largest :=
  ⟨2 ^ 53 - 1, 971, by simp, by simp, le_rfl, by rw [largest]; norm_num⟩

theorem Representable.le_largest {x : ℚ} (h : Representable x) : x ≤ largest := by
  obtain ⟨bits, exponent, hbits, _, hexponent, rfl⟩ := h
  have hcast : (bits : ℚ) ≤ 2 ^ 53 - 1 := by
    have hle : ((bits + 1 : ℕ) : ℚ) ≤ (2 ^ 53 : ℕ) := by exact_mod_cast hbits
    push_cast at hle
    linarith
  exact mul_le_mul hcast (zpow_le_zpow_right₀ (by simp) hexponent) (by positivity) (by norm_num)

theorem largest_lt_overflow : largest < overflow := by
  have hunit : (0 : ℚ) < 2 ^ 970 := by positivity
  have hpower : (2 : ℚ) ^ (971 : ℤ) = 2 ^ 970 * 2 := by
    rw [show (971 : ℤ) = (970 + 1 : ℕ) by rfl, zpow_natCast, pow_succ]
  calc largest = 2 ^ 970 * (2 * (2 ^ 53 - 1)) := by rw [largest, hpower, mul_comm, mul_assoc]
    _ < 2 ^ 970 * (2 ^ 54 - 1) := mul_lt_mul_of_pos_left (by norm_num) hunit
    _ = overflow := overflow_eq.symm

theorem Representable.lt_overflow {x : ℚ} (h : Representable x) : x < overflow :=
  h.le_largest.trans_lt largest_lt_overflow

theorem div_lastPlace_lt (q : ℚ) : q / 2 ^ lastPlace q < 2 ^ (53 : ℤ) := by
  have hlog : q < 2 ^ (Int.log 2 q + 1) := by exact_mod_cast Int.lt_zpow_succ_log_self (b := 2) (by simp) q
  rw [div_lt_iff₀ (by positivity), ← zpow_add₀ (by simp)]
  refine hlog.trans_le (zpow_le_zpow_right₀ (by simp) ?_)
  have hle := le_max_right (-1074) (Int.log 2 q - 52)
  unfold lastPlace
  omega

section place

variable {q : ℚ} (hpos : 0 < q)

include hpos

/-- Below the largest double the last place has an exponent of a double. -/
theorem lastPlace_le (hlarge : q < largest) : lastPlace q ≤ 971 := by
  have hlog : (2 : ℚ) ^ Int.log 2 q ≤ q := by exact_mod_cast Int.zpow_log_le_self (b := 2) (by simp) hpos
  have hbound : (2 : ℚ) ^ Int.log 2 q < 2 ^ (1024 : ℤ) := by
    refine (hlog.trans_lt hlarge).trans ?_
    rw [largest, show (1024 : ℤ) = 53 + 971 by rfl, zpow_add₀ (by simp)]
    exact mul_lt_mul_of_pos_right (by norm_num) (by positivity)
  have hlt := (zpow_lt_zpow_iff_right₀ (by simp)).mp hbound
  unfold lastPlace
  omega

theorem exists_multiple (hlarge : q < largest) :
    ∃ bits : ℕ, (roundEven (q / 2 ^ lastPlace q) = bits) ∧ (bits < 2 ^ 53 ∨ bits = 2 ^ 53 ∧ lastPlace q < 971) := by
  have hunit : (0 : ℚ) < 2 ^ lastPlace q := by positivity
  have hnonneg : 0 ≤ ⌊q / 2 ^ lastPlace q⌋ := Int.floor_nonneg.mpr (by positivity)
  have hbelow : ⌊q / 2 ^ lastPlace q⌋ < 2 ^ 53 := by
    rw [Int.floor_lt]
    exact_mod_cast div_lastPlace_lt q
  have hlow := floor_le_roundEven (q / 2 ^ lastPlace q)
  have hhigh := roundEven_le_floor_add_one (q / 2 ^ lastPlace q)
  refine ⟨(roundEven (q / 2 ^ lastPlace q)).toNat, by omega, ?_⟩
  by_cases hlast : lastPlace q < 971
  · omega
  · have hsame : lastPlace q = 971 := by
      have hle := lastPlace_le hpos hlarge
      omega
    have hfloor : ⌊q / 2 ^ lastPlace q⌋ < 2 ^ 53 - 1 := by
      have hcast : ((2 ^ 53 - 1 : ℤ) : ℚ) = 2 ^ 53 - 1 := by norm_num
      rw [Int.floor_lt, div_lt_iff₀ hunit, hsame, hcast]
      exact hlarge
    omega

/-- What is no multiple of the last place is below the doubles around the magnitude. -/
theorem Representable.multiple_or_le {y : ℚ} (hy : Representable y) :
    (∃ m : ℤ, y = m * 2 ^ lastPlace q) ∨ y ≤ 2 ^ (52 : ℤ) * 2 ^ lastPlace q ∧ 2 ^ (52 : ℤ) * 2 ^ lastPlace q ≤ q := by
  obtain ⟨bits, exponent, hbits, hlow, _, rfl⟩ := hy
  obtain hle | hlt := le_or_gt (lastPlace q) exponent
  · obtain ⟨d, rfl⟩ := Int.le.dest hle
    refine Or.inl ⟨bits * 2 ^ d, ?_⟩
    rw [zpow_add₀ (by simp), zpow_natCast]
    push_cast
    ring
  · have hlog : lastPlace q = Int.log 2 q - 52 := by
      unfold lastPlace at hlt ⊢
      omega
    refine Or.inr ⟨?_, ?_⟩
    · have hcast : (bits : ℚ) ≤ 2 ^ (53 : ℤ) := by exact_mod_cast hbits.le
      calc (bits : ℚ) * 2 ^ exponent ≤ 2 ^ (53 : ℤ) * 2 ^ (lastPlace q - 1) :=
            mul_le_mul hcast (zpow_le_zpow_right₀ (by simp) (by omega)) (by positivity) (by positivity)
        _ = 2 ^ (52 : ℤ) * 2 ^ lastPlace q := by
          rw [← zpow_add₀ (by simp), ← zpow_add₀ (by simp)]
          congr 1
          omega
    · rw [hlog, ← zpow_add₀ (by simp), add_sub_cancel]
      exact_mod_cast Int.zpow_log_le_self (b := 2) (by simp) hpos

end place

theorem representable_nearestEven (q : ℚ) : Representable (nearestEven q) := by
  unfold nearestEven
  split
  · exact ⟨0, 0, by simp⟩
  · split
    · exact representable_largest
    · have hpos : 0 < q := not_le.mp (by assumption)
      have hlarge : q < largest := not_le.mp (by assumption)
      have hlow : -1074 ≤ lastPlace q := le_max_left _ _
      have hhigh := lastPlace_le hpos hlarge
      obtain ⟨bits, heq, hbits | ⟨rfl, hlast⟩⟩ := exists_multiple hpos hlarge
      · exact ⟨bits, lastPlace q, hbits, hlow, hhigh, by rw [heq]; rfl⟩
      · refine ⟨2 ^ 52, lastPlace q + 1, by simp, by omega, by omega, ?_⟩
        rw [heq, zpow_add₀ (by simp)]
        push_cast
        ring

theorem abs_nearestEven_sub_le (q y : ℚ) (hy : Representable y) : |nearestEven q - q| ≤ |y - q| := by
  have hnonneg := hy.nonneg
  have hbound := hy.le_largest
  unfold nearestEven
  split
  · rw [abs_of_nonneg (by linarith), abs_of_nonneg (by linarith)]
    linarith
  · split
    · rw [abs_of_nonpos (by linarith), abs_of_nonpos (by linarith)]
      linarith
    · have hpos : 0 < q := not_le.mp (by assumption)
      have hunit : (0 : ℚ) < 2 ^ lastPlace q := by positivity
      -- Among the multiples of the last place none is nearer.
      have hmultiple : ∀ m : ℤ, |(roundEven (q / 2 ^ lastPlace q) : ℚ) * 2 ^ lastPlace q - q| ≤
          |(m : ℚ) * 2 ^ lastPlace q - q| := by
        intro m
        have hscale : ∀ n : ℤ, |(n : ℚ) * 2 ^ lastPlace q - q| = |(n : ℚ) - q / 2 ^ lastPlace q| * 2 ^ lastPlace q := by
          intro n
          rw [← abs_of_pos hunit, ← abs_mul, abs_of_pos hunit, sub_mul, div_mul_cancel₀ _ hunit.ne']
        rw [hscale, hscale]
        exact mul_le_mul_of_nonneg_right (abs_roundEven_sub_le _ m) hunit.le
      obtain ⟨m, rfl⟩ | ⟨hbelow, hle⟩ := hy.multiple_or_le hpos
      · exact hmultiple m
      · have hfirst := hmultiple (2 ^ 52)
        push_cast at hfirst
        refine hfirst.trans ?_
        have hpower : (2 : ℚ) ^ (52 : ℤ) = 2 ^ 52 := rfl
        rw [hpower] at hbelow hle
        rw [abs_of_nonpos (by linarith), abs_of_nonpos (by linarith)]
        linarith

/-- The rounding of the language. -/
def Rounding.even : Rounding where
  nearest := nearestEven
  representable := representable_nearestEven
  closest := abs_nearestEven_sub_le

end js
