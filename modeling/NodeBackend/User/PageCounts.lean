import NodeBackend.User.Repositories

namespace node_backend.user_repository

open js

/-- Where a count of pages is a positive whole number. What counts the rows is no number
or zero; or it is finite and in range when it is divided by a limit of its own sign, or
is less than a limit of the other sign. -/
def CountsPages : Number → Double → Prop
  | .nan, _ => True
  | .infinity _, _ => False
  | .finite count, limit => count.magnitude = 0 ∨
      if count.negative = limit.negative then 0 < limit.magnitude ∧ count.magnitude / limit.magnitude < overflow
      else count.magnitude < limit.magnitude

/-- Where there is one page: the limit is at least what counts the rows, or is of the
other sign and beyond it. -/
def CountsOnePage : Number → Double → Prop
  | .nan, _ => True
  | .infinity _, _ => False
  | .finite count, limit => count.magnitude = 0 ∨
      if count.negative = limit.negative then 0 < limit.magnitude ∧ count.magnitude ≤ limit.magnitude
      else count.magnitude < limit.magnitude

theorem CountsOnePage.countsPages {count : Number} {limit : Double} (h : CountsOnePage count limit) :
    CountsPages count limit := by
  cases count with
  | nan => trivial
  | infinity negative => exact h
  | finite count =>
    obtain hzero | hsmall := h
    · exact Or.inl hzero
    · refine Or.inr ?_
      by_cases hsign : count.negative = limit.negative
      · rw [if_pos hsign] at hsmall ⊢
        exact ⟨hsmall.1, lt_of_le_of_lt ((div_le_one hsmall.1).mpr hsmall.2) one_lt_overflow⟩
      · rw [if_neg hsign] at hsmall ⊢
        exact hsmall

section count

variable {count limit : Double}

/-- Nothing to list is one page, whatever the limit. -/
theorem pageCount_zero (hcount : count.magnitude = 0) : pageCount (.finite count) limit = .one := by
  have hsmall : (0 : ℚ) < overflow := one_pos.trans one_lt_overflow
  by_cases hlimit : limit.magnitude = 0
  · rw [pageCount, Rounding.divide_zero_by_zero _ hlimit hcount]
    rfl
  · rw [pageCount, Rounding.divide_of_ne _ hlimit, hcount, zero_div, Rounding.number_of_lt _ hsmall]
    cases count.negative <;> cases limit.negative <;>
      simp [Number.ceil, Number.orOne, Number.truthy, Rounding.nearest_zero]

/-- Where the quotient is out of range, so is the page count. -/
theorem pageCount_infinity (hcount : count.magnitude ≠ 0)
    (hrange : limit.magnitude = 0 ∨ overflow ≤ count.magnitude / limit.magnitude) :
    pageCount (.finite count) limit = .infinity (count.negative != limit.negative) := by
  by_cases hlimit : limit.magnitude = 0
  · rw [pageCount, Rounding.divide_by_zero _ hlimit hcount]
    rfl
  · rw [pageCount, Rounding.divide_of_ne _ hlimit, Rounding.number_of_le _ (hrange.resolve_left hlimit)]
    rfl

section range

variable (hlimit : limit.magnitude ≠ 0) (hrange : count.magnitude / limit.magnitude < overflow)

include hlimit hrange

/-- A limit of the sign of the count counts pages as usual. -/
theorem pageCount_of_same (hsign : count.negative = limit.negative) : (pageCount (.finite count) limit).IsNat
    (max 1 ⌈Rounding.even.nearest (count.magnitude / limit.magnitude)⌉₊) := by
  have hsame : (count.negative != limit.negative) = false := by simp [hsign]
  rw [pageCount, Rounding.divide_of_ne _ hlimit, hsame, Rounding.number_of_lt _ hrange]
  exact Number.isNat_orOne _ (Rounding.even.representable _).ceil

/-- A limit of the other sign counts no page at all, or less than none. -/
theorem pageCount_of_other (hsign : count.negative ≠ limit.negative) :
    pageCount (.finite count) limit =
      if ⌊Rounding.even.nearest (count.magnitude / limit.magnitude)⌋₊ = 0 then .one
      else .finite ⟨true, ⌊Rounding.even.nearest (count.magnitude / limit.magnitude)⌋₊,
        (Rounding.even.representable _).floor⟩ := by
  have hother : (count.negative != limit.negative) = true := by simp [hsign]
  rw [pageCount, Rounding.divide_of_ne _ hlimit, hother, Rounding.number_of_lt _ hrange]
  exact Number.orOne_negative _ (Rounding.even.representable _).floor

end range

/-- With a limit in range the page count is a positive whole number, and one, as is
said. -/
theorem pageCount_iff_of_range (hcount : count.magnitude ≠ 0) (hlimit : limit.magnitude ≠ 0)
    (hrange : count.magnitude / limit.magnitude < overflow) :
    ((pageCount (.finite count) limit).Positive ↔ CountsPages (.finite count) limit) ∧
      (pageCount (.finite count) limit = .one ↔ CountsOnePage (.finite count) limit) := by
  have hpos : 0 < limit.magnitude := lt_of_le_of_ne limit.representable.nonneg (Ne.symm hlimit)
  simp only [CountsPages, CountsOnePage, hcount, false_or]
  by_cases hsign : count.negative = limit.negative
  · have hpages := pageCount_of_same hlimit hrange hsign
    rw [if_pos hsign, if_pos hsign, Number.eq_one_iff hpages,
      ← Rounding.even.nearest_div_le_one_iff count.representable limit.representable hpos]
    refine ⟨iff_of_true ⟨_, le_max_left _ _, hpages⟩ ⟨hpos, hrange⟩, ?_⟩
    have hceil : max 1 ⌈Rounding.even.nearest (count.magnitude / limit.magnitude)⌉₊ = 1 ↔
        ⌈Rounding.even.nearest (count.magnitude / limit.magnitude)⌉₊ ≤ 1 := max_eq_left_iff
    rw [hceil, Nat.ceil_le, Nat.cast_one]
    simp [hpos]
  · have hfloor : ⌊Rounding.even.nearest (count.magnitude / limit.magnitude)⌋₊ = 0 ↔
        count.magnitude < limit.magnitude := by
      rw [Nat.floor_eq_zero, Rounding.even.nearest_div_lt_one_iff count.representable limit.representable hpos]
    rw [pageCount_of_other hlimit hrange hsign, if_neg hsign, if_neg hsign, ← hfloor]
    split
    · exact ⟨iff_of_true ⟨1, le_rfl, Number.isNat_one⟩ (by assumption), iff_of_true rfl (by assumption)⟩
    · refine ⟨iff_of_false Number.not_positive_negative (by assumption), iff_of_false ?_ (by assumption)⟩
      intro h
      cases h

/-- With a limit of one there are as many pages as users. -/
theorem pageCount_by_one {n : Nat} (hn : n < 2 ^ 53) (hpos : 0 < n) :
    (pageCount (Rounding.even.ofNat n) .one).IsNat n := by
  have hquotient : (Double.ofNat n hn).magnitude / Double.one.magnitude = n := by simp [Double.ofNat, Double.one]
  have hrange : (Double.ofNat n hn).magnitude / Double.one.magnitude < overflow := by
    rw [hquotient]
    exact Rounding.lt_overflow_of_lt hn
  have hpages := pageCount_of_same (by simp [Double.one, Double.ofNat]) hrange rfl
  rw [hquotient, Rounding.even.nearest_of_representable (representable_of_lt hn), Nat.ceil_natCast,
    max_eq_right hpos] at hpages
  rw [Rounding.even.ofNat_of_lt hn]
  exact hpages

end count

/-- The page count is a positive whole number exactly where pages are counted, and one
exactly where there is one. -/
theorem pageCount_iff (count : Number) (limit : Double) :
    ((pageCount count limit).Positive ↔ CountsPages count limit) ∧
      (pageCount count limit = .one ↔ CountsOnePage count limit) := by
  cases count with
  | nan => exact ⟨iff_of_true ⟨1, le_rfl, Number.isNat_one⟩ trivial, iff_of_true rfl trivial⟩
  | infinity negative =>
    refine ⟨iff_of_false (Number.not_positive_infinity _) id, iff_of_false ?_ id⟩
    intro h
    cases h
  | finite count =>
    by_cases hcount : count.magnitude = 0
    · rw [pageCount_zero hcount]
      exact ⟨iff_of_true ⟨1, le_rfl, Number.isNat_one⟩ (Or.inl hcount), iff_of_true rfl (Or.inl hcount)⟩
    by_cases hrange : limit.magnitude = 0 ∨ overflow ≤ count.magnitude / limit.magnitude
    · -- neither side holds of an infinite count
      have hnot : ¬ CountsPages (.finite count) limit := by
        rintro (hzero | hpages)
        · exact hcount hzero
        · split at hpages
          · obtain hzero | hlarge := hrange
            · exact hpages.1.ne' hzero
            · exact absurd hpages.2 (not_lt.mpr hlarge)
          · have hpos : 0 < limit.magnitude := lt_of_le_of_lt count.representable.nonneg hpages
            have hone := ((div_lt_one hpos).mpr hpages).trans one_lt_overflow
            exact absurd (hrange.resolve_left hpos.ne') (not_le.mpr hone)
      rw [pageCount_infinity hcount hrange]
      refine ⟨iff_of_false (Number.not_positive_infinity _) hnot, iff_of_false ?_ fun h => hnot h.countsPages⟩
      intro h
      cases h
    · rw [not_or, not_le] at hrange
      exact pageCount_iff_of_range hcount hrange.1 hrange.2

end node_backend.user_repository
