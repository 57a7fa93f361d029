import NodeBackend.Json.Number

namespace json

theorem endsNumber_nil : EndsNumber [] := by
  intro c rest h
  cases h

theorem endsNumber_cons {c : Char} (rest : List Char)
    (hc : c.isDigit = false ∧ c ≠ '.' ∧ c ≠ 'e' ∧ c ≠ 'E') : EndsNumber (c :: rest) := by
  intro d tail h
  cases h
  exact hc

/-- A text whose first character is not a digit. -/
def EndsDigits (text : List Char) : Prop :=
  ∀ c rest, text = c :: rest → c.isDigit = false

theorem EndsNumber.endsDigits {text : List Char} (hends : EndsNumber text) : EndsDigits text :=
  fun c rest h => (hends c rest h).1

theorem endsDigits_cons {c : Char} (rest : List Char) (hc : c.isDigit = false) :
    EndsDigits (c :: rest) := by
  intro d tail h
  cases h
  exact hc

theorem spanDigits_append {digits rest : List Char} (hdigits : ∀ c ∈ digits, c.isDigit = true)
    (hrest : EndsDigits rest) : spanDigits (digits ++ rest) = (digits, rest) := by
  induction digits with
  | nil =>
    cases rest with
    | nil => rfl
    | cons c rest => simp [spanDigits, hrest c rest rfl]
  | cons c digits ih =>
    have hc := hdigits c (by simp)
    have htail := ih (fun d hd => hdigits d (by simp [hd]))
    simp [spanDigits, hc, htail]

theorem isDigit_of_mem_toDigits {n : Nat} {c : Char} (hc : c ∈ Nat.toDigits 10 n) :
    c.isDigit = true :=
  Nat.isDigit_of_mem_toDigits (by simp) (by simp) hc

/-- Decimal digits of a positive number do not begin with zero. -/
theorem toDigits_head_ne_zero {n : Nat} (hpos : 0 < n) :
    ∀ c rest, Nat.toDigits 10 n = c :: rest → c ≠ '0' := by
  induction n using Nat.strong_induction_on with
  | _ n ih =>
    intro c rest hdigits
    by_cases hsmall : n < 10
    · rw [Nat.toDigits_of_lt_base hsmall] at hdigits
      obtain ⟨rfl, _⟩ := List.cons.inj hdigits
      have htable : ∀ d, 0 < d → d < 10 → Nat.digitChar d ≠ '0' := by
        intro d hd hlt
        interval_cases d <;> decide
      exact htable n hpos hsmall
    · rw [Nat.toDigits_of_base_le (by simp) (by omega)] at hdigits
      cases hfront : Nat.toDigits 10 (n / 10) with
      | nil => exact absurd hfront Nat.toDigits_ne_nil
      | cons d front =>
        rw [hfront] at hdigits
        obtain ⟨rfl, _⟩ := List.cons.inj hdigits
        exact ih (n / 10) (by omega) (by omega) d front hfront

theorem scanInteger_digits {digits rest : List Char} (hne : digits ≠ [])
    (hdigits : ∀ c ∈ digits, c.isDigit = true) (hhead : ∀ c tail, digits = c :: tail → c ≠ '0')
    (hrest : EndsDigits rest) : scanInteger (digits ++ rest) = some (digits, rest) := by
  cases digits with
  | nil => exact absurd rfl hne
  | cons c tail =>
    have hc : c ≠ '0' := hhead c tail rfl
    have hspan := spanDigits_append hdigits hrest
    rw [List.cons_append] at hspan ⊢
    unfold scanInteger
    split
    · rename_i heq
      exact absurd (List.cons.inj heq).1 hc
    · simp [hspan]

theorem scanFraction_digits {digits rest : List Char} (hne : digits ≠ [])
    (hdigits : ∀ c ∈ digits, c.isDigit = true) (hrest : EndsDigits rest) :
    scanFraction ('.' :: (digits ++ rest)) = some (digits, rest) := by
  rw [scanFraction, spanDigits_append hdigits hrest]
  cases digits with
  | nil => exact absurd rfl hne
  | cons c tail => rfl

theorem scanFraction_absent {rest : List Char} (hrest : ∀ c tail, rest = c :: tail → c ≠ '.') :
    scanFraction rest = some ([], rest) := by
  unfold scanFraction
  split
  · rename_i tail
    exact absurd rfl (hrest '.' tail rfl)
  · rfl

theorem scanSignedDigits_toDigits (negative : Bool) (n : Nat) {rest : List Char}
    (hrest : EndsDigits rest) :
    scanSignedDigits negative (Nat.toDigits 10 n ++ rest) =
      some (if negative then -(n : Int) else n, rest) := by
  have hspan : spanDigits (Nat.toDigits 10 n ++ rest) = (Nat.toDigits 10 n, rest) :=
    spanDigits_append (fun c hc => isDigit_of_mem_toDigits hc) hrest
  rw [scanSignedDigits, hspan]
  cases hdigits : Nat.toDigits 10 n with
  | nil => exact absurd hdigits Nat.toDigits_ne_nil
  | cons c tail =>
    have hvalue : Nat.ofDigitChars 10 (c :: tail) 0 = n := by
      rw [← hdigits, Nat.ofDigitChars_ten_toDigits]
    simp [hvalue]

theorem scanExponent_absent {rest : List Char} (hrest : EndsNumber rest) :
    scanExponent rest = some (0, rest) := by
  unfold scanExponent
  split
  all_goals first
    | rfl
    | exact absurd rfl (hrest _ _ rfl).2.2.1
    | exact absurd rfl (hrest _ _ rfl).2.2.2

theorem scanExponent_exponentText (exponent : Int) {rest : List Char} (hrest : EndsDigits rest) :
    scanExponent (exponentText exponent ++ rest) = some (exponent, rest) := by
  by_cases hsign : 0 ≤ exponent
  · simp only [exponentText, if_pos hsign, List.cons_append, scanExponent]
    rw [scanSignedDigits_toDigits false _ hrest]
    simp [Int.natAbs_of_nonneg hsign]
  · simp only [exponentText, if_neg hsign, List.cons_append, scanExponent]
    rw [scanSignedDigits_toDigits true _ hrest]
    simp only [if_true, Option.some.injEq, Prod.mk.injEq, and_true]
    omega

theorem exponentText_endsDigits (exponent : Int) (rest : List Char) :
    EndsDigits (exponentText exponent ++ rest) :=
  endsDigits_cons _ (by simp)

/-- Scanning a placement of a number's digits gives the number back. The three
parts are what the scanner splits the text into, and the equations say that
the split loses neither digits nor scale. -/
theorem scanMagnitude_of_parts (n : Number) {integer fraction afterInteger afterFraction rest : List Char}
    {text : List Char} {exponent : Int} (places : Nat)
    (hinteger : scanInteger text = some (integer, afterInteger))
    (hfraction : scanFraction afterInteger = some (fraction, afterFraction))
    (hexponent : scanExponent afterFraction = some (exponent, rest))
    (hmantissa : Nat.ofDigitChars 10 (integer ++ fraction) 0 = 10 ^ places * n.mantissa)
    (hscale : exponent - fraction.length + places = n.exponent) :
    scanMagnitude n.negative text = some (n, rest) := by
  simp only [scanMagnitude, hinteger, hfraction, hexponent, Option.bind_eq_bind, Option.bind_some]
  rw [n.ofDecimal_eq hmantissa hscale]

theorem scanMagnitude_zero {rest : List Char} (hrest : EndsNumber rest) :
    scanMagnitude false ('0' :: rest) = some (Number.zero, rest) := by
  have hpoint : ∀ c tail, rest = c :: tail → c ≠ '.' := fun c tail h => (hrest c tail h).2.1
  exact scanMagnitude_of_parts Number.zero 0 rfl (scanFraction_absent hpoint)
    (scanExponent_absent hrest) rfl rfl

/-- The digits of a positive mantissa: what the placements of `magnitudeText`
are cut from. -/
structure MantissaDigits (n : Number) (digits : List Char) : Prop where
  nonempty : 0 < digits.length
  all_digits : ∀ c ∈ digits, c.isDigit = true
  head_ne_zero : ∀ c tail, digits = c :: tail → c ≠ '0'
  value : Nat.ofDigitChars 10 digits 0 = n.mantissa

theorem mantissaDigits_toDigits (n : Number) (hpos : 0 < n.mantissa) :
    MantissaDigits n (Nat.toDigits 10 n.mantissa) where
  nonempty := Nat.length_toDigits_pos
  all_digits _ hc := isDigit_of_mem_toDigits hc
  head_ne_zero := toDigits_head_ne_zero hpos
  value := Nat.ofDigitChars_ten_toDigits

section placements

variable {n : Number} {digits rest : List Char}

theorem MantissaDigits.isDigit_pad_right (hdigits : MantissaDigits n digits) (zeros : Nat) :
    ∀ c ∈ digits ++ List.replicate zeros '0', c.isDigit = true := by
  intro c hc
  rcases List.mem_append.mp hc with hd | hz
  · exact hdigits.all_digits c hd
  · rw [List.eq_of_mem_replicate hz]
    decide

theorem MantissaDigits.isDigit_pad_left (hdigits : MantissaDigits n digits) (zeros : Nat) :
    ∀ c ∈ List.replicate zeros '0' ++ digits, c.isDigit = true := by
  intro c hc
  rcases List.mem_append.mp hc with hz | hd
  · rw [List.eq_of_mem_replicate hz]
    decide
  · exact hdigits.all_digits c hd

theorem MantissaDigits.head_pad_right (hdigits : MantissaDigits n digits) (zeros : Nat) :
    ∀ c tail, digits ++ List.replicate zeros '0' = c :: tail → c ≠ '0' := by
  intro c tail hcons
  cases digits with
  | nil => exact absurd hdigits.nonempty (by simp)
  | cons d ds =>
    obtain ⟨rfl, _⟩ := List.cons.inj hcons
    exact hdigits.head_ne_zero d ds rfl

theorem MantissaDigits.head_take (hdigits : MantissaDigits n digits) (k : Nat) :
    ∀ c tail, digits.take k = c :: tail → c ≠ '0' := by
  intro c tail htake
  cases digits with
  | nil => simp at htake
  | cons d ds =>
    cases k with
    | zero => simp at htake
    | succ k =>
      obtain ⟨rfl, _⟩ := List.cons.inj htake
      exact hdigits.head_ne_zero d ds rfl

theorem MantissaDigits.scanInteger_take (hdigits : MantissaDigits n digits) {k : Nat} (hk : 0 < k)
    (hrest : EndsDigits rest) :
    scanInteger (digits.take k ++ rest) = some (digits.take k, rest) := by
  refine scanInteger_digits ?_ (fun c hc => hdigits.all_digits c (List.mem_of_mem_take hc))
    (hdigits.head_take k) hrest
  apply List.ne_nil_of_length_pos
  have hlength := hdigits.nonempty
  rw [List.length_take]
  omega

theorem MantissaDigits.scanFraction_drop (hdigits : MantissaDigits n digits) {k : Nat}
    (hk : k < digits.length) (hrest : EndsDigits rest) :
    scanFraction ('.' :: (digits.drop k ++ rest)) = some (digits.drop k, rest) := by
  refine scanFraction_digits ?_ (fun c hc => hdigits.all_digits c (List.mem_of_mem_drop hc)) hrest
  apply List.ne_nil_of_length_pos
  rw [List.length_drop]
  omega

/-- Digits padded with zeros up to the decimal point. -/
theorem MantissaDigits.scan_whole (hdigits : MantissaDigits n digits) (hrest : EndsNumber rest)
    (hwhole : 0 ≤ n.exponent) :
    scanMagnitude n.negative (digits ++ List.replicate n.exponent.toNat '0' ++ rest) =
      some (n, rest) := by
  have hpoint : ∀ c tail, rest = c :: tail → c ≠ '.' := fun c tail h => (hrest c tail h).2.1
  have hne : digits ≠ [] := List.ne_nil_of_length_pos hdigits.nonempty
  refine scanMagnitude_of_parts n n.exponent.toNat
    (scanInteger_digits (by simp [hne]) (hdigits.isDigit_pad_right _) (hdigits.head_pad_right _)
      hrest.endsDigits)
    (scanFraction_absent hpoint) (scanExponent_absent hrest) ?_ ?_
  · rw [List.append_nil, Nat.ofDigitChars_append, hdigits.value, Nat.ofDigitChars_replicate_zero]
  · simp only [List.length_nil]
    omega

/-- The decimal point inside the digits. -/
theorem MantissaDigits.scan_pointed (hdigits : MantissaDigits n digits) (hrest : EndsNumber rest)
    (hpoint : 0 < digits.length + n.exponent) (hexponent : n.exponent < 0) :
    scanMagnitude n.negative (digits.take (digits.length + n.exponent).toNat ++
      '.' :: digits.drop (digits.length + n.exponent).toNat ++ rest) = some (n, rest) := by
  rw [List.append_assoc, List.cons_append]
  refine scanMagnitude_of_parts n 0
    (hdigits.scanInteger_take (by omega) (endsDigits_cons _ (by simp)))
    (hdigits.scanFraction_drop (by omega) hrest.endsDigits) (scanExponent_absent hrest) ?_ ?_
  · rw [List.take_append_drop, hdigits.value]
    simp
  · rw [List.length_drop]
    omega

/-- Zeros between the decimal point and the digits. -/
theorem MantissaDigits.scan_small (hdigits : MantissaDigits n digits) (hrest : EndsNumber rest)
    (hpoint : digits.length + n.exponent ≤ 0) :
    scanMagnitude n.negative ('0' :: '.' ::
      (List.replicate (-(digits.length + n.exponent)).toNat '0' ++ digits) ++ rest) =
      some (n, rest) := by
  have hne : digits ≠ [] := List.ne_nil_of_length_pos hdigits.nonempty
  rw [List.cons_append, List.cons_append]
  refine scanMagnitude_of_parts n 0 rfl
    (scanFraction_digits (by simp [hne]) (hdigits.isDigit_pad_left _) hrest.endsDigits)
    (scanExponent_absent hrest) ?_ ?_
  · rw [List.singleton_append, Nat.ofDigitChars_cons, Nat.ofDigitChars_append,
      Nat.ofDigitChars_replicate_zero]
    simpa using hdigits.value
  · rw [List.length_append, List.length_replicate]
    omega

/-- One digit before the decimal point, the others after it, and an exponent. -/
theorem MantissaDigits.scan_exponential (hdigits : MantissaDigits n digits) (hrest : EndsNumber rest) :
    scanMagnitude n.negative (digits.take 1 ++
      (if digits.length = 1 then [] else '.' :: digits.drop 1) ++
      exponentText (digits.length + n.exponent - 1) ++ rest) = some (n, rest) := by
  have hlength := hdigits.nonempty
  rw [List.append_assoc, List.append_assoc]
  by_cases hsingle : digits.length = 1
  · rw [if_pos hsingle, List.nil_append]
    refine scanMagnitude_of_parts n 0
      (hdigits.scanInteger_take (by simp) (exponentText_endsDigits _ _))
      (scanFraction_absent ?_) (scanExponent_exponentText _ hrest.endsDigits) ?_ ?_
    · intro c tail h
      obtain ⟨rfl, _⟩ := List.cons.inj h
      decide
    · rw [List.append_nil, List.take_of_length_le (by omega), hdigits.value]
      simp
    · simp only [List.length_nil]
      omega
  · rw [if_neg hsingle, List.cons_append]
    refine scanMagnitude_of_parts n 0
      (hdigits.scanInteger_take (by simp) (endsDigits_cons _ (by simp)))
      (hdigits.scanFraction_drop (by omega) (exponentText_endsDigits _ _))
      (scanExponent_exponentText _ hrest.endsDigits) ?_ ?_
    · rw [List.take_append_drop, hdigits.value]
      simp
    · rw [List.length_drop]
      omega

theorem scanMagnitude_magnitudeText (n : Number) (hpos : 0 < n.mantissa) (hrest : EndsNumber rest) :
    scanMagnitude n.negative (magnitudeText (Nat.toDigits 10 n.mantissa) n.exponent ++ rest) =
      some (n, rest) := by
  have hdigits := mantissaDigits_toDigits n hpos
  generalize Nat.toDigits 10 n.mantissa = digits at hdigits
  simp only [magnitudeText]
  by_cases hwhole : 0 ≤ n.exponent ∧ digits.length + n.exponent ≤ 21
  · rw [if_pos hwhole]
    exact hdigits.scan_whole hrest hwhole.1
  rw [if_neg hwhole]
  by_cases hpointed : 0 < digits.length + n.exponent ∧ digits.length + n.exponent ≤ 21
  · rw [if_pos hpointed]
    exact hdigits.scan_pointed hrest hpointed.1 (by omega)
  rw [if_neg hpointed]
  by_cases hsmall : -6 < digits.length + n.exponent ∧ digits.length + n.exponent ≤ 0
  · rw [if_pos hsmall]
    exact hdigits.scan_small hrest hsmall.2
  rw [if_neg hsmall]
  exact hdigits.scan_exponential hrest

end placements

/-- Reading a number's text, followed by anything that does not continue it,
gives the number and leaves the rest. -/
theorem scanNumber_toText (n : Number) {rest : List Char} (hrest : EndsNumber rest) :
    scanNumber (n.toText ++ rest) = some (n, rest) := by
  by_cases hzero : n.mantissa = 0
  · rw [n.eq_zero_of_mantissa hzero]
    exact scanMagnitude_zero hrest
  · have hscan := scanMagnitude_magnitudeText n (by omega) hrest
    cases hsign : n.negative with
    | true =>
      rw [hsign] at hscan
      simpa [Number.toText, hsign, scanNumber] using hscan
    | false =>
      rw [hsign] at hscan
      simp only [Number.toText, hsign, Bool.false_eq_true, if_false, List.nil_append]
      unfold scanNumber
      split
      · rename_i tail htext
        -- A magnitude's text cannot begin with a minus sign: its scan would fail.
        rw [htext] at hscan
        simp [scanMagnitude, scanInteger, spanDigits] at hscan
      · exact hscan

end json
