import Mathlib.Data.List.Basic
import Mathlib.Tactic

namespace json

/-- A finite decimal number in lowest terms: the mantissa has no trailing zero,
and zero has one representation. A double is identified with the shortest
decimal that denotes it, which is what its text consists of. -/
structure Number where
  negative : Bool
  mantissa : Nat
  exponent : Int
  canonical : mantissa % 10 ≠ 0 ∨ (mantissa = 0 ∧ exponent = 0 ∧ negative = false)
deriving DecidableEq

def Number.zero : Number := ⟨false, 0, 0, by simp⟩

/-- Move trailing zeros of the mantissa into the exponent. -/
def stripZeros : Nat → Nat → Int → Nat × Int
  | 0, mantissa, exponent => (mantissa, exponent)
  | fuel + 1, mantissa, exponent =>
    if mantissa % 10 = 0 then stripZeros fuel (mantissa / 10) (exponent + 1)
    else (mantissa, exponent)

theorem stripZeros_mod_ne_zero {fuel mantissa : Nat} (exponent : Int)
    (hpos : 0 < mantissa) (hfuel : mantissa ≤ fuel) :
    (stripZeros fuel mantissa exponent).1 % 10 ≠ 0 := by
  induction fuel generalizing mantissa exponent with
  | zero => omega
  | succ fuel ih =>
    rw [stripZeros]
    split
    · exact ih (exponent + 1) (by omega) (by omega)
    · assumption

theorem stripZeros_of_mod_ne_zero {mantissa : Nat} (fuel : Nat) (exponent : Int)
    (hmod : mantissa % 10 ≠ 0) : stripZeros fuel mantissa exponent = (mantissa, exponent) := by
  cases fuel with
  | zero => rfl
  | succ fuel => rw [stripZeros, if_neg hmod]

theorem stripZeros_mul_pow {fuel mantissa : Nat} (places : Nat) (exponent : Int)
    (hmod : mantissa % 10 ≠ 0) (hfuel : places ≤ fuel) :
    stripZeros fuel (10 ^ places * mantissa) exponent = (mantissa, exponent + places) := by
  induction places generalizing fuel exponent with
  | zero => simpa using stripZeros_of_mod_ne_zero fuel exponent hmod
  | succ places ih =>
    cases fuel with
    | zero => omega
    | succ fuel =>
      have hsplit : 10 ^ (places + 1) * mantissa = 10 * (10 ^ places * mantissa) := by
        rw [Nat.pow_succ, Nat.mul_comm (10 ^ places) 10, Nat.mul_assoc]
      rw [stripZeros, hsplit, if_pos (Nat.mul_mod_right 10 _), Nat.mul_div_cancel_left _ (by simp)]
      rw [ih (exponent + 1) (by omega)]
      congr 1
      push_cast
      omega

/-- The number denoted by a signed mantissa and a decimal exponent. -/
def Number.ofDecimal (negative : Bool) (mantissa : Nat) (exponent : Int) : Number :=
  if hzero : mantissa = 0 then Number.zero
  else
    let stripped := stripZeros mantissa mantissa exponent
    ⟨negative, stripped.1, stripped.2, Or.inl (stripZeros_mod_ne_zero exponent (by omega) le_rfl)⟩

/-- Writing a canonical mantissa with extra zeros denotes the same number. -/
theorem Number.ofDecimal_mul_pow (n : Number) {places : Nat} {exponent : Int}
    (hexponent : exponent + places = n.exponent) :
    Number.ofDecimal n.negative (10 ^ places * n.mantissa) exponent = n ∨ n.mantissa = 0 := by
  obtain ⟨negative, mantissa, target, hcanonical⟩ := n
  rcases hcanonical with hmod | ⟨hzero, _, _⟩
  · left
    have hpos : 0 < mantissa := by omega
    have hpow : places < 10 ^ places := Nat.lt_pow_self (by simp)
    have hbound : places ≤ 10 ^ places * mantissa :=
      hpow.le.trans (Nat.le_mul_of_pos_right _ hpos)
    have hne : 10 ^ places * mantissa ≠ 0 := Nat.mul_ne_zero (by positivity) (by omega)
    have hstrip := stripZeros_mul_pow places exponent hmod hbound
    simp only [Number.ofDecimal, hne, dif_neg, not_false_eq_true, hstrip]
    simp only [Number.mk.injEq, true_and]
    exact hexponent
  · exact Or.inr hzero

theorem Number.eq_zero_of_mantissa (n : Number) (hzero : n.mantissa = 0) : n = Number.zero := by
  obtain ⟨negative, mantissa, exponent, hcanonical⟩ := n
  rcases hcanonical with hmod | ⟨hm, he, hn⟩
  · simp only at hzero
    omega
  · subst hm he hn
    rfl

theorem Number.ofDecimal_eq (n : Number) {mantissa places : Nat} {exponent : Int}
    (hmantissa : mantissa = 10 ^ places * n.mantissa) (hexponent : exponent + places = n.exponent) :
    Number.ofDecimal n.negative mantissa exponent = n := by
  rcases n.ofDecimal_mul_pow hexponent with h | hzero
  · rw [hmantissa, h]
  · rw [hmantissa, hzero, n.eq_zero_of_mantissa hzero]
    simp [Number.ofDecimal]

def exponentText (exponent : Int) : List Char :=
  'e' :: (if 0 ≤ exponent then '+' else '-') :: Nat.toDigits 10 exponent.natAbs

/-- Decimal text of a mantissa's digits scaled by a power of ten, with the
placement rules of ECMAScript's Number::toString. -/
def magnitudeText (digits : List Char) (exponent : Int) : List Char :=
  let point : Int := digits.length + exponent
  if 0 ≤ exponent ∧ point ≤ 21 then
    digits ++ List.replicate exponent.toNat '0'
  else if 0 < point ∧ point ≤ 21 then
    digits.take point.toNat ++ '.' :: digits.drop point.toNat
  else if -6 < point ∧ point ≤ 0 then
    '0' :: '.' :: (List.replicate (-point).toNat '0' ++ digits)
  else
    digits.take 1 ++ (if digits.length = 1 then [] else '.' :: digits.drop 1) ++
      exponentText (point - 1)

/-- Whole magnitudes from here on are read as infinite. -/
def overflow : Nat :=
  2 ^ 1024 - 2 ^ 970

theorem overflow_eq : overflow = 2 ^ 1024 - 2 ^ 970 := rfl

attribute [irreducible] overflow

/-- Whether the double that a number is read as is finite. -/
@[irreducible]
def Number.isFinite (n : Number) : Bool :=
  match n.exponent with
  | .ofNat places => n.mantissa * 10 ^ places < overflow
  | .negSucc places => n.mantissa < overflow * 10 ^ (places + 1)

def Number.toText (n : Number) : List Char :=
  (if n.negative then ['-'] else []) ++ magnitudeText (Nat.toDigits 10 n.mantissa) n.exponent

/-- The longest run of digits at the head of a text, and what follows it. -/
def spanDigits : List Char → List Char × List Char
  | [] => ([], [])
  | c :: rest =>
    if c.isDigit then
      let (digits, after) := spanDigits rest
      (c :: digits, after)
    else ([], c :: rest)

/-- Integer part: a single zero, or digits that do not begin with one. -/
def scanInteger (text : List Char) : Option (List Char × List Char) :=
  match text with
  | '0' :: rest => some (['0'], rest)
  | _ =>
    match spanDigits text with
    | ([], _) => none
    | (digits, rest) => some (digits, rest)

def scanFraction (text : List Char) : Option (List Char × List Char) :=
  match text with
  | '.' :: rest =>
    match spanDigits rest with
    | ([], _) => none
    | (digits, rest) => some (digits, rest)
  | _ => some ([], text)

def scanSignedDigits (negative : Bool) (text : List Char) : Option (Int × List Char) :=
  match spanDigits text with
  | ([], _) => none
  | (digits, rest) =>
    let magnitude : Int := Nat.ofDigitChars 10 digits 0
    some (if negative then -magnitude else magnitude, rest)

def scanExponent (text : List Char) : Option (Int × List Char) :=
  match text with
  | 'e' :: '+' :: rest | 'E' :: '+' :: rest => scanSignedDigits false rest
  | 'e' :: '-' :: rest | 'E' :: '-' :: rest => scanSignedDigits true rest
  | 'e' :: rest | 'E' :: rest => scanSignedDigits false rest
  | _ => some (0, text)

def scanMagnitude (negative : Bool) (text : List Char) : Option (Number × List Char) := do
  let (integer, afterInteger) ← scanInteger text
  let (fraction, afterFraction) ← scanFraction afterInteger
  let (exponent, rest) ← scanExponent afterFraction
  some (Number.ofDecimal negative (Nat.ofDigitChars 10 (integer ++ fraction) 0)
    (exponent - fraction.length), rest)

/-- The JSON number at the head of a text, and the text after it. -/
def scanNumber (text : List Char) : Option (Number × List Char) :=
  match text with
  | '-' :: rest => scanMagnitude true rest
  | _ => scanMagnitude false text

/-- A text that does not continue a number written before it. -/
def EndsNumber (text : List Char) : Prop :=
  ∀ c rest, text = c :: rest → c.isDigit = false ∧ c ≠ '.' ∧ c ≠ 'e' ∧ c ≠ 'E'

end json
