import Mathlib.Data.List.DropRight
import Mathlib.Tactic

namespace js

/-- A string, which is any list of UTF-16 code units. -/
abbrev Units : Type :=
  List UInt16

def charUnits (c : Char) : Units :=
  if c.toNat < 65536 then [UInt16.ofNat c.toNat]
  else [UInt16.ofNat (55296 + (c.toNat - 65536) / 1024), UInt16.ofNat (56320 + (c.toNat - 65536) % 1024)]

/-- The string of characters. -/
def fromCharacters (characters : List Char) : Units :=
  characters.flatMap charUnits

/-- The code units of a text. -/
def units (text : String) : Units :=
  fromCharacters text.toList

def leadSurrogate (unit : UInt16) : Bool :=
  decide (55296 ≤ unit.toNat ∧ unit.toNat ≤ 56319)

def trailSurrogate (unit : UInt16) : Bool :=
  decide (56320 ≤ unit.toNat ∧ unit.toNat ≤ 57343)

/-- U+FFFD, which is read for what is no character. -/
def replacementCharacter : Char :=
  Char.ofNat 65533

/-- The character of a unit that is not paired with another one. -/
def unitChar (unit : UInt16) : Char :=
  if leadSurrogate unit || trailSurrogate unit then replacementCharacter else Char.ofNat unit.toNat

def pairChar (lead trail : UInt16) : Char :=
  Char.ofNat (65536 + (lead.toNat - 55296) * 1024 + (trail.toNat - 56320))

/-- The characters of a string. -/
def characters : Units → List Char
  | [] => []
  | [unit] => [unitChar unit]
  | lead :: trail :: rest =>
    if leadSurrogate lead && trailSurrogate trail then pairChar lead trail :: characters rest
    else unitChar lead :: characters (trail :: rest)

/-- The units that String.prototype.trim takes off: white space and line terminators. -/
def whiteSpace (unit : UInt16) : Bool :=
  [9, 10, 11, 12, 13, 32, 160, 5760, 8192, 8193, 8194, 8195, 8196, 8197, 8198, 8199, 8200, 8201, 8202, 8232, 8233,
    8239, 8287, 12288, 65279].contains unit

/-- String.prototype.trim. -/
def trim (text : Units) : Units :=
  (text.dropWhile whiteSpace).rdropWhile whiteSpace

theorem characters_cons_of_not_lead {unit : UInt16} (h : leadSurrogate unit = false) (rest : Units) :
    characters (unit :: rest) = unitChar unit :: characters rest := by
  cases rest with
  | nil => rfl
  | cons next rest => simp [characters, h]

/-- A unit that is no surrogate separates the characters before it from those after it. -/
theorem characters_append_cons {unit : UInt16} (hlead : leadSurrogate unit = false)
    (htrail : trailSurrogate unit = false) (before after : Units) :
    characters (before ++ unit :: after) = characters before ++ unitChar unit :: characters after := by
  fun_induction characters before with
  | case1 => exact characters_cons_of_not_lead hlead after
  | case2 last =>
    rw [List.singleton_append, characters, htrail, Bool.and_false, characters_cons_of_not_lead hlead]
    rfl
  | case3 lead trail rest hpair ih =>
    rw [List.cons_append, List.cons_append, characters, if_pos hpair, ih, List.cons_append]
  | case4 lead trail rest hpair ih =>
    rw [List.cons_append, List.cons_append, characters, if_neg hpair, ← List.cons_append, ih, List.cons_append]

theorem toNat_ofNat_unit {n : Nat} (hn : n < 65536) : (UInt16.ofNat n).toNat = n :=
  UInt16.toNat_ofNat_of_lt' hn

theorem characters_charUnits_append (c : Char) (rest : Units) :
    characters (charUnits c ++ rest) = c :: characters rest := by
  have hvalid : c.toNat < 55296 ∨ 57343 < c.toNat ∧ c.toNat < 1114112 := c.valid
  have hchar : Char.ofNat c.toNat = c := Char.ofNat_toNat c
  unfold charUnits
  by_cases hsmall : c.toNat < 65536
  · have hunit := toNat_ofNat_unit hsmall
    have hlead : leadSurrogate (UInt16.ofNat c.toNat) = false := by
      simp only [leadSurrogate, hunit, decide_eq_false_iff_not]
      omega
    have htrail : trailSurrogate (UInt16.ofNat c.toNat) = false := by
      simp only [trailSurrogate, hunit, decide_eq_false_iff_not]
      omega
    rw [if_pos hsmall, List.singleton_append, characters_cons_of_not_lead hlead, unitChar, hlead, htrail, Bool.or_self,
      if_neg Bool.false_ne_true, hunit, hchar]
  · have hleadUnit := toNat_ofNat_unit (n := 55296 + (c.toNat - 65536) / 1024) (by omega)
    have htrailUnit := toNat_ofNat_unit (n := 56320 + (c.toNat - 65536) % 1024) (by omega)
    have hlead : leadSurrogate (UInt16.ofNat (55296 + (c.toNat - 65536) / 1024)) = true := by
      simp only [leadSurrogate, hleadUnit, decide_eq_true_eq]
      omega
    have htrail : trailSurrogate (UInt16.ofNat (56320 + (c.toNat - 65536) % 1024)) = true := by
      simp only [trailSurrogate, htrailUnit, decide_eq_true_eq]
      omega
    have hpoint : 65536 + (55296 + (c.toNat - 65536) / 1024 - 55296) * 1024 +
        (56320 + (c.toNat - 65536) % 1024 - 56320) = c.toNat := by
      omega
    rw [if_neg hsmall, List.cons_append, List.singleton_append, characters, hlead, htrail, Bool.and_self, if_pos rfl,
      pairChar, hleadUnit, htrailUnit, hpoint, hchar]

/-- Characters are read again from their units. -/
theorem characters_fromCharacters (text : List Char) : characters (fromCharacters text) = text := by
  induction text with
  | nil => rfl
  | cons c rest ih =>
    have hunits : fromCharacters (c :: rest) = charUnits c ++ fromCharacters rest := List.flatMap_cons
    rw [hunits, characters_charUnits_append, ih]

end js
