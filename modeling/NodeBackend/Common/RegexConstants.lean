import NodeBackend.Regex.Parse

namespace node_backend.regex_constants

open js regex

structure CustomRegEx where
  name : String
  message : String → String
  regex : RegExp

def getRegExSource (regex : RegExp) : String :=
  regex.source

def parseRegEx (regexSrc : String) : RegExp :=
  ⟨regexSrc⟩

def buildPasswordRegEx : RegExp :=
  let requiredCharsPattern := getRegExSource ⟨"0-9A-Za-zÀ-ÖØ-öø-ÿ"⟩
  let requiredAsciiPattern := getRegExSource ⟨"!-~"⟩
  let passwordLimitPattern := getRegExSource ⟨"9,60"⟩
  parseRegEx ("^(?=.*[" ++ requiredCharsPattern ++ "])(?=.*[" ++ requiredAsciiPattern ++ "])[" ++
    requiredCharsPattern ++ requiredAsciiPattern ++ "].\x7b" ++ passwordLimitPattern ++ "\x7d$")

def passwordPattern : CustomRegEx where
  name := "PasswordPattern"
  message field := "'" ++ field ++
    "' must have digits and characters like: '0-9 A-z À-ÿ ! @ ~' and length between 9-60 rage."
  regex := buildPasswordRegEx

/-- `0-9A-Za-zÀ-ÖØ-öø-ÿ` -/
def requiredChars : List (UInt16 × UInt16) :=
  [(48, 57), (65, 90), (97, 122), (192, 214), (216, 246), (248, 255)]

/-- `!-~` -/
def requiredAscii : List (UInt16 × UInt16) :=
  [(33, 126)]

/-- Any text as far as a unit of a class. -/
def lookahead (ranges : List (UInt16 × UInt16)) : Pattern :=
  .seq (.repeated .dot 0 none) (.seq (.oneOf ranges) .empty)

/-- What follows the lookaheads. -/
def passwordBody : Pattern :=
  .seq (.oneOf (requiredChars ++ requiredAscii)) (.seq (.repeated .dot 9 (some 60)) (.seq .finish .empty))

theorem pattern_buildPasswordRegEx : buildPasswordRegEx.pattern =
    some (.seq .start (.seq (.ahead (lookahead requiredChars))
      (.seq (.ahead (lookahead requiredAscii)) passwordBody))) := by
  decide +kernel

variable {text : Units}

/-- Whether a unit is in the class of the pattern. -/
def InClass (unit : UInt16) : Prop :=
  inRanges (requiredChars ++ requiredAscii) unit = true

instance (unit : UInt16) : Decidable (InClass unit) :=
  inferInstanceAs (Decidable (_ = true))

/-- A unit of each of the two kinds. -/
def HasRequired (text : Units) : Prop :=
  (∃ unit ∈ text, inRanges requiredChars unit = true) ∧ ∃ unit ∈ text, inRanges requiredAscii unit = true

instance (text : Units) : Decidable (HasRequired text) :=
  @instDecidableAnd _ _ (List.decidableBEx _ text) (List.decidableBEx _ text)

/-- What the body of the pattern asks for: the class for the first unit alone, and the
length for those after it. -/
def BodyHolds : Units → Prop
  | [] => False
  | first :: rest =>
    InClass first ∧ (∀ unit ∈ rest, lineTerminator unit = false) ∧ 9 ≤ rest.length ∧ rest.length ≤ 60

instance (text : Units) : Decidable (BodyHolds text) :=
  match text with
  | [] => instDecidableFalse
  | _ :: rest => @instDecidableAnd _ _ _ (@instDecidableAnd _ _ (List.decidableBAll _ rest) _)

theorem exists_spans_lookahead_iff {ranges : List (UInt16 × UInt16)} :
    (∃ far, Spans text (lookahead ranges) 0 far) ↔ ∃ place, holdsAt text (inRanges ranges) place = true ∧
      ∀ other, other < place → holdsAt text (fun unit => !lineTerminator unit) other = true := by
  have hdots : ∀ stop, Spans text (.repeated .dot 0 none) 0 stop ↔
      ∀ other, other < stop → holdsAt text (fun unit => !lineTerminator unit) other = true := by
    intro stop
    rw [spans_dots_iff (by simp)]
    simp
  constructor
  · rintro ⟨far, stop, hbefore, next, ⟨_, hholds⟩, _⟩
    exact ⟨stop, hholds, (hdots stop).mp hbefore⟩
  · rintro ⟨place, hholds, hbefore⟩
    exact ⟨place + 1, place, (hdots place).mpr hbefore, place + 1, ⟨rfl, hholds⟩, rfl⟩

theorem exists_spans_body_iff : (∃ stop, Spans text passwordBody 0 stop) ↔ BodyHolds text := by
  cases text with
  | nil =>
    constructor
    · rintro ⟨stop, next, ⟨_, hholds⟩, _⟩
      cases hholds
    · intro h
      cases h
  | cons first rest =>
    have hdots : Spans (first :: rest) (.repeated .dot 9 (some 60)) 1 (first :: rest).length ↔
        9 ≤ rest.length ∧ rest.length ≤ 60 ∧ ∀ unit ∈ rest, lineTerminator unit = false := by
      have hall := @forall_holdsAt_iff rest fun unit => !lineTerminator unit
      simp only [Bool.not_eq_true'] at hall
      rw [spans_dots_iff (by simp), ← hall, List.length_cons]
      constructor
      · rintro ⟨_, hleast, hmost, hholds⟩
        refine ⟨by omega, by simpa using hmost 60 rfl, ?_⟩
        intro place hplace
        exact hholds (place + 1) (by omega) (by omega)
      · rintro ⟨hleast, hmost, hholds⟩
        refine ⟨by omega, by omega, by simpa using hmost, ?_⟩
        intro place hlower hupper
        obtain ⟨before, rfl⟩ := Nat.exists_eq_add_of_le' hlower
        exact hholds before (by omega)
    constructor
    · rintro ⟨stop, next, ⟨rfl, hfirst⟩, finish, hspan, last, ⟨rfl, rfl⟩, _⟩
      obtain ⟨hleast, hmost, hrest⟩ := hdots.mp hspan
      exact ⟨hfirst, hrest, hleast, hmost⟩
    · rintro ⟨hfirst, hrest, hleast, hmost⟩
      exact ⟨_, 1, ⟨rfl, hfirst⟩, _, hdots.mpr ⟨hleast, hmost, hrest⟩, _, ⟨rfl, rfl⟩, rfl⟩

/-- A unit of the class ends no line. -/
theorem lineTerminator_of_inClass {unit : UInt16} (h : InClass unit) : lineTerminator unit = false := by
  by_contra hline
  simp only [Bool.not_eq_false, lineTerminator, List.contains_iff_mem, List.mem_cons, List.not_mem_nil,
    or_false] at hline
  obtain rfl | rfl | rfl | rfl := hline <;> exact absurd h (by decide)

/-- The body has no line terminators, so that the lookaheads see the whole text. -/
theorem exists_spans_lookahead_of_body (hbody : BodyHolds text) (ranges : List (UInt16 × UInt16)) :
    (∃ far, Spans text (lookahead ranges) 0 far) ↔ ∃ unit ∈ text, inRanges ranges unit = true := by
  have hlines : ∀ unit ∈ text, (!lineTerminator unit) = true := by
    cases text with
    | nil => cases hbody
    | cons first rest =>
      intro unit hunit
      rw [Bool.not_eq_true']
      obtain rfl | hrest := List.mem_cons.mp hunit
      · exact lineTerminator_of_inClass hbody.1
      · exact hbody.2.1 unit hrest
  rw [exists_spans_lookahead_iff, ← exists_holdsAt_iff]
  refine exists_congr fun place => and_iff_left_of_imp fun hholds other hother => ?_
  exact forall_holdsAt_iff.mpr hlines other (hother.trans (lt_length_of_holdsAt hholds))

/-- The language of the pattern. -/
theorem test_passwordPattern (text : Units) :
    passwordPattern.regex.test text = true ↔ HasRequired text ∧ BodyHolds text := by
  have hpattern : passwordPattern.regex.pattern = some _ := pattern_buildPasswordRegEx
  rw [RegExp.test_eq hpattern, Pattern.test_eq_true_iff]
  constructor
  · rintro ⟨place, stop, _, _, ⟨rfl, rfl⟩, _, ⟨rfl, hchars⟩, _, ⟨rfl, hascii⟩, hspan⟩
    have hbody := exists_spans_body_iff.mp ⟨stop, hspan⟩
    rw [exists_spans_lookahead_of_body hbody] at hchars hascii
    exact ⟨⟨hchars, hascii⟩, hbody⟩
  · rintro ⟨⟨hchars, hascii⟩, hbody⟩
    rw [← exists_spans_lookahead_of_body hbody] at hchars hascii
    obtain ⟨stop, hspan⟩ := exists_spans_body_iff.mpr hbody
    exact ⟨0, stop, Nat.zero_le _, 0, ⟨rfl, rfl⟩, 0, ⟨rfl, hchars⟩, 0, ⟨rfl, hascii⟩, hspan⟩

/-- The language that the pattern announces: nine to sixty units, all of the class, and
one of each of the two kinds. -/
def Announced (text : Units) : Prop :=
  9 ≤ text.length ∧ text.length ≤ 60 ∧ (∀ unit ∈ text, InClass unit) ∧ HasRequired text

instance (text : Units) : Decidable (Announced text) :=
  @instDecidableAnd _ _ _ (@instDecidableAnd _ _ _ (@instDecidableAnd _ _ (List.decidableBAll _ text) _))

/-- A text of one line that begins within the class and has what is required, and that
is too short by one for the pattern, too long by one, or leaves the class later on. -/
def Contested : Units → Prop
  | [] => False
  | first :: rest => HasRequired (first :: rest) ∧ InClass first ∧ (∀ unit ∈ rest, lineTerminator unit = false) ∧
    ((first :: rest).length = 9 ∧ (∀ unit ∈ rest, InClass unit) ∨ (first :: rest).length = 61 ∨
      10 ≤ (first :: rest).length ∧ (first :: rest).length ≤ 60 ∧ ∃ unit ∈ rest, ¬ InClass unit)

/-- The pattern takes the announced language apart from the contested texts. -/
theorem test_iff_announced_iff (text : Units) :
    (passwordPattern.regex.test text = true ↔ Announced text) ↔ ¬ Contested text := by
  rw [test_passwordPattern]
  cases text with
  | nil => simp [BodyHolds, Announced, Contested]
  | cons first rest =>
    have hlines : (∀ unit ∈ rest, InClass unit) → ∀ unit ∈ rest, lineTerminator unit = false :=
      fun hclass unit hunit => lineTerminator_of_inClass (hclass unit hunit)
    have hleaves : (∃ unit ∈ rest, ¬ InClass unit) ↔ ¬ ∀ unit ∈ rest, InClass unit := by
      push Not
      rfl
    simp only [BodyHolds, Announced, Contested, List.length_cons, List.forall_mem_cons, hleaves]
    generalize (∀ unit ∈ rest, InClass unit) = stays at hlines ⊢
    generalize (∀ unit ∈ rest, lineTerminator unit = false) = oneLine at hlines ⊢
    by_cases hrequired : HasRequired (first :: rest)
    case neg => simp [hrequired]
    by_cases hfirst : InClass first
    case neg => simp [hfirst]
    by_cases hstays : stays
    · have hline := hlines hstays
      simp only [hrequired, hfirst, hstays, hline, true_and, and_true, not_true_eq_false, and_false, or_false]
      omega
    · by_cases hline : oneLine
      · simp only [hrequired, hfirst, hstays, hline, true_and, and_true, not_false_eq_true, and_false, false_or,
          iff_false]
        omega
      · simp [hstays, hline]

/-- A password of nine digits and letters is not taken. -/
theorem not_test_nine : ¬ (passwordPattern.regex.test (units "cGFzczEyM") = true ↔ Announced (units "cGFzczEyM")) := by
  rw [test_passwordPattern]
  decide

end node_backend.regex_constants
