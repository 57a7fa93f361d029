import NodeBackend.Regex.Pattern

namespace regex

open js

variable {text : Units}

/-- A matcher that looks for what a relation allows. -/
def Matcher.Finds (text : Units) (matcher : Matcher) (R : Nat → Nat → Prop) : Prop :=
  ∀ place rest, place ≤ text.length → (matcher place rest = true ↔ ∃ stop, R place stop ∧ rest stop = true)

theorem Matcher.Finds.repeated {matcher : Matcher} {R : Nat → Nat → Prop} (hfinds : matcher.Finds text R)
    (hR : ∀ place stop, place ≤ text.length → R place stop → place ≤ stop ∧ stop ≤ text.length) {fuel least : Nat}
    {most : Option Nat} {place : Nat} {rest : Nat → Bool} (hplace : place ≤ text.length)
    (hfuel : least + (text.length - place) < fuel) :
    repeatMatcher matcher fuel least most place rest = true ↔
      ∃ stop, Repeats R least most place stop ∧ rest stop = true := by
  induction fuel generalizing least most place with
  | zero => omega
  | succ fuel ih =>
    have hagain : matcher place (fun next => if least = 0 ∧ next = place then false
        else repeatMatcher matcher fuel (least - 1) (most.map (· - 1)) next rest) = true ↔
        ∃ next, R place next ∧ ¬ (least = 0 ∧ next = place) ∧
          ∃ stop, Repeats R (least - 1) (most.map (· - 1)) next stop ∧ rest stop = true := by
      rw [hfinds place _ hplace]
      refine exists_congr fun next => and_congr_right fun hnext => ?_
      have hbounds := hR place next hplace hnext
      by_cases hstays : least = 0 ∧ next = place
      · simp [hstays]
      · rw [if_neg hstays, ih hbounds.2 (by omega)]
        simp only [hstays, not_false_eq_true, true_and]
    rw [repeatMatcher]
    by_cases hmost : most = some 0
    · rw [if_pos hmost]
      constructor
      · intro hrest
        exact ⟨place, .done (.inr hmost), hrest⟩
      · rintro ⟨stop, hrepeats, hrest⟩
        obtain ⟨_, rfl⟩ | ⟨_, hne, _⟩ := hrepeats.cases_step
        · exact hrest
        · exact absurd hmost hne
    · rw [if_neg hmost]
      have hmore : (∃ stop, Repeats R least most place stop ∧ rest stop = true) ↔
          (∃ next, R place next ∧ ¬ (least = 0 ∧ next = place) ∧
            ∃ stop, Repeats R (least - 1) (most.map (· - 1)) next stop ∧ rest stop = true) ∨
          least = 0 ∧ rest place = true := by
        constructor
        · rintro ⟨stop, hrepeats, hrest⟩
          obtain ⟨hzero | hnone, rfl⟩ | ⟨next, _, hfirst, hne, hlater⟩ := hrepeats.cases_step
          · exact .inr ⟨hzero, hrest⟩
          · exact absurd hnone hmost
          · exact .inl ⟨next, hfirst, hne, stop, hlater, hrest⟩
        · rintro (⟨next, hfirst, _, stop, hlater, hrest⟩ | ⟨hzero, hrest⟩)
          · exact ⟨stop, .more hmost hfirst hlater, hrest⟩
          · exact ⟨place, .done (.inl hzero), hrest⟩
      rw [hmore, ← hagain]
      by_cases hleast : least = 0
      · simp [hleast]
      · simp [hleast]

/-- The matcher finds what its pattern stands for, and nothing else. -/
theorem Pattern.matcher_finds (text : Units) (pattern : Pattern) :
    (pattern.matcher text).Finds text (Spans text pattern) := by
  induction pattern with
  | empty =>
    intro place rest hplace
    simp [Pattern.matcher, Spans]
  | oneOf ranges =>
    intro place rest hplace
    simp [Pattern.matcher, Spans, and_assoc]
  | dot =>
    intro place rest hplace
    simp [Pattern.matcher, Spans, and_assoc]
  | seq first second ihFirst ihSecond =>
    intro place rest hplace
    simp only [Pattern.matcher, Spans]
    rw [ihFirst place _ hplace]
    constructor
    · rintro ⟨middle, hfirst, hmatched⟩
      obtain ⟨stop, hsecond, hrest⟩ := (ihSecond middle rest (hfirst.bounds hplace).2).mp hmatched
      exact ⟨stop, ⟨middle, hfirst, hsecond⟩, hrest⟩
    · rintro ⟨stop, ⟨middle, hfirst, hsecond⟩, hrest⟩
      exact ⟨middle, hfirst, (ihSecond middle rest (hfirst.bounds hplace).2).mpr ⟨stop, hsecond, hrest⟩⟩
  | repeated pattern least most ih =>
    intro place rest hplace
    exact ih.repeated (fun _ _ hle hspan => hspan.bounds hle) hplace (Nat.lt_succ_self _)
  | ahead pattern ih =>
    intro place rest hplace
    simp [Pattern.matcher, Spans, ih place _ hplace, and_comm]
  | start =>
    intro place rest hplace
    simp [Pattern.matcher, Spans, and_assoc]
  | finish =>
    intro place rest hplace
    simp [Pattern.matcher, Spans, and_assoc]

/-- A text passes the test where the pattern stands for a part of it. -/
theorem Pattern.test_eq_true_iff (pattern : Pattern) (text : Units) :
    pattern.test text = true ↔ ∃ place stop, place ≤ text.length ∧ Spans text pattern place stop := by
  rw [Pattern.test, List.any_eq_true]
  constructor
  · rintro ⟨place, hplace, hmatched⟩
    have hle : place ≤ text.length := by
      rw [List.mem_range] at hplace
      omega
    obtain ⟨stop, hspan, _⟩ := (pattern.matcher_finds text place _ hle).mp hmatched
    exact ⟨place, stop, hle, hspan⟩
  · rintro ⟨place, stop, hle, hspan⟩
    refine ⟨place, List.mem_range.mpr (by omega), ?_⟩
    exact (pattern.matcher_finds text place _ hle).mpr ⟨stop, hspan, rfl⟩

section kinds

variable {kind : UInt16 → Bool} {place stop : Nat}

/-- Units of a kind one after another. -/
theorem spans_dots_iff {least : Nat} {most : Option Nat} (hmost : ∀ n ∈ most, least ≤ n) :
    Spans text (.repeated .dot least most) place stop ↔ place ≤ stop ∧ least ≤ stop - place ∧
      (∀ n ∈ most, stop - place ≤ n) ∧ ∀ other, place ≤ other → other < stop →
        holdsAt text (fun unit => !lineTerminator unit) other = true :=
  repeats_next_iff hmost

theorem exists_holdsAt_iff : (∃ place, holdsAt text kind place = true) ↔ ∃ unit ∈ text, kind unit = true := by
  simp only [holdsAt, Option.any_eq_true, List.mem_iff_getElem?]
  constructor
  · rintro ⟨place, unit, hunit, hkind⟩
    exact ⟨unit, ⟨place, hunit⟩, hkind⟩
  · rintro ⟨unit, ⟨place, hunit⟩, hkind⟩
    exact ⟨place, unit, hunit, hkind⟩

theorem forall_holdsAt_iff : (∀ place, place < text.length → holdsAt text kind place = true) ↔
    ∀ unit ∈ text, kind unit = true := by
  simp only [holdsAt, Option.any_eq_true]
  constructor
  · intro h unit hunit
    obtain ⟨place, hplace, rfl⟩ := List.mem_iff_getElem.mp hunit
    obtain ⟨other, hother, hkind⟩ := h place hplace
    rw [List.getElem?_eq_getElem hplace, Option.some.injEq] at hother
    exact hother ▸ hkind
  · intro h place hplace
    exact ⟨text[place], List.getElem?_eq_getElem hplace, h _ (List.getElem_mem hplace)⟩

end kinds

end regex
