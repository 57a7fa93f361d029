import NodeBackend.Js.Units

namespace regex

open js

/-- A pattern of a regular expression without flags, as far as it has no alternatives,
no groups and no negated classes. -/
inductive Pattern
  | empty
  | oneOf (ranges : List (UInt16 × UInt16))
  | dot
  | seq (first second : Pattern)
  | repeated (pattern : Pattern) (least : Nat) (most : Option Nat)
  | ahead (pattern : Pattern)
  | start
  | finish
  deriving DecidableEq, Repr

def inRanges (ranges : List (UInt16 × UInt16)) (unit : UInt16) : Bool :=
  ranges.any fun range => decide (range.1 ≤ unit ∧ unit ≤ range.2)

/-- What a dot does not stand for. -/
def lineTerminator (unit : UInt16) : Bool :=
  [10, 13, 8232, 8233].contains unit

/-- Whether the unit at a place is of a kind. -/
def holdsAt (text : Units) (kind : UInt16 → Bool) (place : Nat) : Bool :=
  text[place]?.any kind

/-- How a pattern is matched: from a place on, and then the rest of the whole pattern. -/
abbrev Matcher : Type :=
  Nat → (Nat → Bool) → Bool

/-- RepeatMatcher: as often as possible, and after the least number of times never for an
empty text. The fuel bounds the number of times. -/
def repeatMatcher (matcher : Matcher) : Nat → Nat → Option Nat → Matcher
  | 0, _, _, _, _ => false
  | fuel + 1, least, most, place, rest =>
    if most = some 0 then rest place
    else
      let again := matcher place fun next =>
        if least = 0 ∧ next = place then false
        else repeatMatcher matcher fuel (least - 1) (most.map (· - 1)) next rest
      if least = 0 then again || rest place else again

def Pattern.matcher (text : Units) : Pattern → Matcher
  | empty, place, rest => rest place
  | oneOf ranges, place, rest => holdsAt text (inRanges ranges) place && rest (place + 1)
  | dot, place, rest => holdsAt text (fun unit => !lineTerminator unit) place && rest (place + 1)
  | seq first second, place, rest => first.matcher text place fun middle => second.matcher text middle rest
  | repeated pattern least most, place, rest =>
    repeatMatcher (pattern.matcher text) (least + (text.length - place) + 1) least most place rest
  | ahead pattern, place, rest => (pattern.matcher text place fun _ => true) && rest place
  | start, place, rest => decide (place = 0) && rest place
  | finish, place, rest => decide (place = text.length) && rest place

/-- RegExp.prototype.test, which looks for a match from every place. -/
def Pattern.test (pattern : Pattern) (text : Units) : Bool :=
  (List.range (text.length + 1)).any fun place => pattern.matcher text place fun _ => true

section repetition

variable {R : Nat → Nat → Prop} {least : Nat} {most : Option Nat} {place stop : Nat}

/-- Steps of a relation one after another, at least and at most so many. -/
inductive Repeats (R : Nat → Nat → Prop) : Nat → Option Nat → Nat → Nat → Prop
  | done {least : Nat} {most : Option Nat} {place : Nat} (henough : least = 0 ∨ most = some 0) :
    Repeats R least most place place
  | more {least : Nat} {most : Option Nat} {place next stop : Nat} (hmost : most ≠ some 0) (hfirst : R place next)
    (hrest : Repeats R (least - 1) (most.map (· - 1)) next stop) : Repeats R least most place stop

/-- One step more may be taken, and need not be. -/
theorem Repeats.relax (h : Repeats R 0 (most.map (· - 1)) place stop) : Repeats R 0 most place stop := by
  generalize hless : most.map (· - 1) = less at h
  generalize hnothing : 0 = nothing at h
  induction h generalizing most with
  | done henough => exact hnothing ▸ .done (.inl rfl)
  | more hmost hfirst hrest ih =>
    subst hnothing hless
    refine .more ?_ hfirst (ih rfl rfl)
    rintro rfl
    exact hmost rfl

/-- Where enough steps were taken, the next one leads on. -/
theorem Repeats.cases_step (h : Repeats R least most place stop) :
    (least = 0 ∨ most = some 0) ∧ stop = place ∨
      ∃ next, most ≠ some 0 ∧ R place next ∧ ¬ (least = 0 ∧ next = place) ∧
        Repeats R (least - 1) (most.map (· - 1)) next stop := by
  induction h with
  | done henough => exact .inl ⟨henough, rfl⟩
  | @more least most place next stop hmost hfirst hrest ih =>
    by_cases hstays : least = 0 ∧ next = place
    · obtain ⟨rfl, rfl⟩ := hstays
      obtain ⟨_, hstop⟩ | ⟨onward, hmore, hstep, hne, hlater⟩ := ih
      · exact .inl ⟨.inl rfl, hstop⟩
      · exact .inr ⟨onward, hmost, hstep, hne, hlater.relax⟩
    · exact .inr ⟨next, hmost, hfirst, hstays, hrest⟩

/-- Steps to the next place each time, where the place allows it. -/
theorem repeats_next_iff {allowed : Nat → Prop} (hmost : ∀ n ∈ most, least ≤ n) :
    Repeats (fun place next => next = place + 1 ∧ allowed place) least most place stop ↔
      place ≤ stop ∧ least ≤ stop - place ∧ (∀ n ∈ most, stop - place ≤ n) ∧
        ∀ other, place ≤ other → other < stop → allowed other := by
  constructor
  · intro h
    induction h with
    | @done least most place henough =>
      have hzero : least = 0 := by
        obtain hzero | hnone := henough
        · exact hzero
        · exact Nat.le_zero.mp (hmost 0 hnone)
      exact ⟨le_rfl, by omega, by simp, by omega⟩
    | @more least most place next stop hsome hfirst hrest ih =>
      obtain ⟨rfl, hallowed⟩ := hfirst
      obtain ⟨hle, hleast, hbound, hall⟩ := ih (by
        intro n hn
        obtain ⟨m, hm, rfl⟩ := Option.map_eq_some_iff.mp hn
        have hlower := hmost m hm
        omega)
      refine ⟨by omega, by omega, ?_, ?_⟩
      · intro n hn
        have hless := hbound (n - 1) (Option.map_eq_some_iff.mpr ⟨n, hn, rfl⟩)
        have hne : n ≠ 0 := by
          rintro rfl
          exact hsome hn
        omega
      · intro other hlower hupper
        by_cases hhere : other = place
        · exact hhere ▸ hallowed
        · exact hall other (by omega) hupper
  · rintro ⟨hle, hleast, hbound, hall⟩
    obtain ⟨count, rfl⟩ := Nat.exists_eq_add_of_le hle
    induction count generalizing least most place with
    | zero => exact .done (.inl (by omega))
    | succ count ih =>
      refine .more ?_ ⟨(rfl : place + 1 = place + 1), hall place le_rfl (by omega)⟩ ?_
      · intro hzero
        have hless := hbound 0 hzero
        omega
      · have hstop : place + (count + 1) = place + 1 + count := by omega
        rw [hstop]
        refine ih ?_ (by omega) (by omega) ?_ ?_
        · intro n hn
          obtain ⟨m, hm, rfl⟩ := Option.map_eq_some_iff.mp hn
          have hlower := hmost m hm
          omega
        · intro n hn
          obtain ⟨m, hm, rfl⟩ := Option.map_eq_some_iff.mp hn
          have hupper := hbound m hm
          omega
        · intro other hlower hupper
          exact hall other (by omega) (by omega)

end repetition

/-- What a pattern stands for: the part of a text from a place to another one. -/
def Spans (text : Units) : Pattern → Nat → Nat → Prop
  | .empty, place, stop => stop = place
  | .oneOf ranges, place, stop => stop = place + 1 ∧ holdsAt text (inRanges ranges) place = true
  | .dot, place, stop => stop = place + 1 ∧ holdsAt text (fun unit => !lineTerminator unit) place = true
  | .seq first second, place, stop => ∃ middle, Spans text first place middle ∧ Spans text second middle stop
  | .repeated pattern least most, place, stop => Repeats (Spans text pattern) least most place stop
  | .ahead pattern, place, stop => stop = place ∧ ∃ far, Spans text pattern place far
  | .start, place, stop => stop = place ∧ place = 0
  | .finish, place, stop => stop = place ∧ place = text.length

variable {text : Units}

theorem lt_length_of_holdsAt {kind : UInt16 → Bool} {place : Nat} (h : holdsAt text kind place = true) :
    place < text.length := by
  obtain ⟨unit, hunit, _⟩ := (Option.any_eq_true ..).mp h
  exact (List.getElem?_eq_some_iff.mp hunit).1

theorem Repeats.bounds {R : Nat → Nat → Prop}
    (hR : ∀ place stop, place ≤ text.length → R place stop → place ≤ stop ∧ stop ≤ text.length) {least : Nat}
    {most : Option Nat} {place stop : Nat} (h : Repeats R least most place stop) (hplace : place ≤ text.length) :
    place ≤ stop ∧ stop ≤ text.length := by
  induction h with
  | done henough => exact ⟨le_rfl, hplace⟩
  | more hmost hfirst hrest ih =>
    have hnext := hR _ _ hplace hfirst
    have hstop := ih hnext.2
    exact ⟨by omega, hstop.2⟩

/-- A match goes on, and not past the end. -/
theorem Spans.bounds {pattern : Pattern} {place stop : Nat} (h : Spans text pattern place stop)
    (hplace : place ≤ text.length) : place ≤ stop ∧ stop ≤ text.length := by
  induction pattern generalizing place stop with
  | empty =>
    have hstop : stop = place := h
    omega
  | oneOf ranges =>
    have hlt := lt_length_of_holdsAt h.2
    have hstop := h.1
    omega
  | dot =>
    have hlt := lt_length_of_holdsAt h.2
    have hstop := h.1
    omega
  | seq first second ihFirst ihSecond =>
    obtain ⟨middle, hfirst, hsecond⟩ := h
    have hmiddle := ihFirst hfirst hplace
    have hstop := ihSecond hsecond hmiddle.2
    omega
  | repeated pattern least most ih => exact Repeats.bounds (fun _ _ hle hspan => ih hspan hle) h hplace
  | ahead pattern ih =>
    have hstop := h.1
    omega
  | start =>
    have hstop := h.1
    omega
  | finish =>
    have hstop := h.1
    omega

end regex
