import Mathlib.Tactic

namespace js

variable {Item : Type} [DecidableEq Item]

/-- A list without the first place where a pattern stands in it. -/
def removeFirst (pattern : List Item) : List Item → List Item
  | [] => []
  | item :: rest =>
    if pattern <+: item :: rest then (item :: rest).drop pattern.length else item :: removeFirst pattern rest

/-- String.prototype.replace of a text by the empty one. -/
def replaceByNothing (text pattern : String) : String :=
  String.ofList (removeFirst pattern.toList text.toList)

theorem removeFirst_append (pattern rest : List Item) : removeFirst pattern (pattern ++ rest) = rest := by
  cases hwhole : pattern ++ rest with
  | nil =>
    rw [(List.append_eq_nil_iff.mp hwhole).2]
    rfl
  | cons item more => rw [removeFirst, ← hwhole, if_pos (List.prefix_append pattern rest), List.drop_left]

/-- Either the pattern stands nowhere, or it is taken out between two parts. -/
theorem removeFirst_cases (pattern text : List Item) : removeFirst pattern text = text ∨
    ∃ before after, text = before ++ (pattern ++ after) ∧ removeFirst pattern text = before ++ after := by
  induction text with
  | nil => exact Or.inl rfl
  | cons item rest ih =>
    rw [removeFirst]
    by_cases hstands : pattern <+: item :: rest
    · obtain ⟨after, hafter⟩ := hstands
      refine Or.inr ⟨[], after, hafter.symm, ?_⟩
      rw [if_pos ⟨after, hafter⟩, ← hafter, List.drop_left, List.nil_append]
    · rw [if_neg hstands]
      obtain hsame | ⟨before, after, hrest, hremoved⟩ := ih
      · exact Or.inl (by rw [hsame])
      · exact Or.inr ⟨item :: before, after, by rw [hrest, List.cons_append], by rw [hremoved, List.cons_append]⟩

section separator

variable {separator : Item} {first second last last' : List Item}

omit [DecidableEq Item] in
/-- What stands behind the last separator is determined, and what is before it. -/
theorem eq_of_append_separator (hlast : separator ∉ last) (hlast' : separator ∉ last')
    (h : first ++ separator :: last = second ++ separator :: last') : first = second ∧ last = last' := by
  obtain ⟨middle, hsecond, hrest⟩ | ⟨middle, hfirst, hrest⟩ := List.append_eq_append_iff.mp h
  · cases middle with
    | nil => exact ⟨by rw [hsecond, List.append_nil], (List.cons.inj hrest).2⟩
    | cons item middle =>
      rw [List.cons_append] at hrest
      exact absurd (by rw [(List.cons.inj hrest).2]; simp) hlast
  · cases middle with
    | nil => exact ⟨by rw [hfirst, List.append_nil], (List.cons.inj hrest).2.symm⟩
    | cons item middle =>
      rw [List.cons_append] at hrest
      exact absurd (by rw [(List.cons.inj hrest).2]; simp) hlast'

omit [DecidableEq Item] in
/-- So is what stands before the first one. -/
theorem eq_of_separator_append {rest rest' : List Item} (hfirst : separator ∉ first) (hsecond : separator ∉ second)
    (h : first ++ separator :: rest = second ++ separator :: rest') : first = second ∧ rest = rest' := by
  have hreverse : rest.reverse ++ separator :: first.reverse = rest'.reverse ++ separator :: second.reverse := by
    simpa using congrArg List.reverse h
  obtain ⟨hrest, hsame⟩ := eq_of_append_separator (by simpa using hfirst) (by simpa using hsecond) hreverse
  exact ⟨List.reverse_injective hsame, List.reverse_injective hrest⟩

omit [DecidableEq Item] in
/-- A text and a separator begin a text of two parts where they are the first part,
or begin it. -/
theorem append_separator_prefix_iff (hlast : separator ∉ last) :
    first ++ [separator] <+: second ++ separator :: last ↔ first = second ∨ first ++ [separator] <+: second := by
  constructor
  · intro h
    obtain ⟨rest, hrest⟩ := h
    rw [List.append_assoc, List.singleton_append] at hrest
    obtain ⟨middle, hsecond, hmiddle⟩ | ⟨middle, hfirst, hmiddle⟩ := List.append_eq_append_iff.mp hrest
    · cases middle with
      | nil => exact Or.inl (by rw [hsecond, List.append_nil])
      | cons item middle =>
        rw [List.cons_append] at hmiddle
        refine Or.inr ⟨middle, ?_⟩
        rw [hsecond, (List.cons.inj hmiddle).1, List.append_assoc, List.singleton_append]
    · cases middle with
      | nil => exact Or.inl (by rw [hfirst, List.append_nil])
      | cons item middle =>
        rw [List.cons_append] at hmiddle
        exact absurd (by rw [(List.cons.inj hmiddle).2]; simp) hlast
  · rintro (rfl | hbegins)
    · exact ⟨last, by rw [List.append_assoc, List.singleton_append]⟩
    · exact hbegins.trans (List.prefix_append _ _)

/-- Where a first part is taken out of a text of two parts, what is left is a second
part of the same length only if both parts are the same. -/
theorem removeFirst_eq_iff (hlast : separator ∉ last) (hlast' : separator ∉ last')
    (hlength : last.length = last'.length) :
    removeFirst (first ++ [separator]) (second ++ separator :: last) = last' ↔ second = first ∧ last = last' := by
  constructor
  · intro h
    obtain hsame | ⟨before, after, htext, hremoved⟩ :=
      removeFirst_cases (first ++ [separator]) (second ++ separator :: last)
    · rw [hsame] at h
      exact absurd (by rw [← h]; simp) hlast'
    · rw [hremoved] at h
      have hafter : separator ∉ after := fun hmem => hlast' (h ▸ List.mem_append_right _ hmem)
      rw [List.append_assoc, List.singleton_append, ← List.append_assoc] at htext
      obtain ⟨hsecond, hrest⟩ := eq_of_append_separator hlast hafter htext
      have hbefore : before = [] := by
        have hlengths := congrArg List.length h
        rw [List.length_append, ← hrest, ← hlength] at hlengths
        exact List.length_eq_zero_iff.mp (by omega)
      rw [hbefore, List.nil_append] at hsecond h
      exact ⟨hsecond, hrest.trans h⟩
  · rintro ⟨rfl, rfl⟩
    have hwhole := removeFirst_append (second ++ [separator]) last
    rwa [List.append_assoc, List.singleton_append] at hwhole

end separator

end js
