import NodeBackend.Json.RoundTrip

namespace json

/-- Parsers that agree wherever the first one succeeds. -/
def Extends {A : Type} (first second : List Char → Option (A × List Char)) : Prop :=
  ∀ text result, first text = some result → second text = some result

theorem Extends.map {A B : Type} {first second : List Char → Option (A × List Char)}
    (hext : Extends first second) (f : A × List Char → B) {text : List Char} {result : B}
    (h : (first text).map f = some result) : (second text).map f = some result := by
  obtain ⟨inner, hinner, hf⟩ := Option.map_eq_some_iff.mp h
  rw [hext text inner hinner, Option.map_some, hf]

theorem parseValue_succ {fuel : Nat} (hitems : Extends (parseItems fuel) (parseItems (fuel + 1)))
    (hfields : Extends (parseFields fuel) (parseFields (fuel + 1))) :
    Extends (parseValue (fuel + 1)) (parseValue (fuel + 2)) := by
  intro text result h
  rw [parseValue] at h ⊢
  revert h
  generalize skipSpace text = body
  split <;> intro h
  · exact h
  · rename_i rest
    revert h
    generalize skipSpace rest = inside
    split <;> intro h
    · exact h
    · exact hitems.map _ h
  · rename_i rest
    revert h
    generalize skipSpace rest = inside
    split <;> intro h
    · exact h
    · exact hfields.map _ h
  all_goals exact h

theorem parseItems_succ {fuel : Nat} (hvalue : Extends (parseValue fuel) (parseValue (fuel + 1)))
    (hitems : Extends (parseItems fuel) (parseItems (fuel + 1))) :
    Extends (parseItems (fuel + 1)) (parseItems (fuel + 2)) := by
  intro text result h
  rw [parseItems] at h ⊢
  cases hparse : parseValue fuel text with
  | none =>
    rw [hparse] at h
    cases h
  | some parsed =>
    rw [hparse] at h
    rw [hvalue text parsed hparse]
    obtain ⟨item, afterItem⟩ := parsed
    revert h
    dsimp only
    generalize skipSpace afterItem = body
    split <;> intro h
    · exact hitems.map _ h
    · exact h
    · exact h

theorem parseFields_succ {fuel : Nat} (hvalue : Extends (parseValue fuel) (parseValue (fuel + 1)))
    (hfields : Extends (parseFields fuel) (parseFields (fuel + 1))) :
    Extends (parseFields (fuel + 1)) (parseFields (fuel + 2)) := by
  intro text result h
  rw [parseFields] at h ⊢
  revert h
  generalize skipSpace text = body
  split
  · rename_i quoted
    cases hkey : scanString quoted with
    | none => exact id
    | some scanned =>
      obtain ⟨units, afterKey⟩ := scanned
      dsimp only
      generalize skipSpace afterKey = colon
      split
      · rename_i valueText
        cases hparse : parseValue fuel valueText with
        | none =>
          intro h
          cases h
        | some parsed =>
          rw [hvalue valueText parsed hparse]
          obtain ⟨value, afterValue⟩ := parsed
          dsimp only
          generalize skipSpace afterValue = separator
          split <;> intro h
          · exact hfields.map _ h
          · exact h
          · exact h
      · exact id
  · exact id

theorem parse_succ (fuel : Nat) : Extends (parseValue fuel) (parseValue (fuel + 1)) ∧
    Extends (parseItems fuel) (parseItems (fuel + 1)) ∧
    Extends (parseFields fuel) (parseFields (fuel + 1)) := by
  induction fuel with
  | zero => refine ⟨?_, ?_, ?_⟩ <;> intro text result h <;> cases h
  | succ fuel ih =>
    obtain ⟨hvalue, hitems, hfields⟩ := ih
    exact ⟨parseValue_succ hitems hfields, parseItems_succ hvalue hitems,
      parseFields_succ hvalue hfields⟩

/-- A result that some fuel gives is the result of any larger fuel. -/
theorem parseValue_mono {fuel more : Nat} (hle : fuel ≤ more) :
    Extends (parseValue fuel) (parseValue more) := by
  induction hle with
  | refl => exact fun _ _ h => h
  | step _ ih => exact fun text result h => (parse_succ _).1 text result (ih text result h)

/-- Whatever the fuel, parsing the text of a value gives that value or nothing. -/
theorem eq_of_parseValue_text {v : Value} (hkeys : v.KeysOnce) {fuel : Nat} {rest : List Char}
    (hrest : EndsNumber rest) {result : Value × List Char}
    (h : parseValue fuel (v.text ++ rest) = some result) : result = (v, rest) := by
  have hlarge := parseValue_mono (Nat.le_add_right fuel (2 * v.text.length + 1)) _ _ h
  rw [parseValue_text v _ rest (by omega) hrest, Value.merged_of_keysOnce hkeys] at hlarge
  exact (Option.some.inj hlarge).symm

/-- What a parser makes of any text names each key of an object once. -/
def ParsesKeysOnce (fuel : Nat) : Prop :=
  (∀ text v after, parseValue fuel text = some (v, after) → v.KeysOnce) ∧
  (∀ text items after, parseItems fuel text = some (items, after) → ∀ item ∈ items, item.KeysOnce) ∧
  (∀ text fields after, parseFields fuel text = some (fields, after) → ∀ field ∈ fields, field.2.KeysOnce)

theorem setFields_keysOnce {fields : List (String × Value)} (hfields : ∀ field ∈ fields, field.2.KeysOnce) :
    (Value.obj (setFields [] fields)).KeysOnce := by
  refine .obj (setFields_nodup _ List.nodup_nil) fun field hfield => ?_
  obtain hnone | hmem := mem_setFields hfield
  · cases hnone
  · exact hfields field hmem

theorem parseValue_keysOnce {fuel : Nat} (h : ParsesKeysOnce fuel) {text after : List Char} {v : Value}
    (hparse : parseValue (fuel + 1) text = some (v, after)) : v.KeysOnce := by
  rw [parseValue] at hparse
  revert hparse
  split <;> intro hparse
  · obtain ⟨_, _, heq⟩ := Option.map_eq_some_iff.mp hparse
    cases heq
    exact .str _
  · revert hparse
    split <;> intro hparse
    · cases hparse
      exact .arr (by simp)
    · obtain ⟨_, hitems, heq⟩ := Option.map_eq_some_iff.mp hparse
      cases heq
      exact .arr (h.2.1 _ _ _ hitems)
  · revert hparse
    split <;> intro hparse
    · cases hparse
      exact .obj (by simp) (by simp)
    · obtain ⟨_, hfields, heq⟩ := Option.map_eq_some_iff.mp hparse
      cases heq
      exact setFields_keysOnce (h.2.2 _ _ _ hfields)
  · cases hparse
    exact .null
  · cases hparse
    exact .bool true
  · cases hparse
    exact .bool false
  · obtain ⟨_, _, heq⟩ := Option.map_eq_some_iff.mp hparse
    cases heq
    exact .num _

/-- The first item that a parse of items gives is the value at the head of the
text, and a comma stands before any further item. -/
theorem parseItems_eq_cons {fuel : Nat} {text after : List Char} {item : Value} {items : List Value}
    (h : parseItems (fuel + 1) text = some (item :: items, after)) :
    ∃ afterItem, parseValue fuel text = some (item, afterItem) ∧
      (items ≠ [] → ∃ rest, skipSpace afterItem = ',' :: rest ∧ parseItems fuel rest = some (items, after)) := by
  rw [parseItems] at h
  cases hvalue : parseValue fuel text with
  | none =>
    rw [hvalue] at h
    cases h
  | some parsed =>
    obtain ⟨first, afterItem⟩ := parsed
    rw [hvalue] at h
    dsimp only at h
    revert h
    split <;> intro h
    · rename_i rest hrest
      obtain ⟨⟨tail, tailAfter⟩, htail, heq⟩ := Option.map_eq_some_iff.mp h
      cases heq
      exact ⟨afterItem, rfl, fun _ => ⟨rest, hrest, htail⟩⟩
    · cases h
      exact ⟨afterItem, rfl, fun hne => absurd rfl hne⟩
    · cases h

theorem parseItems_keysOnce {fuel : Nat} (h : ParsesKeysOnce fuel) {text after : List Char} {items : List Value}
    (hparse : parseItems (fuel + 1) text = some (items, after)) : ∀ item ∈ items, item.KeysOnce := by
  cases items with
  | nil => exact fun item hitem => by cases hitem
  | cons first rest =>
    obtain ⟨afterItem, hfirst, hmore⟩ := parseItems_eq_cons hparse
    refine List.forall_mem_cons.mpr ⟨h.1 _ _ _ hfirst, fun item hitem => ?_⟩
    obtain ⟨restText, _, hrest⟩ := hmore (List.ne_nil_of_mem hitem)
    exact h.2.1 _ _ _ hrest item hitem

theorem parseFields_keysOnce {fuel : Nat} (h : ParsesKeysOnce fuel) {text after : List Char}
    {fields : List (String × Value)} (hparse : parseFields (fuel + 1) text = some (fields, after)) :
    ∀ field ∈ fields, field.2.KeysOnce := by
  rw [parseFields] at hparse
  revert hparse
  split
  · rename_i quoted hquoted
    cases hkey : scanString quoted with
    | none => exact fun hparse => by cases hparse
    | some scanned =>
      dsimp only
      split
      · rename_i valueText hcolon
        cases hvalue : parseValue fuel valueText with
        | none => exact fun hparse => by cases hparse
        | some parsed =>
          have hfirst := h.1 _ _ _ hvalue
          dsimp only
          split <;> intro hparse
          · obtain ⟨_, hrest, heq⟩ := Option.map_eq_some_iff.mp hparse
            cases heq
            exact List.forall_mem_cons.mpr ⟨hfirst, h.2.2 _ _ _ hrest⟩
          · cases hparse
            simpa using hfirst
          · cases hparse
      · exact fun hparse => by cases hparse
  · exact fun hparse => by cases hparse

theorem parsesKeysOnce (fuel : Nat) : ParsesKeysOnce fuel := by
  induction fuel with
  | zero =>
    refine ⟨?_, ?_, ?_⟩
    all_goals
      intro text result after h
      cases h
  | succ fuel ih =>
    exact ⟨fun _ _ _ h => parseValue_keysOnce ih h, fun _ _ _ h => parseItems_keysOnce ih h,
      fun _ _ _ h => parseFields_keysOnce ih h⟩

/-- A text that JSON.parse accepts begins with its value. -/
theorem parseValue_of_parse {text : String} {v : Value} (h : parse text = some v) :
    ∃ fuel after, parseValue fuel text.toList = some (v, after) := by
  rw [parse, parseText] at h
  cases hvalue : parseValue (2 * text.toList.length + 2) text.toList with
  | none =>
    rw [hvalue] at h
    cases h
  | some parsed =>
    obtain ⟨result, after⟩ := parsed
    rw [hvalue] at h
    dsimp only at h
    by_cases hend : skipSpace after = []
    · rw [if_pos hend] at h
      cases h
      exact ⟨_, after, hvalue⟩
    · rw [if_neg hend] at h
      cases h

/-- JSON.parse never repeats a key. -/
theorem parse_keysOnce {text : String} {v : Value} (h : parse text = some v) : v.KeysOnce := by
  obtain ⟨fuel, after, hvalue⟩ := parseValue_of_parse h
  exact (parsesKeysOnce fuel).1 _ _ _ hvalue

end json
