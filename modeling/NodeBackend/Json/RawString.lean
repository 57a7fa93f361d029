import NodeBackend.Json.Fuel

namespace json

/-- Characters that separate or close the items of an array. They are neither
white space nor quotes, and no escape sequence contains one. -/
def IsDelimiter (c : Char) : Prop :=
  c = ',' ∨ c = ']'

theorem hexUnit_not_delimiter {a b c d : Char} {unit : Nat} (h : hexUnit a b c d = some unit) :
    ∀ x, IsDelimiter x → x ≠ a ∧ x ≠ b ∧ x ≠ c ∧ x ≠ d := by
  have hnone : ∀ x, IsDelimiter x → hexValue x = none := by
    rintro x (rfl | rfl) <;> rfl
  simp only [hexUnit, Option.bind_eq_bind, Option.bind_eq_some_iff] at h
  obtain ⟨p, ha, q, hb, r, hc, t, hd, _⟩ := h
  intro x hx
  have hx := hnone x hx
  refine ⟨?_, ?_, ?_, ?_⟩ <;> rintro rfl <;> simp_all

theorem simpleEscape_not_delimiter {c : Char} {unit : Nat} (h : simpleEscape c = some unit) :
    ∀ x, IsDelimiter x → x ≠ c := by
  rintro x (rfl | rfl) rfl <;> cases h

/-- What a scanned string literal says about the text between its quotes: it
is at least as long as the string, and shows each delimiter at most as often. -/
theorem scanString_consumed {text after : List Char} {units : List Nat}
    (h : scanString text = some (units, after)) :
    ∃ quoted, text = quoted ++ '"' :: after ∧ units.length ≤ quoted.length ∧
      ∀ c, IsDelimiter c → quoted.count c ≤ units.count c.toNat := by
  induction text using scanString.induct generalizing units with
  | case1 => cases h
  | case2 rest =>
    simp only [scanString, Option.some.injEq, Prod.mk.injEq] at h
    obtain ⟨rfl, rfl⟩ := h
    exact ⟨[], rfl, le_rfl, fun c _ => by simp⟩
  | case3 a b c d rest hunit =>
    simp [scanString, hunit] at h
  | case4 a b c d rest unit hunit ih =>
    simp only [scanString, hunit, Option.map_eq_some_iff, Prod.mk.injEq, Prod.exists] at h
    obtain ⟨inner, tail, hinner, rfl, rfl⟩ := h
    obtain ⟨quoted, rfl, hlength, hcount⟩ := ih hinner
    refine ⟨'\\' :: 'u' :: a :: b :: c :: d :: quoted, rfl, ?_, ?_⟩
    · simp only [List.length_cons]
      omega
    · intro x hx
      obtain ⟨ha, hb, hc, hd⟩ := hexUnit_not_delimiter hunit x hx
      have hescape : '\\' ≠ x ∧ 'u' ≠ x := by rcases hx with rfl | rfl <;> decide
      rw [List.count_cons_of_ne hescape.1, List.count_cons_of_ne hescape.2, List.count_cons_of_ne ha.symm,
        List.count_cons_of_ne hb.symm, List.count_cons_of_ne hc.symm, List.count_cons_of_ne hd.symm]
      exact (hcount x hx).trans List.count_le_count_cons
  | case5 c rest hnot hsimple =>
    simp [scanString, hsimple] at h
  | case6 c rest hnot unit hsimple ih =>
    simp only [scanString, hsimple, Option.map_eq_some_iff, Prod.mk.injEq, Prod.exists] at h
    obtain ⟨inner, tail, hinner, rfl, rfl⟩ := h
    obtain ⟨quoted, rfl, hlength, hcount⟩ := ih hinner
    refine ⟨'\\' :: c :: quoted, rfl, ?_, ?_⟩
    · simp only [List.length_cons]
      omega
    · intro x hx
      have hescape : '\\' ≠ x := by rcases hx with rfl | rfl <;> decide
      rw [List.count_cons_of_ne hescape, List.count_cons_of_ne (simpleEscape_not_delimiter hsimple x hx).symm]
      exact (hcount x hx).trans List.count_le_count_cons
  | case7 c rest hquote hback hescape hcontrol =>
    simp [scanString, hcontrol] at h
  | case8 c rest hquote hback hescape hcontrol ih =>
    simp only [scanString, if_neg hcontrol, Option.map_eq_some_iff, Prod.mk.injEq, Prod.exists] at h
    obtain ⟨inner, tail, hinner, rfl, rfl⟩ := h
    obtain ⟨quoted, rfl, hlength, hcount⟩ := ih hinner
    refine ⟨c :: quoted, rfl, by simpa using hlength, ?_⟩
    intro x hx
    have htail := hcount x hx
    by_cases hcx : c = x
    · subst hcx
      rw [List.count_cons_self, List.count_cons_self]
      omega
    · rw [List.count_cons_of_ne hcx]
      exact htail.trans List.count_le_count_cons

theorem decodeUnits_length_le (units : List Nat) : (decodeUnits units).length ≤ units.length := by
  induction units using decodeUnits.induct with
  | case1 => exact le_rfl
  | case2 unit => exact le_rfl
  | case3 high low rest hpair ih =>
    rw [decodeUnits, if_pos hpair, List.length_cons, List.length_cons, List.length_cons]
    omega
  | case4 high low rest hpair ih =>
    rw [decodeUnits, if_neg hpair, List.length_cons, List.length_cons]
    omega

theorem unitChar_delimiter {c : Char} (unit : Nat) (h : unit = c.toNat) : unitChar unit = c := by
  rw [h, unitChar_toNat]

theorem count_cons_le {A B : Type} [DecidableEq A] [DecidableEq B] {a x : A} {b y : B} {as : List A} {bs : List B}
    (hhead : x = a → y = b) (htail : as.count a ≤ bs.count b) : (x :: as).count a ≤ (y :: bs).count b := by
  by_cases hx : x = a
  · rw [hx, hhead hx, List.count_cons_self, List.count_cons_self]
    omega
  · rw [List.count_cons_of_ne hx]
    exact htail.trans List.count_le_count_cons

/-- Decoding keeps every delimiter. -/
theorem decodeUnits_count {c : Char} (hc : IsDelimiter c) (units : List Nat) :
    units.count c.toNat ≤ (decodeUnits units).count c := by
  induction units using decodeUnits.induct with
  | case1 => exact le_rfl
  | case2 unit => exact count_cons_le (unitChar_delimiter unit) le_rfl
  | case3 high low rest hpair ih =>
    rw [decodeUnits, if_pos hpair]
    have hhigh : high ≠ c.toNat ∧ low ≠ c.toNat := by
      constructor <;> rintro rfl <;> rcases hc with rfl | rfl <;> simp [isHighSurrogate, isLowSurrogate] at hpair
    rw [List.count_cons_of_ne hhigh.1, List.count_cons_of_ne hhigh.2]
    exact ih.trans List.count_le_count_cons
  | case4 high low rest hpair ih =>
    rw [decodeUnits, if_neg hpair]
    exact count_cons_le (unitChar_delimiter high) ih

theorem skipSpace_split (text : List Char) :
    ∃ spaces, text = spaces ++ skipSpace text ∧ ∀ c ∈ spaces, isSpace c = true := by
  induction text with
  | nil => exact ⟨[], rfl, by simp⟩
  | cons c rest ih =>
    by_cases hc : isSpace c = true
    · obtain ⟨spaces, hsplit, hspaces⟩ := ih
      refine ⟨c :: spaces, ?_, ?_⟩
      · rw [skipSpace, if_pos hc, List.cons_append, ← hsplit]
      · simpa using ⟨hc, hspaces⟩
    · exact ⟨[], by rw [skipSpace, if_neg hc]; rfl, by simp⟩

/-- A parsed string stood between quotes at the head of the text. -/
theorem parseValue_eq_str {fuel : Nat} {text after : List Char} {s : String}
    (h : parseValue fuel text = some (.str s, after)) :
    ∃ body units, skipSpace text = '"' :: body ∧ scanString body = some (units, after) ∧
      s = String.ofList (decodeUnits units) := by
  cases fuel with
  | zero => cases h
  | succ fuel =>
    rw [parseValue] at h
    revert h
    split <;> intro h
    · rename_i body hbody
      obtain ⟨⟨units, tail⟩, hscan, heq⟩ := Option.map_eq_some_iff.mp h
      cases heq
      exact ⟨body, units, hbody, hscan, rfl⟩
    · revert h
      split <;> intro h
      · cases h
      · obtain ⟨_, _, heq⟩ := Option.map_eq_some_iff.mp h
        cases heq
    · revert h
      split <;> intro h
      · cases h
      · obtain ⟨_, _, heq⟩ := Option.map_eq_some_iff.mp h
        cases heq
    all_goals first
      | cases h
      | obtain ⟨_, _, heq⟩ := Option.map_eq_some_iff.mp h
        cases heq

theorem skipSpace_idem (text : List Char) : skipSpace (skipSpace text) = skipSpace text := by
  induction text with
  | nil => rfl
  | cons c rest ih =>
    rw [skipSpace]
    by_cases hc : isSpace c = true
    · rw [if_pos hc, ih]
    · rw [if_neg hc, skipSpace, if_neg hc]

theorem parseItems_skipSpace (fuel : Nat) (text : List Char) :
    parseItems fuel (skipSpace text) = parseItems fuel text := by
  cases fuel with
  | zero => rfl
  | succ fuel =>
    have hvalue : parseValue fuel (skipSpace text) = parseValue fuel text := by
      cases fuel with
      | zero => rfl
      | succ fuel => rw [parseValue, parseValue, skipSpace_idem]
    rw [parseItems, parseItems, hvalue]

/-- The items of a parsed non-empty array. -/
theorem parseValue_eq_arr {fuel : Nat} {text after : List Char} {items : List Value} (hne : items ≠ [])
    (h : parseValue (fuel + 1) ('[' :: text) = some (.arr items, after)) :
    parseItems fuel text = some (items, after) := by
  rw [parseValue, skipSpace_of_not_isSpace text (by decide)] at h
  revert h
  split
  case h_2 rest heq =>
    rw [← (List.cons.inj heq).2]
    split <;> intro h
    · cases h
      exact absurd rfl hne
    · obtain ⟨⟨tail, tailAfter⟩, htail, heq⟩ := Option.map_eq_some_iff.mp h
      cases heq
      rwa [parseItems_skipSpace] at htail
  case h_7 _ hother _ _ _ _ => exact absurd rfl (hother text)
  all_goals
    rename_i heq
    exact absurd (List.cons.inj heq).1 (by simp)

/-- What may follow an unquoted text inside an array, or at its end. -/
def EndsRaw (rest : List Char) : Prop :=
  ∀ c tail, rest = c :: tail → IsDelimiter c

/-- A text never denotes itself: no string is read back from its own characters
without quotes around them. -/
theorem parseValue_raw_ne_str (fuel : Nat) (s : String) {rest : List Char} (hrest : EndsRaw rest)
    (after : List Char) : parseValue fuel (s.toList ++ rest) ≠ some (.str s, after) := by
  intro h
  obtain ⟨body, units, hbody, hscan, hs⟩ := parseValue_eq_str h
  obtain ⟨quoted, rfl, hlength, hcount⟩ := scanString_consumed hscan
  obtain ⟨spaces, hsplit, hspaces⟩ := skipSpace_split (s.toList ++ rest)
  have hs : s.toList = decodeUnits units := by rw [hs, String.toList_ofList]
  have hshort : s.toList.length ≤ quoted.length := by
    rw [hs]
    exact (decodeUnits_length_le units).trans hlength
  rw [hbody] at hsplit
  cases rest with
  | nil =>
    have hlen := congrArg List.length hsplit
    simp only [List.append_nil, List.length_append, List.length_cons] at hlen
    omega
  | cons d tail =>
    have hd : IsDelimiter d := hrest d tail rfl
    -- The quoted text reaches past `s`, so it shows the delimiter after `s` as well.
    have hfront : s.toList ++ [d] <+: spaces ++ '"' :: quoted := by
      have hwhole : s.toList ++ [d] <+: s.toList ++ d :: tail := ⟨tail, by simp⟩
      refine List.prefix_of_prefix_length_le hwhole ⟨'"' :: after, ?_⟩ ?_
      · simp [hsplit]
      · simp only [List.length_append, List.length_cons, List.length_nil]
        omega
    have hspace : spaces.count d = 0 := by
      refine List.count_eq_zero.mpr fun hmem => ?_
      have := hspaces d hmem
      rcases hd with rfl | rfl <;> exact absurd this (by decide)
    have hquote : '"' ≠ d := by rcases hd with rfl | rfl <;> decide
    have hmore := hfront.sublist.count_le d
    rw [List.count_append, List.count_append, List.count_cons_of_ne hquote, hspace, hs] at hmore
    have hless := (hcount d hd).trans (decodeUnits_count hd units)
    simp at hmore
    omega

end json
