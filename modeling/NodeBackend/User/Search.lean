import NodeBackend.User.Query

namespace node_backend.user_query

open js store
open node_backend.user_models

/-- A character that stands for itself in the pattern of a LIKE. -/
def Plain (c : Char) : Prop :=
  c ≠ '%' ∧ c ≠ '_' ∧ c ≠ '\\'

theorem like_percent {pattern text : List Char} :
    like ('%' :: pattern) text = true ↔ ∃ rest, rest <:+ text ∧ like pattern rest = true := by
  simp [like, List.any_eq_true, List.mem_tails]

theorem like_underscore {pattern text : List Char} :
    like ('_' :: pattern) text = true ↔ ∃ c rest, text = c :: rest ∧ like pattern rest = true := by
  cases text with
  | nil => simp [like]
  | cons c rest => simp [like]

theorem like_backslash {escaped : Char} {pattern text : List Char} :
    like ('\\' :: escaped :: pattern) text = true ↔ ∃ rest, text = escaped :: rest ∧ like pattern rest = true := by
  cases text with
  | nil => simp [like]
  | cons c rest =>
    rw [like, Bool.and_eq_true, beq_iff_eq]
    constructor
    · intro h
      exact ⟨rest, by rw [h.1], h.2⟩
    · intro h
      obtain ⟨tail, htext, htail⟩ := h
      obtain ⟨rfl, rfl⟩ := List.cons.inj htext
      exact ⟨rfl, htail⟩

theorem like_plain {c : Char} (hc : Plain c) {pattern text : List Char} :
    like (c :: pattern) text = true ↔ ∃ rest, text = c :: rest ∧ like pattern rest = true := by
  cases text with
  | nil =>
    rw [like]
    · simp
    · intro escaped rest hescape
      exact absurd hescape hc.2.2
    · exact hc.1
    · exact hc.2.1
  | cons d rest =>
    rw [like]
    · rw [Bool.and_eq_true, beq_iff_eq]
      constructor
      · intro h
        exact ⟨rest, by rw [h.1], h.2⟩
      · intro h
        obtain ⟨tail, htext, htail⟩ := h
        obtain ⟨rfl, rfl⟩ := List.cons.inj htext
        exact ⟨rfl, htail⟩
    · intro escaped rest hescape
      exact absurd hescape hc.2.2
    · exact hc.1
    · exact hc.2.1

/-- A percent sign at the end of a pattern matches whatever is left. -/
theorem like_last_percent (text : List Char) : like ['%'] text = true := by
  rw [like_percent]
  exact ⟨[], List.nil_suffix, rfl⟩

/-- The pattern of a search. -/
def searchPattern (term : List Char) : List Char :=
  '%' :: (term ++ ['%'])

/-- Without characters of the pattern language a term matches where a text starts
with it. -/
theorem like_term_iff {term : List Char} (hplain : ∀ c ∈ term, Plain c) (text : List Char) :
    like (term ++ ['%']) text = true ↔ term <+: text := by
  induction term generalizing text with
  | nil => simp [like_last_percent]
  | cons c term ih =>
    rw [List.cons_append, like_plain (hplain c List.mem_cons_self)]
    have hrest : ∀ d ∈ term, Plain d := fun d hd => hplain d (List.mem_cons_of_mem c hd)
    constructor
    · intro h
      obtain ⟨rest, rfl, hlike⟩ := h
      exact List.cons_prefix_cons.mpr ⟨rfl, (ih hrest rest).mp hlike⟩
    · intro h
      obtain ⟨after, rfl⟩ := h
      exact ⟨term ++ after, rfl, (ih hrest _).mpr (List.prefix_append term after)⟩

theorem like_searchPattern_iff {term : List Char} (hplain : ∀ c ∈ term, Plain c) (text : List Char) :
    like (searchPattern term) text = true ↔ term <:+: text := by
  rw [searchPattern, like_percent, List.infix_iff_prefix_suffix]
  constructor
  · intro h
    obtain ⟨rest, hsuffix, hlike⟩ := h
    exact ⟨rest, (like_term_iff hplain rest).mp hlike, hsuffix⟩
  · intro h
    obtain ⟨rest, hprefix, hsuffix⟩ := h
    exact ⟨rest, hsuffix, (like_term_iff hplain rest).mpr hprefix⟩

/-- A short text that the pattern of a term matches: nothing for a percent sign, some
other character for an underscore, and the escaped character for an escape. A
backslash at the end escapes the percent sign that follows the term. -/
def shortest : List Char → List Char
  | [] => []
  | ['\\'] => ['%']
  | '\\' :: escaped :: term => escaped :: shortest term
  | '%' :: term => shortest term
  | '_' :: term => 'a' :: shortest term
  | c :: term => c :: shortest term

theorem shortest_plain {c : Char} (hc : Plain c) (term : List Char) : shortest (c :: term) = c :: shortest term := by
  rw [shortest]
  · intro h
    exact absurd h hc.2.2
  · intro escaped rest h
    exact absurd h hc.2.2
  · exact hc.1
  · exact hc.2.1

/-- Induction over a term as the pattern language reads it. -/
theorem term_induction {P : List Char → Prop} (nil : P []) (last : P ['\\'])
    (escape : ∀ escaped term, P term → P ('\\' :: escaped :: term)) (percent : ∀ term, P term → P ('%' :: term))
    (underscore : ∀ term, P term → P ('_' :: term)) (plain : ∀ c term, Plain c → P term → P (c :: term))
    (term : List Char) : P term := by
  induction term using shortest.induct with
  | case1 => exact nil
  | case2 => exact last
  | case3 escaped term ih => exact escape escaped term ih
  | case4 term ih => exact percent term ih
  | case5 term ih => exact underscore term ih
  | case6 c term hlast hescape hpercent hunderscore ih =>
    refine plain c term ⟨hpercent, hunderscore, ?_⟩ ih
    intro hc
    cases term with
    | nil => exact hlast hc rfl
    | cons d term => exact hescape d term hc rfl

theorem like_shortest (term : List Char) : like (term ++ ['%']) (shortest term) = true := by
  induction term using term_induction with
  | nil => exact like_last_percent _
  | last => exact like_backslash.mpr ⟨[], rfl, rfl⟩
  | escape escaped term ih => exact like_backslash.mpr ⟨_, rfl, ih⟩
  | percent term ih => exact like_percent.mpr ⟨_, List.suffix_rfl, ih⟩
  | underscore term ih => exact like_underscore.mpr ⟨_, _, rfl, ih⟩
  | plain c term hc ih =>
    rw [shortest_plain hc]
    exact (like_plain hc).mpr ⟨_, rfl, ih⟩

theorem shortest_length_le (term : List Char) : (shortest term).length ≤ term.length := by
  induction term using term_induction with
  | nil => simp [shortest]
  | last => simp [shortest]
  | escape escaped term ih =>
    simp only [shortest, List.length_cons]
    omega
  | percent term ih =>
    simp only [shortest, List.length_cons]
    omega
  | underscore term ih =>
    simp only [shortest, List.length_cons]
    omega
  | plain c term hc ih =>
    simp only [shortest_plain hc, List.length_cons]
    omega

/-- Only a term of plain characters is a text that its own pattern matches at the
shortest. -/
theorem plain_of_shortest_eq {term : List Char} (h : shortest term = term) : ∀ c ∈ term, Plain c := by
  induction term using term_induction with
  | nil => simp
  | last => exact absurd h (by simp [shortest])
  | escape escaped term ih =>
    have hlength := congrArg List.length h
    have hle := shortest_length_le term
    simp only [shortest, List.length_cons] at hlength
    omega
  | percent term ih =>
    have hlength := congrArg List.length h
    have hle := shortest_length_le term
    simp only [shortest, List.length_cons] at hlength
    omega
  | underscore term ih => exact absurd h (by simp [shortest])
  | plain c term hc ih =>
    rw [shortest_plain hc] at h
    intro d hd
    obtain rfl | hrest := List.mem_cons.mp hd
    · exact hc
    · exact ih (List.cons.inj h).2 d hrest

/-- A search pattern matches the texts that contain the term exactly if every
character of the term stands for itself. -/
theorem searchPattern_literal_iff (term : List Char) :
    (∀ text, like (searchPattern term) text = true ↔ term <:+: text) ↔ ∀ c ∈ term, Plain c := by
  constructor
  · intro hliteral
    have hwithin : term <:+: shortest term :=
      (hliteral (shortest term)).mp (like_percent.mpr ⟨_, List.suffix_rfl, like_shortest term⟩)
    have hlength : (shortest term).length ≤ term.length := shortest_length_le term
    exact plain_of_shortest_eq (hwithin.eq_of_length_le hlength).symm
  · intro hplain text
    exact like_searchPattern_iff hplain text

variable {ids : UuidSource}

/-- A list query that asks for a search term only. -/
def searchQuery (searchTerm : String) (withoutPassword withoutSensitiveData : Bool) : UserBuildParams where
  searchTerm := some searchTerm
  withoutPassword := withoutPassword
  withoutSensitiveData := withoutSensitiveData

/-- Whether a user meets a condition that a query builds. -/
def Matched (ids : UuidSource) (query : UserBuildParams) (user : UsersModel)
    (preference : Option UserPreferencesModel) : Prop :=
  ∃ condition ∈ buildWhereParams query, condition.holds ids user preference = true

theorem matched_searchQuery (searchTerm : String) (withoutPassword withoutSensitiveData : Bool) (user : UsersModel)
    (preference : Option UserPreferencesModel) :
    Matched ids (searchQuery searchTerm withoutPassword withoutSensitiveData) user preference ↔
      like (searchPattern searchTerm.toList) user.fullName.toList = true := by
  by_cases hempty : searchTerm = ""
  · subst hempty
    have hgiven : given (some "") = none := rfl
    have hall : like (searchPattern []) user.fullName.toList = true :=
      (like_searchPattern_iff (by simp) _).mpr List.nil_infix
    simp [Matched, searchQuery, buildWhereParams, hgiven, UserWhere.holds, equals, hall]
  · have hgiven := given_of_ne hempty
    simp [Matched, searchQuery, buildWhereParams, hgiven, UserWhere.holds, equals, TextCondition.holds,
      searchPattern]

/-- A search selects the users whose name contains the term, in every table, exactly
if no character of the term is a percent sign, an underscore or a backslash. -/
theorem search_selects_iff (searchTerm : String) (withoutPassword withoutSensitiveData : Bool) :
    (∀ (users : Table ids UsersModel) (preference : Option UserPreferencesModel), ∀ user ∈ users.rows,
      Matched ids (searchQuery searchTerm withoutPassword withoutSensitiveData) user preference ↔
        searchTerm.toList <:+: user.fullName.toList) ↔ ∀ c ∈ searchTerm.toList, Plain c := by
  rw [← searchPattern_literal_iff]
  constructor
  · intro hselects text
    let user : UsersModel := ({ fullName := some (String.ofList text) } : UserColumns).row Time.epoch (ids.hex 0)
    have hrow := hselects (Table.single user 0 rfl) none user (List.mem_singleton_self user)
    rw [matched_searchQuery] at hrow
    have hname : user.fullName.toList = text := String.toList_ofList
    rwa [hname] at hrow
  · intro hliteral users preference user _
    rw [matched_searchQuery]
    exact hliteral _

/-- A percent sign finds a user whose name is a letter. -/
theorem search_selects_other :
    ¬ ∀ (searchTerm : String), searchTerm ≠ "" →
      ∀ (users : Table UuidSource.counting UsersModel) (preference : Option UserPreferencesModel), ∀ user ∈ users.rows,
        Matched .counting (searchQuery searchTerm true true) user preference ↔
          searchTerm.toList <:+: user.fullName.toList := by
  intro hclaim
  let user : UsersModel := ({ fullName := some "a" } : UserColumns).row Time.epoch "0"
  have hrow := hclaim "%" (by simp) (Table.single user 0 rfl) none user (List.mem_singleton_self user)
  rw [matched_searchQuery] at hrow
  have hterm : "%".toList = ['%'] := by simp
  have hname : user.fullName.toList = ['a'] := by simp [user, UserColumns.row]
  rw [hterm, hname] at hrow
  have hwithin : ['%'] <:+: ['a'] := hrow.mp (by decide)
  exact absurd (hwithin.subset List.mem_cons_self) (by simp)

end node_backend.user_query
