import NodeBackend.User.Search

namespace node_backend.user_query

open js store
open node_backend.user_models

/-- The filters of a list query. -/
inductive Filter
  | id
  | email
  | document
  | docType
  | fu
  | phone
  | fullName
  | searchTerm
  deriving DecidableEq

/-- Whether a user meets one filter with a value. An identifier is met in any of its
spellings. -/
def Filter.Holds (ids : UuidSource) (user : UsersModel) (value : String) : Filter → Prop
  | id => ids.read value = some user.id
  | email => user.email = value
  | document => user.document = some value
  | docType => user.docType = some value
  | fu => user.fu = some value
  | phone => user.phone = some value
  | fullName => user.fullName = value
  | searchTerm => like (searchPattern value.toList) user.fullName.toList = true

/-- A text that is not empty. -/
abbrev FilledText : Type :=
  { text : String // text ≠ "" }

variable {ids : UuidSource}

/-- The filters that a query gives values to. -/
abbrev Filters : Type :=
  Filter → Option FilledText

def Filters.text (filters : Filters) (filter : Filter) : Option String :=
  (filters filter).map Subtype.val

/-- The query with these filters. What else it asks for is no filter. -/
def Filters.query (filters : Filters) (rest : UserBuildParams) : UserBuildParams :=
  { rest with
    searchTerm := filters.text .searchTerm
    selectSoftDeleted := false
    id := filters.text .id
    fullName := filters.text .fullName
    email := filters.text .email
    phone := filters.text .phone
    fu := filters.text .fu
    docType := filters.text .docType
    document := filters.text .document
    defaultTheme := none }

/-- A user that meets every filter. -/
def Filters.Satisfied (filters : Filters) (ids : UuidSource) (user : UsersModel) : Prop :=
  ∀ filter value, filters filter = some value → filter.Holds ids user value.val

/-- Filters none of which displaces another: an identifier comes alone, or with a
search term that every name meets, and a name comes without a search term. -/
def Filters.Separate (filters : Filters) : Prop :=
  (∀ id, filters .id = some id → ∀ filter value, filter ≠ .id → filters filter = some value →
    filter = .searchTerm ∧ ∀ c ∈ value.val.toList, c = '%') ∧
  (filters .id = none → filters .fullName = none ∨ filters .searchTerm = none)

@[simp] theorem given_text (filters : Filters) (filter : Filter) :
    given (filters.text filter) = filters.text filter := by
  rw [Filters.text]
  cases filters filter with
  | none => simp
  | some value => exact given_of_ne value.property

/-- With an identifier nothing else is asked for. -/
theorem matched_of_id {filters : Filters} (rest : UserBuildParams) {id : FilledText} (hid : filters .id = some id)
    (user : UsersModel) (preference : Option UserPreferencesModel) :
    Matched ids (filters.query rest) user preference ↔ ids.read id.val = some user.id := by
  have hgiven : given (some id.val) = some id.val := given_of_ne id.property
  simp [Matched, Filters.query, buildWhereParams, Filters.text, hid, hgiven, UserWhere.holds, equals]

theorem equals_text {filters : Filters} {filter : Filter} {column : Option String} :
    equals (filters.text filter) column = true ↔ ∀ value, filters filter = some value → column = some value.val := by
  rw [Filters.text, equals]
  cases filters filter <;> simp

/-- The condition that is built without an identifier. The name is to meet the search
term's pattern, where there is one, and to be the one asked for otherwise. -/
theorem exists_buildWhereParams {filters : Filters} (rest : UserBuildParams) (hid : filters .id = none) :
    ∃ nameCondition : Option TextCondition,
      buildWhereParams (filters.query rest) =
        [{ fullName := nameCondition, email := filters.text .email, phone := filters.text .phone
           fu := filters.text .fu, docType := filters.text .docType, document := filters.text .document }] ∧
      ∀ name, nameCondition.all (TextCondition.holds name) = true ↔
        (∀ value, filters .searchTerm = some value → like (searchPattern value.val.toList) name.toList = true) ∧
        (filters .searchTerm = none → ∀ value, filters .fullName = some value → name = value.val) := by
  have hnone : filters.text .id = none := by rw [Filters.text, hid, Option.map_none]
  cases hterm : filters .searchTerm with
  | none =>
    have htext : filters.text .searchTerm = none := by rw [Filters.text, hterm, Option.map_none]
    refine ⟨(filters.text .fullName).map .equal, ?_, ?_⟩
    · simp [buildWhereParams, Filters.query, hnone, htext]
    · intro name
      rw [Filters.text]
      cases filters .fullName <;> simp [TextCondition.holds]
  | some term =>
    have htext : filters.text .searchTerm = some term.val := by rw [Filters.text, hterm, Option.map_some]
    have hgiven := given_of_ne term.property
    refine ⟨some (.like ("%" ++ (term.val ++ "%"))), ?_, ?_⟩
    · simp [buildWhereParams, Filters.query, hnone, htext, hgiven]
    · intro name
      simp [TextCondition.holds, searchPattern]

/-- Without an identifier every filter is asked for, but for a name that comes with a
search term. -/
theorem matched_of_no_id {filters : Filters} {rest : UserBuildParams} (hid : filters .id = none) (user : UsersModel)
    (preference : Option UserPreferencesModel) :
    Matched ids (filters.query rest) user preference ↔
      ∀ filter value, filters filter = some value → (filter = .fullName → filters .searchTerm = none) →
        filter.Holds ids user value.val := by
  obtain ⟨nameCondition, hbuilt, hname⟩ := exists_buildWhereParams rest hid
  simp only [Matched, hbuilt, List.mem_singleton, exists_eq_left, UserWhere.holds, Bool.and_eq_true, equals_text, hname]
  constructor
  · intro h filter value hvalue hterm
    obtain ⟨⟨⟨⟨⟨⟨_, hsearch, hfullName⟩, hemail⟩, hphone⟩, hfu⟩, hdocType⟩, hdocument⟩ := h.1
    cases filter with
    | id =>
      rw [hid] at hvalue
      cases hvalue
    | email => exact Option.some.inj (hemail value hvalue)
    | document => exact hdocument value hvalue
    | docType => exact hdocType value hvalue
    | fu => exact hfu value hvalue
    | phone => exact hphone value hvalue
    | fullName => exact hfullName (hterm rfl) value hvalue
    | searchTerm => exact hsearch value hvalue
  · intro h
    have hfilter : ∀ filter, filter ≠ .fullName → ∀ value, filters filter = some value →
        filter.Holds ids user value.val :=
      fun filter hne value hvalue => h filter value hvalue fun heq => absurd heq hne
    refine ⟨⟨⟨⟨⟨⟨⟨by simp, ?_, ?_⟩, ?_⟩, ?_⟩, ?_⟩, ?_⟩, ?_⟩, by simp⟩
    · exact hfilter .searchTerm (by simp)
    · intro hterm value hvalue
      exact h .fullName value hvalue fun _ => hterm
    · intro value hvalue
      exact congrArg some (hfilter .email (by simp) value hvalue)
    · exact hfilter .phone (by simp)
    · exact hfilter .fu (by simp)
    · exact hfilter .docType (by simp)
    · exact hfilter .document (by simp)

/-- A term of percent signs matches every name, and no other term matches the empty
one. -/
theorem like_percents {term : List Char} (hpercent : ∀ c ∈ term, c = '%') (text : List Char) :
    like (term ++ ['%']) text = true := by
  induction term with
  | nil => exact like_last_percent text
  | cons c term ih =>
    rw [hpercent c List.mem_cons_self]
    exact like_percent.mpr ⟨text, List.suffix_rfl, ih fun d hd => hpercent d (List.mem_cons_of_mem c hd)⟩

theorem percents_of_like_nil {term : List Char} (h : like (term ++ ['%']) [] = true) : ∀ c ∈ term, c = '%' := by
  induction term using term_induction with
  | nil => simp
  | last => exact absurd h (by decide)
  | escape escaped term ih =>
    obtain ⟨rest, hrest, _⟩ := like_backslash.mp h
    cases hrest
  | percent term ih =>
    obtain ⟨rest, hsuffix, hrest⟩ := like_percent.mp h
    rw [List.suffix_nil.mp hsuffix] at hrest
    intro c hc
    obtain rfl | hmem := List.mem_cons.mp hc
    · rfl
    · exact ih hrest c hmem
  | underscore term ih =>
    obtain ⟨c, rest, hrest, _⟩ := like_underscore.mp h
    cases hrest
  | plain c term hc ih =>
    obtain ⟨rest, hrest, _⟩ := (like_plain hc).mp h
    cases hrest

theorem searchPattern_nil {term : List Char} (h : like (searchPattern term) [] = true) : ∀ c ∈ term, c = '%' := by
  obtain ⟨rest, hsuffix, hrest⟩ := like_percent.mp h
  rw [List.suffix_nil.mp hsuffix] at hrest
  exact percents_of_like_nil hrest

/-- A search term matches more than one name. -/
theorem exists_like_ne (term : List Char) (name : String) :
    ∃ other, other ≠ name ∧ like (searchPattern term) other.toList = true := by
  have hmatches : ∀ before, like (searchPattern term) (before ++ shortest term) = true := fun before =>
    like_percent.mpr ⟨shortest term, List.suffix_append before _, like_shortest term⟩
  by_cases hname : name = String.ofList (shortest term)
  · refine ⟨String.ofList ('a' :: shortest term), ?_, ?_⟩
    · rw [hname]
      intro heq
      have hlength := congrArg List.length (String.ofList_injective heq)
      simp at hlength
    · rw [String.toList_ofList]
      exact hmatches ['a']
  · refine ⟨String.ofList (shortest term), Ne.symm hname, ?_⟩
    rw [String.toList_ofList]
    exact hmatches []

/-- What separate filters are asked for is what they say. -/
theorem Filters.Separate.matched_iff {filters : Filters} (h : filters.Separate) (rest : UserBuildParams)
    (user : UsersModel) (preference : Option UserPreferencesModel) :
    Matched ids (filters.query rest) user preference ↔ filters.Satisfied ids user := by
  cases hid : filters .id with
  | some id =>
    rw [matched_of_id rest hid]
    constructor
    · intro hmatched filter value hvalue
      by_cases hfilter : filter = .id
      · subst hfilter
        cases hid.symm.trans hvalue
        exact hmatched
      · obtain ⟨rfl, hpercent⟩ := h.1 id hid filter value hfilter hvalue
        exact like_percent.mpr ⟨_, List.suffix_rfl, like_percents hpercent _⟩
    · intro hsatisfied
      exact hsatisfied .id id hid
  | none =>
    rw [matched_of_no_id hid]
    constructor
    · intro hmatched filter value hvalue
      refine hmatched filter value hvalue fun hname => ?_
      subst hname
      exact (h.2 hid).resolve_left (by simp [hvalue])
    · intro hsatisfied filter value hvalue _
      exact hsatisfied filter value hvalue

/-- A user with the values that the filters ask for, and a name. -/
def Filters.wanted (filters : Filters) (id fullName : String) : UsersModel :=
  ({ fullName := some fullName, email := filters.text .email, phone := filters.text .phone
     fu := filters.text .fu, docType := filters.text .docType, document := filters.text .document } : UserColumns).row
    Time.epoch id

/-- Filters that select what they say in every table, whatever its identifiers. -/
def Filters.Selects (filters : Filters) (rest : UserBuildParams) : Prop :=
  ∀ (ids : UuidSource) (users : Table ids UsersModel) (preference : Option UserPreferencesModel),
    ∀ user ∈ users.rows, Matched ids (filters.query rest) user preference ↔ filters.Satisfied ids user

/-- A user of nothing but an identifier meets no other filter, but for percent signs. -/
theorem Filters.Selects.alone {filters : Filters} {rest : UserBuildParams} (h : filters.Selects rest)
    {id : FilledText} (hid : filters .id = some id) {filter : Filter} {value : FilledText} (hfilter : filter ≠ .id)
    (hvalue : filters filter = some value) : filter = .searchTerm ∧ ∀ c ∈ value.val.toList, c = '%' := by
  let ids := UuidSource.startingWith id.val id.property
  let user : UsersModel := ({} : UserColumns).row Time.epoch id.val
  have hknown : user.id = ids.hex 0 := (UuidSource.startingWith_zero id.val id.property).symm
  have hmatched : Matched ids (filters.query rest) user none :=
    (matched_of_id rest hid user none).mpr (readLiterally_of_ne id.property)
  have hrow := h ids (Table.single user 0 hknown) none user (List.mem_singleton_self user)
  have hholds : filter.Holds ids user value.val := hrow.mp hmatched filter value hvalue
  cases filter with
  | id => exact absurd rfl hfilter
  | email => exact absurd (Eq.symm hholds) value.property
  | document => cases hholds
  | docType => cases hholds
  | fu => cases hholds
  | phone => cases hholds
  | fullName => exact absurd (Eq.symm hholds) value.property
  | searchTerm =>
    have hname : user.fullName.toList = [] := by simp [user, UserColumns.row]
    rw [Filter.Holds, hname] at hholds
    exact ⟨rfl, searchPattern_nil hholds⟩

theorem Filters.Selects.name_or_term {filters : Filters} {rest : UserBuildParams} (h : filters.Selects rest)
    (hid : filters .id = none) : filters .fullName = none ∨ filters .searchTerm = none := by
  cases hname : filters .fullName with
  | none => exact Or.inl rfl
  | some name =>
    cases hterm : filters .searchTerm with
    | none => exact Or.inr rfl
    | some term =>
      obtain ⟨other, hne, hlike⟩ := exists_like_ne term.val.toList name.val
      let user := filters.wanted (UuidSource.counting.hex 0) other
      have hrow := h .counting (Table.single user 0 rfl) none user (List.mem_singleton_self user)
      have hmatched : Matched .counting (filters.query rest) user none := by
        rw [matched_of_no_id hid]
        intro filter value hvalue hfilter
        have htext : filters.text filter = some value.val := by rw [Filters.text, hvalue, Option.map_some]
        cases filter with
        | id =>
          rw [hid] at hvalue
          cases hvalue
        | email =>
          change (filters.text .email).getD "" = value.val
          rw [htext, Option.getD_some]
        | document => exact htext
        | docType => exact htext
        | fu => exact htext
        | phone => exact htext
        | fullName =>
          rw [hterm] at hfilter
          cases hfilter rfl
        | searchTerm =>
          cases hterm.symm.trans hvalue
          exact hlike
      exact absurd (hrow.mp hmatched .fullName name hname) hne

/-- The conditions of a query select the users that meet every filter, in every
table, exactly if no filter displaces another. Adding filters never adds users to
those that separate filters select. -/
theorem filters_select_iff (filters : Filters) (rest : UserBuildParams) :
    (filters.Selects rest ↔ filters.Separate) ∧
    (filters.Separate → ∀ fewer : Filters,
      (∀ filter value, fewer filter = some value → filters filter = some value) →
      ∀ (ids : UuidSource) user preference,
        Matched ids (filters.query rest) user preference → Matched ids (fewer.query rest) user preference) := by
  refine ⟨⟨?_, ?_⟩, ?_⟩
  · intro h
    exact ⟨fun id hid filter value hfilter hvalue => h.alone hid hfilter hvalue, h.name_or_term⟩
  · intro h ids users preference user _
    exact h.matched_iff rest user preference
  · intro h fewer hfewer ids user preference hmatched
    have hsatisfied := (h.matched_iff rest user preference).mp hmatched
    cases hid : fewer .id with
    | some id =>
      rw [matched_of_id rest hid]
      exact hsatisfied .id id (hfewer .id id hid)
    | none =>
      rw [matched_of_no_id hid]
      intro filter value hvalue _
      exact hsatisfied filter value (hfewer filter value hvalue)

/-- The identifier of one user and the email address of another. -/
def mixedFilters : Filters
  | .id => some ⟨"0", by simp⟩
  | .email => some ⟨"b", by simp⟩
  | _ => none

/-- An identifier selects its user under another email address. -/
theorem filters_select_other :
    ¬ ∀ (filters : Filters) (rest : UserBuildParams) (users : Table UuidSource.counting UsersModel)
      (preference : Option UserPreferencesModel), ∀ user ∈ users.rows,
        Matched .counting (filters.query rest) user preference ↔ filters.Satisfied .counting user := by
  intro hclaim
  let user : UsersModel := ({ email := some "a" } : UserColumns).row Time.epoch "0"
  let rest : UserBuildParams := { withoutPassword := true, withoutSensitiveData := true }
  have hrow := hclaim mixedFilters rest (Table.single user 0 rfl) none user (List.mem_singleton_self user)
  have hmatched : Matched .counting (mixedFilters.query rest) user none :=
    (matched_of_id rest (by rfl) user none).mpr rfl
  have hemail : user.email = "b" := hrow.mp hmatched .email ⟨"b", by simp⟩ rfl
  exact absurd hemail (by simp [user, UserColumns.row])

end node_backend.user_query
