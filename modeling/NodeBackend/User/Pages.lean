import NodeBackend.User.Listing

namespace node_backend.user_pages

open js store program
open node_backend.exceptions node_backend.user_database node_backend.user_models node_backend.user_query
open node_backend.user_entity node_backend.user_repository

variable {ids : UuidSource} {engine : Engine} {time : Time} {query : UserBuildParams} {withoutSensitiveData : Bool}
  {db : Database ids} {found : List UserValues} {count : Number}

/-- An answer to a list query is a part of the users that match, and a count of them. -/
theorem answer_cases
    (h : (exec engine time (.findUsers (buildedQuery query withoutSensitiveData)) db).1 = .ok (found, count)) :
    Readable ids query ∧ ∃ users, found.length = users.length ∧
      engine.cut (buildPaginationParams query) (engine.arrange (listOrder query) (matchingUsers query db)) =
        .ok (users, count) := by
  cases hrefusal : (Call.findUsers (buildedQuery query withoutSensitiveData)).refusal ids with
  | some failure =>
    rw [exec_of_refused hrefusal] at h
    cases h
  | none =>
    rw [exec_of_readable hrefusal] at h
    refine ⟨(readable_iff query withoutSensitiveData).mp hrefusal, ?_⟩
    obtain ⟨⟨users, counted⟩, hcut, hpart⟩ := exists_of_map_eq_ok h
    cases hpart
    exact ⟨users, List.length_map _, hcut⟩

/-- A list call that the database answers gives an entity for each row, and hands the
count on. -/
theorem exists_list (now : Time)
    (h : (exec engine time (.findUsers (buildedQuery query withoutSensitiveData)) db).1 = .ok (found, count)) :
    ∃ result, Program.run (exec engine time) (list now query withoutSensitiveData) db = (.ok result, db) ∧
      result.content.length = found.length ∧ result.totalItems = count ∧
      result.totalPages = pageCount count (query.limit.getD .one) := by
  obtain ⟨hread, users, hlength, hcut⟩ := answer_cases h
  obtain ⟨result, hrun, hshown, hitems, hpages⟩ := run_list time now withoutSensitiveData hread hcut
  exact ⟨result, hrun, hshown.length_eq.symm.trans hlength.symm, hitems, hpages⟩

/-- The page count of a list call is a positive whole number, and one where the content
holds as many users as are counted, exactly if there is one page, or pages are counted
and the database gives another number of users than it counts. -/
theorem list_pages_iff (now : Time)
    (h : (exec engine time (.findUsers (buildedQuery query withoutSensitiveData)) db).1 = .ok (found, count)) :
    ∃ result, Program.run (exec engine time) (list now query withoutSensitiveData) db = (.ok result, db) ∧
      ((result.totalPages.Positive ∧
          (Rounding.even.ofNat result.content.length = result.totalItems → result.totalPages = .one)) ↔
        CountsOnePage count (query.limit.getD .one) ∨
          CountsPages count (query.limit.getD .one) ∧ Rounding.even.ofNat found.length ≠ count) := by
  obtain ⟨result, hrun, hcontent, hitems, hpages⟩ := exists_list now h
  refine ⟨result, hrun, ?_⟩
  obtain ⟨hpositive, hone⟩ := pageCount_iff count (query.limit.getD .one)
  rw [hcontent, hitems, hpages, hpositive, hone]
  constructor
  · intro hmeaningful
    by_cases hall : Rounding.even.ofNat found.length = count
    · exact Or.inl (hmeaningful.2 hall)
    · exact Or.inr ⟨hmeaningful.1, hall⟩
  · rintro (hsingle | ⟨hcounts, hsome⟩)
    · exact ⟨hsingle.countsPages, fun _ => hsingle⟩
    · exact ⟨hcounts, fun hall => absurd hall hsome⟩

/-- A list of everybody, without a limit. -/
def everybody : UserBuildParams where
  withoutPassword := true
  withoutSensitiveData := true

theorem readable_everybody : Readable UuidSource.counting everybody := by
  intro text htext
  cases htext

/-- The two users as a list of everybody returns them. -/
def bothValues : List UserValues :=
  [olderUser, newerUser].map ((buildedQuery everybody true).load twoUsers.preferences)

theorem answer_everybody : (exec Engine.stable Time.epoch (.findUsers (buildedQuery everybody true)) twoUsers).1 =
    .ok (bothValues, Rounding.even.ofNat 2) := rfl

theorem list_pages_iff_everybody :
    ∃ result, Program.run (exec Engine.stable Time.epoch) (list Time.epoch everybody true) twoUsers =
        (.ok result, twoUsers) ∧
      ((result.totalPages.Positive ∧
          (Rounding.even.ofNat result.content.length = result.totalItems → result.totalPages = .one)) ↔
        CountsOnePage (Rounding.even.ofNat 2) .one ∨
          CountsPages (Rounding.even.ofNat 2) .one ∧
            Rounding.even.ofNat bothValues.length ≠ Rounding.even.ofNat 2) :=
  list_pages_iff Time.epoch answer_everybody

/-- With a limit of zero, two users make infinitely many pages. -/
theorem list_pages_infinite :
    ¬ ∀ (engine : Engine) (query : UserBuildParams) (db : Database UuidSource.counting) (result : PaginationInterface),
      Program.run (exec engine Time.epoch) (list Time.epoch query true) db = (.ok result, db) →
        result.totalPages.Positive ∧
          (Rounding.even.ofNat result.content.length = result.totalItems → result.totalPages = .one) := by
  intro hclaim
  let query : UserBuildParams := { everybody with limit := some .zero }
  have hread : Readable UuidSource.counting query := readable_everybody
  have hcut : Engine.stable.cut (buildPaginationParams query)
      (Engine.stable.arrange (listOrder query) (matchingUsers query twoUsers)) =
        .ok ([olderUser, newerUser], Rounding.even.ofNat 2) := rfl
  obtain ⟨result, hrun, _, _, hpages⟩ := run_list Time.epoch Time.epoch true hread hcut
  have hcount : result.totalPages = .infinity false := by
    rw [hpages, Rounding.even.ofNat_of_lt (by simp)]
    exact pageCount_infinity (by simp [Double.ofNat]) (Or.inl (by simp [query, Double.zero, Double.ofNat]))
  have hpositive := (hclaim Engine.stable query twoUsers result hrun).1
  rw [hcount] at hpositive
  exact Number.not_positive_infinity false hpositive

/-- A list query that filters by soft-deletion only. -/
def unfiltered (limit page : Option Double) (order : Option ListOrder) (sortBy : Option SortBy)
    (selectSoftDeleted : Bool) : UserBuildParams where
  limit := limit
  page := page
  order := order
  sortBy := sortBy
  selectSoftDeleted := selectSoftDeleted
  withoutPassword := true
  withoutSensitiveData := true

/-- The users that the flag stands for: those soft-deleted, or those live. -/
def flagged (selectSoftDeleted : Bool) (db : Database ids) : List UsersModel :=
  db.users.rows.filter fun user => user.live != selectSoftDeleted

/-- The query for soft-deleted users is about nobody, the other one about all live
users. -/
theorem matchingUsers_unfiltered (limit page : Option Double) (order : Option ListOrder) (sortBy : Option SortBy)
    (selectSoftDeleted : Bool) (db : Database ids) :
    matchingUsers (unfiltered limit page order sortBy selectSoftDeleted) db =
      if selectSoftDeleted then [] else flagged false db := by
  have hfilters : (buildParams (unfiltered limit page order sortBy selectSoftDeleted)).filters =
      [{ softDeleted := selectSoftDeleted }] := rfl
  unfold matchingUsers FindOptions.matching flagged
  rw [hfilters]
  cases selectSoftDeleted with
  | true =>
    rw [if_pos rfl, List.filter_eq_nil_iff]
    intro user _
    cases hdeleted : user.deletedAt <;> simp [UserWhere.holds, UsersModel.live, hdeleted]
  | false => simp [UserWhere.holds, equals]

/-- A query for all users, or for a whole number of them after a whole number of
others. -/
def Whole (query : UserBuildParams) : Prop :=
  ∀ take ∈ (buildPaginationParams query).take, ∀ skip ∈ (buildPaginationParams query).skip,
    ∃ (limit first : Nat) (hlimit : limit < 2 ^ 53) (hfirst : first < 2 ^ 53),
      take = .ofNat limit hlimit ∧ skip = .finite (.ofNat first hfirst)

/-- With whole numbers all users that match are counted. -/
theorem Whole.count_eq {query : UserBuildParams} (h : Whole query) {rows users : List UsersModel}
    (hcut : engine.cut (buildPaginationParams query) rows = .ok (users, count)) :
    count = Rounding.even.ofNat rows.length := by
  unfold Paging.cut at hcut
  unfold Whole at h
  split at hcut
  · next take skip htake hskip =>
    obtain ⟨limit, first, hlimit, hfirst, rfl, rfl⟩ := h take htake skip hskip
    rw [engine.slice_whole] at hcut
    cases hcut
    rfl
  · cases hcut
    rfl

theorem ofNat_eq_zero_iff {n : Nat} : Rounding.even.ofNat n = Rounding.even.ofNat 0 ↔ n = 0 := by
  refine ⟨fun h => ?_, fun h => congrArg _ h⟩
  by_contra hn
  have hone : 1 ≤ Rounding.even.nearest n := by
    apply Rounding.even.le_nearest Rounding.representable_one
    exact_mod_cast Nat.one_le_iff_ne_zero.mpr hn
  rw [Rounding.even.ofNat_of_lt (n := 0) (by simp)] at h
  obtain hlarge | hsmall := le_or_gt overflow (n : ℚ)
  · rw [Rounding.ofNat, Rounding.number_of_le _ hlarge] at h
    cases h
  · rw [Rounding.ofNat, Rounding.number_of_lt _ hsmall] at h
    have hzero : Rounding.even.nearest n = (0 : Nat) := congrArg Double.magnitude (Number.finite.inj h)
    rw [hzero] at hone
    norm_num at hone

/-- A list call counts the users that the flag stands for exactly if it asks for live
users, or nobody is soft-deleted. Where it asks for fractions of users, that is up to
what the database counts. -/
theorem list_counts_iff (now : Time) {limit page : Option Double} {order : Option ListOrder} {sortBy : Option SortBy}
    {selectSoftDeleted : Bool}
    (h : (exec engine time (.findUsers (buildedQuery (unfiltered limit page order sortBy selectSoftDeleted)
      withoutSensitiveData)) db).1 = .ok (found, count)) :
    ∃ result, Program.run (exec engine time)
        (list now (unfiltered limit page order sortBy selectSoftDeleted) withoutSensitiveData) db = (.ok result, db) ∧
      (result.totalItems = Rounding.even.ofNat (flagged selectSoftDeleted db).length ↔
        Whole (unfiltered limit page order sortBy selectSoftDeleted) ∧
            (selectSoftDeleted = true → ∀ user ∈ db.users.rows, user.live = true) ∨
          ¬ Whole (unfiltered limit page order sortBy selectSoftDeleted) ∧
            count = Rounding.even.ofNat (flagged selectSoftDeleted db).length) := by
  obtain ⟨result, hrun, _, hitems, _⟩ := exists_list now h
  refine ⟨result, hrun, ?_⟩
  obtain ⟨_, users, _, hcut⟩ := answer_cases h
  rw [hitems]
  by_cases hwhole : Whole (unfiltered limit page order sortBy selectSoftDeleted)
  · have hall := hwhole.count_eq hcut
    rw [(engine.perm _ _).length_eq, matchingUsers_unfiltered] at hall
    simp only [hwhole, true_and, not_true_eq_false, false_and, or_false, hall]
    cases selectSoftDeleted with
    | true =>
      rw [if_pos rfl, List.length_nil, eq_comm, ofNat_eq_zero_iff, List.length_eq_zero_iff, flagged,
        List.filter_eq_nil_iff]
      simp
    | false => simp
  · simp [hwhole]

theorem answer_softDeleted : (exec Engine.stable Time.epoch
    (.findUsers (buildedQuery (unfiltered none none none none true) true)) twoUsers).1 =
      .ok ([], Rounding.even.ofNat 0) := rfl

theorem list_counts_iff_twoUsers :
    ∃ result, Program.run (exec Engine.stable Time.epoch)
        (list Time.epoch (unfiltered none none none none true) true) twoUsers = (.ok result, twoUsers) ∧
      (result.totalItems = Rounding.even.ofNat (flagged true twoUsers).length ↔
        Whole (unfiltered none none none none true) ∧ (true = true → ∀ user ∈ twoUsers.users.rows, user.live = true) ∨
          ¬ Whole (unfiltered none none none none true) ∧
            Rounding.even.ofNat 0 = Rounding.even.ofNat (flagged true twoUsers).length) :=
  list_counts_iff Time.epoch answer_softDeleted

/-- One soft-deleted user. -/
def deletedUser : UsersModel := olderUser.softDelete Time.epoch

def oneDeleted : Database UuidSource.counting where
  users := Table.single deletedUser 0 rfl
  preferences := Table.empty
  refers := by simp [Refers, Table.empty]

/-- The query for soft-deleted users misses the one there is. -/
theorem list_counts_nobody :
    ¬ ∀ (selectSoftDeleted : Bool) (db : Database UuidSource.counting) (result : PaginationInterface),
      Program.run (exec Engine.stable Time.epoch)
          (list Time.epoch (unfiltered none none none none selectSoftDeleted) true) db = (.ok result, db) →
        result.totalItems = Rounding.even.ofNat (flagged selectSoftDeleted db).length := by
  intro hclaim
  let query := unfiltered none none none none true
  have hread : Readable UuidSource.counting query := readable_everybody
  have hcut : Engine.stable.cut (buildPaginationParams query)
      (Engine.stable.arrange (listOrder query) (matchingUsers query oneDeleted)) =
        .ok ([], Rounding.even.ofNat 0) := rfl
  obtain ⟨result, hrun, _, hitems, _⟩ := run_list Time.epoch Time.epoch true hread hcut
  have hcounted := hclaim true oneDeleted result hrun
  have hone : (flagged true oneDeleted).length = 1 := rfl
  rw [hitems, hone, eq_comm, ofNat_eq_zero_iff] at hcounted
  cases hcounted

end node_backend.user_pages
