import NodeBackend.User.Secrecy

namespace node_backend.user_query

open js store
open node_backend.user_models node_backend.user_preference_entity

/-- A text that meets the pattern of a LIKE. -/
def likeSample : List Char → List Char
  | [] => []
  | '\\' :: escaped :: pattern => escaped :: likeSample pattern
  | '%' :: pattern => likeSample pattern
  | '_' :: pattern => '_' :: likeSample pattern
  | c :: pattern => c :: likeSample pattern

theorem like_likeSample (pattern : List Char) : like pattern (likeSample pattern) = true := by
  induction pattern using likeSample.induct with
  | case1 => rfl
  | case2 escaped pattern ih => simp [likeSample, like, ih]
  | case3 pattern ih =>
    rw [likeSample, like, List.any_eq_true]
    exact ⟨likeSample pattern, by simp, ih⟩
  | case4 pattern ih => simp [likeSample, like, ih]
  | case5 c pattern hbackslash hpercent hunderscore ih => simp [likeSample, like, ih]

end node_backend.user_query

namespace node_backend.user_requests

open js store program
open node_backend.exceptions node_backend.user_database node_backend.user_models node_backend.user_query
open node_backend.user_entity node_backend.user_preference_entity node_backend.user_repository
open node_backend.user_service node_backend.user_specs node_backend.user_usecases

variable {ids : UuidSource} {db db' : Database ids} {query : UserBuildParams}

/-- The columns that a list does not select are hidden. -/
def sensitiveVeil : Veil where
  hide := fun row => { row with password := "", phone := none, document := none }
  id := fun _ => rfl
  email := fun _ => rfl
  live := fun _ => rfl
  change := by
    intro columns now a b hab
    simp only [UsersModel.mk.injEq] at hab
    simp [UserColumns.change, hab]
  softDelete := by
    intro now a b hab
    simp only [UsersModel.mk.injEq] at hab
    simp [UsersModel.softDelete, hab]

/-- The query asks for no hidden column, or for users that there are none of. -/
def Harmless (query : UserBuildParams) : Prop :=
  given query.id ≠ none ∨ (given query.phone = none ∧ given query.document = none) ∨ query.selectSoftDeleted = true ∨
    ∃ theme ∈ given query.defaultTheme, ¬ IsTheme theme

/-- How many of so many rows a database gives, and its count of them. -/
def outcome (paging : Paging) (options : PaginationOptions) (total : Nat) : Except Failure (Nat × Number) :=
  match options.take, options.skip with
  | some take, some skip => (paging.slice take skip total).map fun slice =>
      (min slice.taken (total - slice.skipped), slice.count)
  | _, _ => .ok (total, Rounding.even.ofNat total)

/-- A failure of the database as a list throws it. -/
def listFailure (failure : Failure) : Failure :=
  caughtError failure.asInternal

/-- The database answers the limit and the page of the query alike, however many users
match. There is one at most with a given e-mail. -/
def AnswersAlike (paging : Paging) (query : UserBuildParams) : Prop :=
  ∀ total, (given query.email ≠ none → total ≤ 1) →
    (outcome paging (buildPaginationParams query) total).mapError listFailure =
      (outcome paging (buildPaginationParams query) 0).mapError listFailure

/-- The condition of a query that gives no identifier. -/
def listWhere (query : UserBuildParams) : UserWhere where
  softDeleted := query.selectSoftDeleted
  email := given query.email
  document := given query.document
  docType := given query.docType
  fu := given query.fu
  phone := given query.phone
  fullName := match given query.searchTerm with
    | some searchTerm => some (.like ("%" ++ (searchTerm ++ "%")))
    | none => (given query.fullName).map .equal
  defaultTheme := (given query.defaultTheme).map fun theme => ⟨themeValues.map ThemesEnum.text, theme⟩

theorem buildedQuery_filters_of_id {id : String} (h : given query.id = some id) :
    (buildedQuery query true).filters = [{ softDeleted := query.selectSoftDeleted, id := some id }] := by
  change buildWhereParams _ = _
  unfold buildWhereParams
  simp only [h]

theorem buildedQuery_filters (h : given query.id = none) :
    (buildedQuery query true).filters = [listWhere query] := by
  change buildWhereParams _ = _
  unfold buildWhereParams
  simp only [h]
  rfl

/-- A condition that names no hidden column does not look at one. -/
theorem blind_of_where {options : FindOptions} {condition : UserWhere} (hfilters : options.filters = [condition])
    (hphone : condition.phone = none) (hdocument : condition.document = none) (hselect : options.select = {}) :
    Blind sensitiveVeil options where
  filters := by
    intro other hother ids row preference
    rw [hfilters] at hother
    cases List.mem_singleton.mp hother
    unfold UserWhere.holds
    rw [hphone, hdocument]
    rfl
  load := by
    intro row preference
    rw [hselect]
    rfl

/-- A theme that is none, or the soft-deleted users, are what no live user has. -/
theorem matching_eq_nil (hid : given query.id = none)
    (h : query.selectSoftDeleted = true ∨ ∃ theme ∈ given query.defaultTheme, ¬ IsTheme theme) (db : Database ids) :
    (buildedQuery query true).matching db.users db.preferences = [] := by
  apply List.eq_nil_iff_forall_not_mem.mpr
  intro user huser
  obtain ⟨_, hlive, hholds⟩ := (mem_matching (buildedQuery_filters hid)).mp huser
  unfold UserWhere.holds at hholds
  simp only [Bool.and_eq_true] at hholds
  obtain ⟨⟨⟨⟨⟨⟨⟨⟨hdeleted, _⟩, _⟩, _⟩, _⟩, _⟩, _⟩, _⟩, htheme⟩ := hholds
  obtain hsoft | ⟨theme, hgiven, hnone⟩ := h
  · unfold UsersModel.live at hlive
    cases hdeletedAt : user.deletedAt <;> simp [listWhere, hsoft, hdeletedAt] at hdeleted hlive
  · simp only [listWhere, Option.mem_def.mp hgiven, Option.map_some, Option.all_some, Option.any_eq_true,
      Bool.and_eq_true, beq_iff_eq] at htheme
    obtain ⟨text, htext, _, rfl⟩ := htheme
    obtain ⟨value, _, hvalue⟩ := Option.map_eq_some_iff.mp htext
    exact hnone ⟨value, hvalue⟩

theorem listUsers_only (clock : Clock) (query : UserBuildParams) :
    (listUsers clock query).Only fun call => call = .findUsers (buildedQuery query true) := by
  refine Program.Only.tryCatch
    (Program.Only.tryCatch (Program.Only.bind (Program.only_perform rfl) ?_) fun _ => trivial)
    fun _ => trivial
  exact fun _ => (Program.only_ofExcept _).bind fun _ => trivial

/-- The query of a harmless list is answered alike on alike databases. -/
theorem findUsers_alike (hquery : Harmless query) {engine : Engine} (hengine : ArrangesBlind sensitiveVeil engine)
    (h : Alike sensitiveVeil db db') (now : Time) :
    (execRead engine now (.findUsers (buildedQuery query true)) db).1 =
      (execRead engine now (.findUsers (buildedQuery query true)) db').1 := by
  cases hid : given query.id with
  | some id => exact (blind_of_where (buildedQuery_filters_of_id hid) rfl rfl rfl).findUsers hengine h now
  | none =>
    obtain hgiven | ⟨hphone, hdocument⟩ | hnobody := hquery
    · exact absurd hid hgiven
    · exact (blind_of_where (buildedQuery_filters hid) hphone hdocument rfl).findUsers hengine h now
    · have hnothing : ∀ other : Database ids, engine.arrange (buildedQuery query true).order
          ((buildedQuery query true).matching other.users other.preferences) = [] := by
        intro other
        rw [matching_eq_nil hid hnobody other]
        exact (engine.perm _ []).eq_nil
      refine cut_map engine.toPaging _ ?_
      rw [hnothing, hnothing]
      rfl

theorem list_alike_of_harmless (hquery : Harmless query) {world : World}
    (hengine : ∀ n, ArrangesBlind sensitiveVeil (world.engine n)) (h : Alike sensitiveVeil db db') (clock : Clock) :
    (run world (listUsers clock query) db).1 = (run world (listUsers clock query) db').1 := by
  refine ((listUsers_only clock query).runFrom_related (R := Alike sensitiveVeil)
    (fun n call s s' hcall hs => ?_) 0 h).1
  subst hcall
  unfold World.exec
  cases world.fault n with
  | some failure => exact ⟨rfl, hs⟩
  | none =>
    unfold user_database.exec
    cases (Call.findUsers (buildedQuery query true)).refusal ids with
    | some failure => exact ⟨rfl, hs⟩
    | none => exact ⟨findUsers_alike hquery (hengine n) hs _, hs⟩

theorem cut_outcome (paging : Paging) (options : PaginationOptions) (rows : List UsersModel) :
    (paging.cut options rows).map (fun found => (found.1.length, found.2)) = outcome paging options rows.length := by
  unfold Paging.cut outcome
  cases options.take with
  | none => rfl
  | some take =>
    cases options.skip with
    | none => rfl
    | some skip =>
      change ((paging.slice take skip rows.length).map _).map _ = (paging.slice take skip rows.length).map _
      cases paging.slice take skip rows.length with
      | error failure => rfl
      | ok slice => exact congrArg Except.ok (Prod.ext (by simp) rfl)

/-- Of no rows none is given. -/
theorem outcome_zero {paging : Paging} {options : PaginationOptions} {answer : Nat × Number}
    (h : outcome paging options 0 = .ok answer) : answer.1 = 0 := by
  unfold outcome at h
  split at h
  · obtain ⟨slice, _, rfl⟩ := exists_of_map_eq_ok h
    simp
  · cases h
    rfl

section result

/-- The page that a list makes of what it finds. -/
def listed (clock : Clock) (query : UserBuildParams) (preferences : Table ids UserPreferencesModel)
    (found : List UsersModel × Number) : PaginationInterface where
  content := found.1.map fun user => shownUser user (buildedQuery query true).select
    ((joined preferences user.id).elim (emptyPreference (clock 0) user.id) fun row => shownPreference row none)
  pageNumber := query.page.getD .zero
  pageSize := found.1.length
  totalPages := pageCount found.2 (query.limit.getD .one)
  totalItems := found.2

/-- The users that match, in the order in which the database finds them. -/
def arranged (world : World) (query : UserBuildParams) (db : Database ids) : List UsersModel :=
  (world.engine 0).arrange (listOrder query) (matchingUsers query db)

theorem arranged_length (world : World) (query : UserBuildParams) (db : Database ids) :
    (arranged world query db).length = (matchingUsers query db).length :=
  ((world.engine 0).perm _ _).length_eq

theorem readable_of_none (h : given query.id = none) : Readable ids query := by
  intro text htext
  rw [h] at htext
  cases htext

theorem run_listUsers {world : World} (hfault : world.fault 0 = none) (clock : Clock) (hid : given query.id = none)
    (db : Database ids) :
    (run world (listUsers clock query) db).1 =
      (((world.engine 0).cut (buildPaginationParams query) (arranged world query db)).map
        (listed clock query db.preferences)).mapError listFailure := by
  have hexec : world.exec 0 (.findUsers (buildedQuery query true)) db =
      (((world.engine 0).cut (buildPaginationParams query) (arranged world query db)).map fun found =>
        (found.1.map ((buildedQuery query true).load db.preferences), found.2), db) := by
    unfold World.exec
    rw [hfault]
    exact exec_of_readable ((readable_iff query true).mpr (readable_of_none hid))
  have hrun : run world (listUsers clock query) db = Program.runFrom world.exec 1
      (user_service.guarded (abstract_repository.guarded
        (Program.ofExcept (world.exec 0 (.findUsers (buildedQuery query true)) db).1 >>=
          fun (found : List UserValues × Number) =>
            abstract_repository.built (found.1.mapM (toDomainEntity (clock 0))) >>= fun content => pure
              { content := content
                pageNumber := query.page.getD .zero
                pageSize := found.1.length
                totalPages := pageCount found.2 (query.limit.getD .one)
                totalItems := found.2 })))
      (world.exec 0 (.findUsers (buildedQuery query true)) db).2 := rfl
  rw [hrun, hexec]
  cases (world.engine 0).cut (buildPaginationParams query) (arranged world query db) with
  | error failure => rfl
  | ok found =>
    obtain ⟨users, count⟩ := found
    change (Program.runFrom world.exec 1 (user_service.guarded (abstract_repository.guarded
      (abstract_repository.built ((users.map ((buildedQuery query true).load db.preferences)).mapM
        (toDomainEntity (clock 0))) >>= fun content => pure _))) db).1 = _
    rw [mapM_load]
    refine congrArg Except.ok ?_
    simp only [listed, List.length_map]
    rfl

theorem run_listUsers_fault {world : World} {failure : Failure} (hfault : world.fault 0 = some failure) (clock : Clock)
    (db : Database ids) : (run world (listUsers clock query) db).1 = .error (listFailure failure) := by
  have hexec : world.exec 0 (.findUsers (buildedQuery query true)) db = (.error failure, db) := by
    unfold World.exec
    rw [hfault]
  change (Program.runFrom world.exec 1 (user_service.guarded (abstract_repository.guarded
    (Program.ofExcept (world.exec 0 (.findUsers (buildedQuery query true)) db).1 >>= _))) _).1 = _
  rw [hexec]
  rfl

/-- A query that the database answers alike for all numbers of users gets the same answer
on all tables, and shows nobody. -/
theorem run_of_answersAlike {world : World} (hfault : world.fault 0 = none) (clock : Clock)
    (hid : given query.id = none) (h : AnswersAlike (world.engine 0).toPaging query) (db : Database ids)
    (hemail : given query.email ≠ none → (matchingUsers query db).length ≤ 1) :
    (run world (listUsers clock query) db).1 =
      ((outcome (world.engine 0).toPaging (buildPaginationParams query) 0).map fun answer =>
        listed clock query (Table.empty : Table ids UserPreferencesModel) ([], answer.2)).mapError listFailure := by
  have hsame := h _ hemail
  rw [← arranged_length world, ← cut_outcome] at hsame
  rw [run_listUsers hfault clock hid]
  cases hnobody : outcome (world.engine 0).toPaging (buildPaginationParams query) 0 with
  | error failure =>
    rw [hnobody] at hsame
    cases hcut : (world.engine 0).cut (buildPaginationParams query) (arranged world query db) with
    | error other =>
      rw [hcut] at hsame
      exact congrArg Except.error (Except.error.inj hsame)
    | ok found =>
      rw [hcut] at hsame
      cases hsame
  | ok answer =>
    rw [hnobody] at hsame
    cases hcut : (world.engine 0).cut (buildPaginationParams query) (arranged world query db) with
    | error other =>
      rw [hcut] at hsame
      cases hsame
    | ok found =>
      rw [hcut] at hsame
      obtain ⟨users, count⟩ := found
      cases Except.ok.inj hsame
      obtain rfl : users = [] := List.length_eq_zero_iff.mp (outcome_zero hnobody)
      rfl

/-- The sizes of a page tell how the database answered. -/
theorem run_sizes {world : World} (hfault : world.fault 0 = none) (clock : Clock) (hid : given query.id = none)
    (db : Database ids) :
    ((run world (listUsers clock query) db).1.map fun page => (page.content.length, page.totalItems)) =
      (outcome (world.engine 0).toPaging (buildPaginationParams query)
        (matchingUsers query db).length).mapError listFailure := by
  rw [run_listUsers hfault clock hid, ← arranged_length world, ← cut_outcome]
  cases (world.engine 0).cut (buildPaginationParams query) (arranged world query db) with
  | error failure => rfl
  | ok found => exact congrArg Except.ok (Prod.ext (List.length_map _) rfl)

/-- A given e-mail is that of one user at most. -/
theorem matchingUsers_length_le (hid : given query.id = none) (hemail : given query.email ≠ none) (db : Database ids) :
    (matchingUsers query db).length ≤ 1 := by
  obtain ⟨email, hgiven⟩ := Option.ne_none_iff_exists'.mp hemail
  have hnodup : (matchingUsers query db).Nodup := (List.Nodup.of_map _ db.users.distinct).filter _
  have hsame : ∀ user ∈ matchingUsers query db, user ∈ db.users.rows ∧ Record.unique user = some email := by
    intro user huser
    obtain ⟨hmem, _, hholds⟩ := (mem_matching (buildedQuery_filters hid)).mp huser
    unfold UserWhere.holds at hholds
    simp only [Bool.and_eq_true] at hholds
    obtain ⟨⟨⟨⟨⟨⟨_, hequal⟩, _⟩, _⟩, _⟩, _⟩, _⟩ := hholds
    exact ⟨hmem, congrArg some (by simpa [listWhere, hgiven, equals] using hequal)⟩
  cases hmatching : matchingUsers query db with
  | nil => simp
  | cons first rest =>
    cases rest with
    | nil => simp
    | cons second rest =>
      rw [hmatching] at hnodup hsame
      obtain ⟨hfirst, hemailFirst⟩ := hsame first (by simp)
      obtain ⟨hsecond, hemailSecond⟩ := hsame second (by simp)
      cases db.users.eq_of_unique_eq hfirst hsecond hemailFirst hemailSecond
      simp at hnodup

end result

section sample

/-- A name that the query is about. -/
def sampleName (query : UserBuildParams) : String :=
  match given query.searchTerm with
  | some searchTerm => String.ofList (likeSample ("%" ++ (searchTerm ++ "%")).toList)
  | none => (given query.fullName).getD ""

/-- A user that the query is about. -/
def sampleColumns (query : UserBuildParams) (email : String) : UserColumns where
  fullName := some (sampleName query)
  email := some email
  phone := given query.phone
  docType := given query.docType
  document := given query.document
  fu := given query.fu

/-- The theme that the query is about, if it is one. -/
def sampleTheme (query : UserBuildParams) : Option ThemesEnum :=
  (given query.defaultTheme).bind fun theme => themeValues.find? fun value => value.text == theme

theorem equals_given (wanted : Option String) : equals wanted wanted = true := by
  cases wanted with
  | none => rfl
  | some text => exact equals_self text

theorem eq_none_of_equals {wanted : Option String} (h : equals wanted none = true) : wanted = none := by
  cases wanted with
  | none => rfl
  | some text => cases h

theorem sampleName_holds (query : UserBuildParams) :
    (listWhere query).fullName.all (TextCondition.holds (sampleName query)) = true := by
  unfold listWhere sampleName
  cases given query.searchTerm with
  | some searchTerm => simp [TextCondition.holds, like_likeSample]
  | none => cases given query.fullName <;> simp [TextCondition.holds]

theorem sample_holds (hsoft : query.selectSoftDeleted = false)
    (htheme : ∀ theme ∈ given query.defaultTheme, IsTheme theme) {email : String}
    (hemail : equals (given query.email) (some email) = true) (id : String) {preference : UserPreferencesModel}
    (hpreference : preference.defaultTheme = sampleTheme query) :
    (listWhere query).holds ids ((sampleColumns query email).row Time.epoch id) (some preference) = true := by
  have hsameTheme : (listWhere query).defaultTheme.all (fun theme =>
      (((some preference).bind UserPreferencesModel.defaultTheme).map ThemesEnum.text).any fun text =>
        theme.among.contains text && text == theme.value) = true := by
    rw [Option.bind_some, hpreference]
    unfold listWhere sampleTheme
    cases hgiven : given query.defaultTheme with
    | none => rfl
    | some text =>
      obtain ⟨theme, rfl⟩ := htheme text hgiven
      cases theme <;> rfl
  unfold UserWhere.holds
  simp only [Bool.and_eq_true]
  refine ⟨⟨⟨⟨⟨⟨⟨⟨?_, rfl⟩, sampleName_holds query⟩, hemail⟩, equals_given _⟩, equals_given _⟩, equals_given _⟩,
    equals_given _⟩, hsameTheme⟩
  change (!query.selectSoftDeleted || _) = true
  rw [hsoft]
  rfl

/-- A table of as many rows as are asked for. -/
def crowd {Row : Type} [Record Row] (make : Nat → Row) (hid : ∀ n, Record.id (make n) = ids.hex n) (total : Nat)
    (hunique : (((List.range total).map make).filterMap Record.unique).Nodup) : Table ids Row where
  rows := (List.range total).map make
  inserted := total
  known := by
    intro row hrow
    obtain ⟨n, hn, rfl⟩ := List.mem_map.mp hrow
    exact ⟨n, List.mem_range.mp hn, hid n⟩
  distinct := by
    rw [List.map_map]
    refine List.Nodup.map_on (fun a _ b _ hab => ?_) List.nodup_range
    rw [Function.comp_apply, Function.comp_apply, hid, hid] at hab
    exact ids.injective hab
  unique := hunique

/-- The e-mail of one of many users. A query that gives one is about one user. -/
def crowdEmail (ids : UuidSource) (query : UserBuildParams) (n : Nat) : String :=
  (given query.email).getD (ids.hex n)

theorem crowdEmail_holds (ids : UuidSource) (query : UserBuildParams) (n : Nat) :
    equals (given query.email) (some (crowdEmail ids query n)) = true := by
  unfold crowdEmail
  cases given query.email with
  | none => rfl
  | some email => exact equals_self email

theorem crowdEmail_nodup (ids : UuidSource) {total : Nat} (hemail : given query.email ≠ none → total ≤ 1) :
    ((List.range total).map (crowdEmail ids query)).Nodup := by
  refine List.Nodup.map_on (fun a ha b hb hab => ?_) List.nodup_range
  cases hgiven : given query.email with
  | none =>
    unfold crowdEmail at hab
    rw [hgiven] at hab
    exact ids.injective hab
  | some email =>
    have hone := hemail (by simp [hgiven])
    have ha := List.mem_range.mp ha
    have hb := List.mem_range.mp hb
    omega

/-- A table of users whose e-mails are those of the crowd. -/
def crowdUsers (ids : UuidSource) (columns : Nat → UserColumns) {total : Nat}
    (hemails : ((List.range total).map fun n => (columns n).email.getD "").Nodup) : Table ids UsersModel :=
  crowd (fun n => (columns n).row Time.epoch (ids.hex n)) (fun _ => rfl) total (by
    rw [filterMap_unique, List.map_map]
    exact hemails)

/-- A preference with a theme for each of them. -/
def crowdPreferences (ids : UuidSource) (theme : Option ThemesEnum) (total : Nat) : Table ids UserPreferencesModel :=
  crowd (fun n => PreferenceColumns.row { defaultTheme := theme, user := some (ids.hex n) } Time.epoch (ids.hex n))
    (fun _ => rfl) total (by
      rw [List.filterMap_map]
      have hunique : ((List.range total).map fun n => ids.hex n).Nodup :=
        List.Nodup.map_on (fun a _ b _ hab => ids.injective hab) List.nodup_range
      refine (congrArg List.Nodup ?_).mpr hunique
      exact congrFun List.filterMap_eq_map _)

theorem joined_crowd (ids : UuidSource) (theme : Option ThemesEnum) {total n : Nat} (hn : n < total) :
    ∃ preference, joined (crowdPreferences ids theme total) (ids.hex n) = some preference ∧
      preference.defaultTheme = theme := by
  have hsome : (joined (crowdPreferences ids theme total) (ids.hex n)).isSome = true := by
    unfold joined
    rw [List.find?_isSome]
    refine ⟨_, List.mem_map.mpr ⟨n, List.mem_range.mpr hn, rfl⟩, ?_⟩
    simp [PreferenceColumns.row, UserPreferencesModel.live]
  obtain ⟨preference, hjoined⟩ := Option.isSome_iff_exists.mp hsome
  obtain ⟨m, _, rfl⟩ := List.mem_map.mp (List.mem_of_find?_eq_some hjoined)
  exact ⟨_, hjoined, rfl⟩

theorem crowd_refers (columns : Nat → UserColumns) {total : Nat}
    (hemails : ((List.range total).map fun n => (columns n).email.getD "").Nodup) (theme : Option ThemesEnum) :
    Refers (crowdUsers ids columns hemails) (crowdPreferences ids theme total) := by
  intro preference hpreference userId huserId
  obtain ⟨n, hn, rfl⟩ := List.mem_map.mp hpreference
  cases huserId
  exact ⟨_, List.mem_map.mpr ⟨n, hn, rfl⟩, rfl⟩

/-- As many users as are asked for that match a query, and the same ones with other
hidden columns, where nobody matches. -/
theorem exists_crowd (ids : UuidSource) (hharmful : ¬ Harmless query) {total : Nat}
    (hemail : given query.email ≠ none → total ≤ 1) :
    ∃ db db' : Database ids, Alike sensitiveVeil db db' ∧ (matchingUsers query db).length = total ∧
      matchingUsers query db' = [] := by
  unfold Harmless at hharmful
  push Not at hharmful
  obtain ⟨hid, hnamed, hsoft, htheme⟩ := hharmful
  have hfilters := buildedQuery_filters hid
  let shown (n : Nat) : UserColumns := sampleColumns query (crowdEmail ids query n)
  let hidden (n : Nat) : UserColumns := { shown n with phone := none, document := none }
  have hemails := crowdEmail_nodup ids hemail
  let db : Database ids := ⟨crowdUsers ids shown hemails, crowdPreferences ids (sampleTheme query) total,
    crowd_refers shown hemails _⟩
  let db' : Database ids := ⟨crowdUsers ids hidden hemails, crowdPreferences ids (sampleTheme query) total,
    crowd_refers hidden hemails _⟩
  refine ⟨db, db', ⟨⟨?_, rfl⟩, rfl⟩, ?_, ?_⟩
  · change ((List.range total).map _).map _ = ((List.range total).map _).map _
    rw [List.map_map, List.map_map]
    rfl
  · have hall : matchingUsers query db = db.users.rows := by
      refine List.filter_eq_self.mpr fun user huser => ?_
      have hfound : user ∈ (buildedQuery query true).matching db.users db.preferences := by
        refine (mem_matching hfilters).mpr ⟨huser, ?_⟩
        obtain ⟨n, hn, rfl⟩ := List.mem_map.mp huser
        refine ⟨rfl, ?_⟩
        obtain ⟨preference, hjoined, hsample⟩ := joined_crowd ids (sampleTheme query) (List.mem_range.mp hn)
        change (listWhere query).holds ids _
          (joined (crowdPreferences ids (sampleTheme query) total) (ids.hex n)) = true
        rw [hjoined]
        exact sample_holds (by simpa using hsoft) htheme (crowdEmail_holds ids query n) (ids.hex n) hsample
      exact (List.mem_filter.mp hfound).2
    rw [hall]
    change ((List.range total).map _).length = total
    rw [List.length_map, List.length_range]
  · apply List.eq_nil_iff_forall_not_mem.mpr
    intro user huser
    obtain ⟨hmem, _, hholds⟩ := (mem_matching hfilters).mp huser
    obtain ⟨n, _, rfl⟩ := List.mem_map.mp hmem
    unfold UserWhere.holds at hholds
    simp only [Bool.and_eq_true] at hholds
    obtain ⟨⟨⟨⟨⟨⟨⟨⟨_, _⟩, _⟩, _⟩, hphone⟩, _⟩, _⟩, hdocument⟩, _⟩ := hholds
    exact hnamed (eq_none_of_equals hphone) (eq_none_of_equals hdocument)

end sample

/-- The lists of a query tell nothing of the hidden columns, where the database takes
limits and pages so. -/
def TellsNothing (ids : UuidSource) (paging : Paging) (query : UserBuildParams) : Prop :=
  ∀ (world : World) (clock : Clock) (db db' : Database ids),
    (∀ n, (world.engine n).toPaging = paging ∧ ArrangesBlind sensitiveVeil (world.engine n)) →
      Alike sensitiveVeil db db' →
        (run world (listUsers clock query) db).1 = (run world (listUsers clock query) db').1

/-- A database that takes limits and pages in a given way, and arranges rows by their
order only. -/
def servedBy (paging : Paging) : World :=
  { faultless with engine := fun _ => { Engine.stable with toPaging := paging } }

theorem servedBy_blind (paging : Paging) (n : Nat) :
    ((servedBy paging).engine n).toPaging = paging ∧ ArrangesBlind sensitiveVeil ((servedBy paging).engine n) :=
  ⟨rfl, stable_arrangesBlind fun sortBy row => by cases sortBy <;> rfl⟩

/-- A list that names a hidden column tells tables apart, unless the database answers it
alike. -/
theorem answersAlike_of_tellsNothing {paging : Paging} (h : TellsNothing ids paging query)
    (hharmful : ¬ Harmless query) : AnswersAlike paging query := by
  intro total hemail
  have hid : given query.id = none := by
    by_contra hgiven
    exact hharmful (Or.inl hgiven)
  obtain ⟨db, db', halike, hall, hnobody⟩ := exists_crowd ids hharmful hemail
  have hsame := h (servedBy paging) (fun _ => Time.epoch) db db' (servedBy_blind paging) halike
  have hsizes := congrArg (Except.map fun page => (page.content.length, page.totalItems)) hsame
  rw [run_sizes rfl _ hid, run_sizes rfl _ hid, hall, hnobody] at hsizes
  exact hsizes

/-- A list tells nothing of the hidden columns exactly if its query names none of them,
is about users that there are none of, or comes with a limit and a page that the
database answers alike however many users match. -/
theorem list_alike_iff (ids : UuidSource) (paging : Paging) (query : UserBuildParams) :
    TellsNothing ids paging query ↔ Harmless query ∨ AnswersAlike paging query := by
  constructor
  · intro h
    by_cases hharmless : Harmless query
    · exact Or.inl hharmless
    · exact Or.inr (answersAlike_of_tellsNothing h hharmless)
  · intro hquery world clock db db' hengine halike
    by_cases hharmless : Harmless query
    · exact list_alike_of_harmless hharmless (fun n => (hengine n).2) halike clock
    have hanswers : AnswersAlike (world.engine 0).toPaging query := by
      rw [(hengine 0).1]
      exact hquery.resolve_left hharmless
    have hid : given query.id = none := by
      by_contra hgiven
      exact hharmless (Or.inl hgiven)
    cases hfault : world.fault 0 with
    | none =>
      rw [run_of_answersAlike hfault clock hid hanswers db fun hemail => matchingUsers_length_le hid hemail db,
        run_of_answersAlike hfault clock hid hanswers db' fun hemail => matchingUsers_length_le hid hemail db']
    | some failure => rw [run_listUsers_fault hfault, run_listUsers_fault hfault]

/-- A list by phone number. -/
def byPhone : UserBuildParams where
  phone := some "+0000000000000"
  withoutPassword := true
  withoutSensitiveData := true

/-- It tells whether a user has that number. -/
theorem list_reveals_phone : ¬ TellsNothing UuidSource.counting Paging.strict byPhone := by
  intro hclaim
  have hharmful : ¬ Harmless byPhone := by
    rintro (hid | ⟨hphone, _⟩ | hsoft | ⟨theme, htheme, _⟩)
    · exact hid rfl
    · exact absurd hphone (by decide)
    · cases hsoft
    · cases htheme
  have hone := answersAlike_of_tellsNothing hclaim hharmful 1 fun _ => Nat.le_refl 1
  exact absurd (congrArg Prod.fst (Except.ok.inj hone)) (by simp)

end node_backend.user_requests
