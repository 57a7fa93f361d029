import NodeBackend.User.Effects
import NodeBackend.User.PageCounts
import NodeBackend.User.Shown

namespace node_backend.user_repository

open js store program
open node_backend.exceptions node_backend.user_database node_backend.user_models node_backend.user_query
open node_backend.user_entity node_backend.user_preference_entity

variable {ids : UuidSource}

/-- A function that succeeds on every item of a list maps it. -/
theorem mapM_forall₂ {A B E : Type} {f : A → Except E B} {l : List A} (h : ∀ a ∈ l, ∃ b, f a = .ok b) :
    ∃ bs, l.mapM f = .ok bs ∧ List.Forall₂ (fun a b => f a = .ok b) l bs := by
  induction l with
  | nil => exact ⟨[], rfl, .nil⟩
  | cons a rest ih =>
    obtain ⟨b, hb⟩ := h a (by simp)
    obtain ⟨bs, hbs, hall⟩ := ih fun other hother => h other (List.mem_cons_of_mem a hother)
    refine ⟨b :: bs, ?_, .cons hb hall⟩
    rw [List.mapM_cons, hb, hbs]
    rfl

theorem exists_of_map_eq_ok {A B E : Type} {outcome : Except E A} {f : A → B} {b : B}
    (h : outcome.map f = .ok b) : ∃ a, outcome = .ok a ∧ f a = b := by
  cases outcome with
  | error e => cases h
  | ok a => exact ⟨a, rfl, Except.ok.inj h⟩

/-- The users that a list query is about. -/
def matchingUsers (query : UserBuildParams) (db : Database ids) : List UsersModel :=
  (buildParams query).matching db.users db.preferences

/-- The order that a list query asks for. -/
def listOrder (query : UserBuildParams) : Option (SortBy × ListOrder) :=
  (buildPaginationParams query).order

/-- The matching users in the order of the query, which leaves no two of them tied. -/
structure Ordered (query : UserBuildParams) (db : Database ids) (ordered : List UsersModel) : Prop where
  perm : ordered.Perm (matchingUsers query db)
  sorted : ordered.Pairwise (precedes (listOrder query))

/-- Where the order leaves no ties, a database has one way to arrange the users. -/
theorem Ordered.arrange_eq {query : UserBuildParams} {db : Database ids} {ordered : List UsersModel}
    (h : Ordered query db ordered) (engine : Engine) :
    engine.arrange (listOrder query) (matchingUsers query db) = ordered := by
  let R (a b : UsersModel) : Prop := a ≠ b → precedes (listOrder query) a b ∨ precedes (listOrder query) b a
  have hforward : ordered.Pairwise R := h.sorted.imp fun hab _ => Or.inl hab
  have hbackward : ordered.Pairwise (flip R) := h.sorted.imp fun hab _ => Or.inr hab
  have htotal : ∀ a ∈ ordered, ∀ b ∈ ordered, R a b := fun a ha b hb =>
    List.Pairwise.forall_of_forall_of_flip (fun _ _ hne => absurd rfl hne) hforward hbackward ha hb
  have hperm : (engine.arrange (listOrder query) (matchingUsers query db)).Perm ordered :=
    (engine.perm _ _).trans h.perm.symm
  have hlist : ordered.Pairwise fun a b => ¬ precedes (listOrder query) b a := h.sorted.imp precedes_asymm
  refine hperm.eq_of_pairwise ?_ (engine.sorted _ _) hlist
  intro a b ha hb hab hba
  by_contra hne
  obtain hlt | hlt := htotal a (hperm.mem_iff.mp ha) b hb hne
  · exact hba hlt
  · exact hab hlt

/-- An entity that a list of this query makes of a user. -/
def Shows (query : UserBuildParams) (withoutSensitiveData : Bool) (db : Database ids) (user : UsersModel)
    (entity : UserEntity) : Prop :=
  ∃ now, toDomainEntity now ((buildParams { query with
    withoutSensitiveData := withoutSensitiveData, withoutPassword := true }).load db.preferences user) = .ok entity

/-- What `list` asks the database. -/
def buildedQuery (query : UserBuildParams) (withoutSensitiveData : Bool) : FindOptions :=
  buildParams { query with withoutSensitiveData := withoutSensitiveData, withoutPassword := true }

/-- The identifier that a query asks for, if any, is spelled as one. -/
def Readable (ids : UuidSource) (query : UserBuildParams) : Prop :=
  ∀ text ∈ given query.id, ∃ id, ids.read text = some id

theorem readable_iff (query : UserBuildParams) (withoutSensitiveData : Bool) :
    (Call.findUsers (buildedQuery query withoutSensitiveData)).refusal ids = none ↔ Readable ids query := by
  have hidentifiers : (Call.findUsers (buildedQuery query withoutSensitiveData)).identifiers =
      (given query.id).toList := by
    change (buildWhereParams query).filterMap UserWhere.id = _
    unfold buildWhereParams
    cases given query.id <;> rfl
  rw [refusal_eq_none_iff, hidentifiers]
  simp only [Readable, Option.mem_toList, Option.mem_def]

theorem list_eq (now : Time) (query : UserBuildParams) (withoutSensitiveData : Bool) :
    list now query withoutSensitiveData = abstract_repository.guarded
      (Program.perform (.findUsers (buildedQuery query withoutSensitiveData)) >>=
        fun (found : List UserValues × Number) =>
          abstract_repository.built (found.1.mapM (toDomainEntity now)) >>= fun content => pure
            { content := content
              pageNumber := query.page.getD .zero
              pageSize := found.1.length
              totalPages := pageCount found.2 (query.limit.getD .one)
              totalItems := found.2 }) := rfl

/-- What one list call returns: the part of the users that the database gives, and its
count. -/
theorem run_list {engine : Engine} (time now : Time) {query : UserBuildParams} (withoutSensitiveData : Bool)
    {db : Database ids} {users : List UsersModel} {count : Number} (hread : Readable ids query)
    (hcut : engine.cut (buildPaginationParams query) (engine.arrange (listOrder query) (matchingUsers query db)) =
      .ok (users, count)) :
    ∃ result, Program.run (exec engine time) (list now query withoutSensitiveData) db = (.ok result, db) ∧
      List.Forall₂ (Shows query withoutSensitiveData db) users result.content ∧ result.totalItems = count ∧
      result.totalPages = pageCount count (query.limit.getD .one) := by
  let options := buildedQuery query withoutSensitiveData
  obtain ⟨content, hcontent, hshown⟩ := mapM_forall₂ (f := toDomainEntity now)
    (l := users.map (options.load db.preferences)) (by
      intro values hvalues
      obtain ⟨user, _, rfl⟩ := List.mem_map.mp hvalues
      obtain ⟨entity, hentity, _⟩ := exists_toDomainEntity now user options.select
        (if options.relations then joined db.preferences user.id else none)
      exact ⟨entity, hentity⟩)
  rw [List.forall₂_map_left_iff] at hshown
  refine ⟨⟨content, query.page.getD .zero, (users.map (options.load db.preferences)).length,
    pageCount count (query.limit.getD .one), count⟩, ?_, hshown.imp fun _ _ h => ⟨now, h⟩, rfl, rfl⟩
  have hexec : exec engine time (.findUsers options) db =
      (.ok (users.map (options.load db.preferences), count), db) := by
    rw [exec_of_readable ((readable_iff query withoutSensitiveData).mpr hread)]
    change ((engine.cut (buildPaginationParams query) (engine.arrange (listOrder query)
      (matchingUsers query db))).map _, db) = _
    rw [hcut]
    rfl
  have hbuilt : (abstract_repository.built ((users.map (options.load db.preferences)).mapM (toDomainEntity now)) :
      Promise (List UserEntity)) = .done content := by
    rw [hcontent]
    rfl
  rw [list_eq]
  apply Program.run_tryCatch_of_ok
  rw [Program.run_bind_of_ok _ ((Program.run_perform _ _ _).trans hexec), hbuilt]
  rfl

/-- A list query for one of its pages. -/
def onPage (query : UserBuildParams) (limit page : Double) : UserBuildParams :=
  { query with limit := some limit, page := some page }

/-- The part of a list that is on a page. Page zero is all of it, since its number
counts as missing. -/
def pageOf (limit page : Nat) (users : List UsersModel) : List UsersModel :=
  if page = 0 then users else (users.drop (page * limit)).take limit

theorem truthyNumber_natCast {n : Nat} {x : Double} (hx : x.magnitude = n) : truthyNumber (some x) = (n != 0) := by
  have hzero : (x.magnitude == 0) = (n == 0) := by
    rw [hx, Bool.eq_iff_iff, beq_iff_eq, beq_iff_eq, Nat.cast_eq_zero]
  exact congrArg Bool.not hzero

theorem buildPaginationParams_onPage_zero (query : UserBuildParams) (limit : Double) (hpage : 0 < 2 ^ 53) :
    buildPaginationParams (onPage query limit (.ofNat 0 hpage)) =
      { take := none, skip := none, order := listOrder query } := by
  have hfalsy : truthyNumber (some (.ofNat 0 hpage)) = false := truthyNumber_natCast (n := 0) rfl
  simp [buildPaginationParams, listOrder, onPage, hfalsy]

/-- Every page from one on has the limit, and skips the pages before it. -/
theorem buildPaginationParams_onPage (query : UserBuildParams) {limit page : Nat} (hlimit : limit < 2 ^ 53)
    (hpage : page < 2 ^ 53) (hskip : page * limit < 2 ^ 53) (hlimitPos : 0 < limit) (hpagePos : 0 < page) :
    buildPaginationParams (onPage query (.ofNat limit hlimit) (.ofNat page hpage)) =
      { take := some (.ofNat limit hlimit)
        skip := some (.finite (.ofNat (page * limit) hskip))
        order := listOrder query } := by
  have htake : truthyNumber (some (.ofNat limit hlimit)) = true := by
    rw [truthyNumber_natCast rfl]
    exact bne_iff_ne.mpr hlimitPos.ne'
  have hsome : truthyNumber (some (.ofNat page hpage)) = true := by
    rw [truthyNumber_natCast rfl]
    exact bne_iff_ne.mpr hpagePos.ne'
  have hproduct := Rounding.even.multiply_natCast (x := .ofNat page hpage) (y := .ofNat limit hlimit) rfl rfl rfl rfl
    hskip
  simp [buildPaginationParams, listOrder, onPage, numberOr, htake, hsome, hproduct]

/-- The pages of a list put together, and how many users each may hold. -/
structure Partition (limit : Nat) (shows : UsersModel → UserEntity → Prop) (ordered : List UsersModel)
    (pages : List PaginationInterface) : Prop where
  complete : List.Forall₂ shows ordered (pages.flatMap PaginationInterface.content)
  bounded : ∀ page ∈ pages, page.content.length ≤ limit

section pages

variable {query : UserBuildParams} {limit : Nat} {db : Database ids} {ordered : List UsersModel}

theorem cut_onPage (engine : Engine) (query : UserBuildParams) (hdouble : Representable limit) (hlimit : 0 < limit)
    {page : Nat} (hpage : page < 2 ^ 53) (hskip : page * limit < 2 ^ 53) (users : List UsersModel) :
    engine.cut (buildPaginationParams (onPage query ⟨false, limit, hdouble⟩ (.ofNat page hpage))) users =
      .ok (pageOf limit page users, Rounding.even.ofNat users.length) := by
  unfold pageOf
  obtain rfl | hpos := Nat.eq_zero_or_pos page
  · rw [buildPaginationParams_onPage_zero]
    rfl
  · have hsmall : limit < 2 ^ 53 := lt_of_le_of_lt (Nat.le_mul_of_pos_left limit hpos) hskip
    have hparams := buildPaginationParams_onPage query hsmall hpage hskip hlimit hpos
    change buildPaginationParams (onPage query ⟨false, limit, hdouble⟩ (.ofNat page hpage)) = _ at hparams
    rw [hparams, if_neg hpos.ne']
    change (engine.slice (.ofNat limit hsmall) (.finite (.ofNat (page * limit) hskip)) users.length).map _ = _
    rw [engine.slice_whole]
    rfl

/-- One list call of a query whose order leaves no ties. -/
theorem run_list_page (hread : Readable ids query) (hordered : Ordered query db ordered) (engine : Engine)
    (time now : Time) (withoutSensitiveData : Bool) (hdouble : Representable limit) (hlimit : 0 < limit) (page : Nat)
    (hpage : page < 2 ^ 53) (hskip : page * limit < 2 ^ 53) :
    ∃ result, Program.run (exec engine time)
        (list now (onPage query ⟨false, limit, hdouble⟩ (.ofNat page hpage)) withoutSensitiveData) db =
          (.ok result, db) ∧
      List.Forall₂ (Shows query withoutSensitiveData db) (pageOf limit page ordered) result.content ∧
      result.totalPages = pageCount (Rounding.even.ofNat ordered.length) ⟨false, limit, hdouble⟩ := by
  let onThis := onPage query ⟨false, limit, hdouble⟩ (.ofNat page hpage)
  have hreadThis : Readable ids onThis := hread
  have harrange : engine.arrange (listOrder onThis) (matchingUsers onThis db) = ordered := hordered.arrange_eq engine
  have hcut : engine.cut (buildPaginationParams onThis) (engine.arrange (listOrder onThis) (matchingUsers onThis db)) =
      .ok (pageOf limit page ordered, Rounding.even.ofNat ordered.length) := by
    rw [harrange]
    exact cut_onPage engine query hdouble hlimit hpage hskip ordered
  obtain ⟨result, hrun, hshown, _, htotal⟩ := run_list time now withoutSensitiveData hreadThis hcut
  exact ⟨result, hrun, hshown, htotal⟩

/-- A list that fits on one page has one. -/
theorem pageCount_of_le (hdouble : Representable limit) (hlimit : 0 < limit) {length : Nat} (hle : length ≤ limit) :
    (pageCount (Rounding.even.ofNat length) ⟨false, limit, hdouble⟩).IsNat 1 := by
  have hcast : (length : ℚ) ≤ limit := by exact_mod_cast hle
  have hone : CountsOnePage (Rounding.even.ofNat length) ⟨false, limit, hdouble⟩ := by
    rw [Rounding.ofNat, Rounding.number_of_lt _ (lt_of_le_of_lt hcast hdouble.lt_overflow)]
    exact Or.inr ⟨Nat.cast_pos.mpr hlimit, Rounding.even.nearest_le hdouble hcast⟩
  rw [(pageCount_iff _ _).2.mpr hone]
  exact Number.isNat_one

/-- The list calls for the pages return these, as many as they count. -/
structure Returned (engine : Nat → Engine) (time now : Nat → Time) (query : UserBuildParams)
    (withoutSensitiveData : Bool) (hdouble : Representable limit) (db : Database ids)
    (pages : Nat → PaginationInterface) (totalPages : Nat) : Prop where
  positive : 0 < totalPages
  run : ∀ (page : Nat) (hpage : page < 2 ^ 53), page < totalPages →
    Program.run (exec (engine page) (time page))
      (list (now page) (onPage query ⟨false, limit, hdouble⟩ (.ofNat page hpage)) withoutSensitiveData) db =
        (.ok (pages page), db)
  total : ∀ page < totalPages, (pages page).totalPages.IsNat totalPages

/-- A query whose identifier is none is refused, whatever the page. -/
theorem readable_of_run {engine : Engine} {time now : Time} {query : UserBuildParams} {withoutSensitiveData : Bool}
    {result : PaginationInterface}
    (h : Program.run (exec engine time) (list now query withoutSensitiveData) db = (.ok result, db)) :
    Readable ids query := by
  apply (readable_iff query withoutSensitiveData).mp
  cases hrefusal : (Call.findUsers (buildedQuery query withoutSensitiveData)).refusal ids with
  | none => rfl
  | some failure =>
    have hexec : exec engine time (.findUsers (buildedQuery query withoutSensitiveData)) db = (.error failure, db) :=
      exec_of_refused hrefusal
    rw [list_eq, abstract_repository.guarded, Program.run_tryCatch,
      Program.run_bind_of_error _ ((Program.run_perform _ _ _).trans hexec)] at h
    cases (Prod.mk.inj h).1

/-- Page zero alone holds all users. -/
theorem Returned.length_le {engine : Nat → Engine} {time now : Nat → Time} {withoutSensitiveData : Bool}
    {hdouble : Representable limit} {pages : Nat → PaginationInterface} {totalPages : Nat}
    (h : Returned engine time now query withoutSensitiveData hdouble db pages totalPages)
    (hordered : Ordered query db ordered) (hlimit : 0 < limit)
    (hpartition : Partition limit (Shows query withoutSensitiveData db) ordered ((List.range totalPages).map pages)) :
    Readable ids query ∧ ordered.length ≤ limit := by
  have hfirst := h.run 0 (by simp) h.positive
  have hasked := readable_of_run hfirst
  have hread : Readable ids query := hasked
  obtain ⟨result, hrun, hshown, _⟩ := run_list_page hread hordered (engine 0) (time 0) (now 0) withoutSensitiveData
    hdouble hlimit 0 (by simp) (by simp)
  rw [hfirst] at hrun
  cases hrun
  refine ⟨hread, ?_⟩
  have hlength : ordered.length = (pages 0).content.length := hshown.length_eq
  rw [hlength]
  exact hpartition.bounded (pages 0) (List.mem_map.mpr ⟨0, List.mem_range.mpr h.positive, rfl⟩)

/-- The pages that a list counts are a partition of the matching users exactly if all
of them fit on one page. Page zero holds them all, and every later page the part that
its number says. -/
theorem pages_partition_iff (hdouble : Representable limit) (hlimit : 0 < limit) (hordered : Ordered query db ordered)
    (engine : Nat → Engine) (time now : Nat → Time) (withoutSensitiveData : Bool) :
    ((∃ pages totalPages, Returned engine time now query withoutSensitiveData hdouble db pages totalPages ∧
        Partition limit (Shows query withoutSensitiveData db) ordered ((List.range totalPages).map pages)) ↔
      Readable ids query ∧ ordered.length ≤ limit) ∧
    (Readable ids query → ∀ (page : Nat) (hpage : page < 2 ^ 53), page * limit < 2 ^ 53 →
      ∃ result, Program.run (exec (engine page) (time page))
          (list (now page) (onPage query ⟨false, limit, hdouble⟩ (.ofNat page hpage)) withoutSensitiveData) db =
            (.ok result, db) ∧
        List.Forall₂ (Shows query withoutSensitiveData db) (pageOf limit page ordered) result.content ∧
        result.totalPages = pageCount (Rounding.even.ofNat ordered.length) ⟨false, limit, hdouble⟩) := by
  refine ⟨⟨?_, ?_⟩, fun hread page hpage hskip => ?_⟩
  · rintro ⟨pages, totalPages, hreturned, hpartition⟩
    exact hreturned.length_le hordered hlimit hpartition
  · rintro ⟨hread, hle⟩
    obtain ⟨result, hrun, hshown, htotal⟩ := run_list_page hread hordered (engine 0) (time 0) (now 0)
      withoutSensitiveData hdouble hlimit 0 (by simp) (by simp)
    have hcount : result.totalPages.IsNat 1 := by
      rw [htotal]
      exact pageCount_of_le hdouble hlimit hle
    refine ⟨fun _ => result, 1, ⟨Nat.one_pos, ?_, fun _ _ => hcount⟩, ?_, ?_⟩
    · intro page _ hpage
      obtain rfl : page = 0 := by omega
      exact hrun
    · change List.Forall₂ _ ordered result.content at hshown
      simpa using hshown
    · intro page hpage
      obtain rfl : page = result := by simpa using hpage
      have hlength : ordered.length = page.content.length := hshown.length_eq
      rw [← hlength]
      exact hle
  · exact run_list_page hread hordered (engine page) (time page) (now page) withoutSensitiveData hdouble hlimit page
      hpage hskip

end pages

/-- Two users, one of them made after the other. -/
def olderUser : UsersModel := ({ email := some "a" } : UserColumns).row .epoch "0"
def newerUser : UsersModel := ({ email := some "b" } : UserColumns).row ⟨1, by simp⟩ "1"

def twoUsers : Database UuidSource.counting where
  users :=
    { rows := [olderUser, newerUser]
      inserted := 2
      known := by
        intro row hrow
        obtain rfl | rfl : row = olderUser ∨ row = newerUser := by simpa using hrow
        · exact ⟨0, by simp, rfl⟩
        · exact ⟨1, by simp, rfl⟩
      distinct := by decide
      unique := by decide }
  preferences := Table.empty
  refers := by simp [Refers, Table.empty]

/-- A list by date of creation. -/
def byCreation : UserBuildParams where
  sortBy := some .createdAt
  withoutPassword := true
  withoutSensitiveData := true

theorem ordered_twoUsers : Ordered byCreation twoUsers [olderUser, newerUser] where
  perm := by
    have hmatching : matchingUsers byCreation twoUsers = [olderUser, newerUser] := rfl
    rw [hmatching]
  sorted := by
    rw [List.pairwise_pair]
    exact Int.zero_lt_one

theorem readable_byCreation : Readable UuidSource.counting byCreation := by
  intro text htext
  cases htext

theorem pages_partition_iff_twoUsers :
    (∃ pages totalPages, Returned (fun _ => Engine.stable) (fun _ => Time.epoch) (fun _ => Time.epoch) byCreation true
        (representable_of_lt (n := 2) (by simp)) twoUsers pages totalPages ∧
      Partition 2 (Shows byCreation true twoUsers) [olderUser, newerUser] ((List.range totalPages).map pages)) ↔
    Readable UuidSource.counting byCreation ∧ [olderUser, newerUser].length ≤ 2 :=
  (pages_partition_iff (representable_of_lt (n := 2) (by simp)) (by simp) ordered_twoUsers (fun _ => Engine.stable)
    (fun _ => Time.epoch) (fun _ => Time.epoch) true).1

/-- With a limit of one, page zero holds both users. -/
theorem pages_no_partition :
    ¬ ∀ (query : UserBuildParams) (limit : Nat) (hdouble : Representable limit) (db : Database UuidSource.counting)
      (ordered : List UsersModel), 0 < limit → Ordered query db ordered →
        ∀ (pages : Nat → PaginationInterface) (totalPages : Nat),
          Returned (fun _ => Engine.stable) (fun _ => Time.epoch) (fun _ => Time.epoch) query true hdouble db pages
            totalPages →
          Partition limit (Shows query true db) ordered ((List.range totalPages).map pages) := by
  intro hclaim
  have hdouble : Representable (1 : Nat) := representable_of_lt (by simp)
  obtain ⟨first, hfirst, hshown, htotal⟩ := run_list_page readable_byCreation ordered_twoUsers Engine.stable Time.epoch
    Time.epoch true hdouble Nat.one_pos 0 (by simp) (by simp)
  obtain ⟨second, hsecond, _, htotal'⟩ := run_list_page readable_byCreation ordered_twoUsers Engine.stable Time.epoch
    Time.epoch true hdouble Nat.one_pos 1 (by simp) (by simp)
  have hcount : (pageCount (Rounding.even.ofNat [olderUser, newerUser].length) ⟨false, (1 : Nat), hdouble⟩).IsNat 2 :=
    pageCount_by_one (by simp) (by simp)
  let pages (page : Nat) : PaginationInterface := if page = 0 then first else second
  have hpartition := hclaim byCreation 1 hdouble twoUsers _ Nat.one_pos ordered_twoUsers pages 2
    { positive := by simp
      run := by
        intro page _ hpage
        obtain rfl | rfl : page = 0 ∨ page = 1 := by omega
        · exact hfirst
        · exact hsecond
      total := by
        intro page hpage
        obtain rfl | rfl : page = 0 ∨ page = 1 := by omega
        · exact htotal ▸ hcount
        · exact htotal' ▸ hcount }
  have hlength : [olderUser, newerUser].length = first.content.length := hshown.length_eq
  have hbounded := hpartition.bounded first (List.mem_map.mpr ⟨0, by simp, rfl⟩)
  rw [← hlength] at hbounded
  exact absurd hbounded (by simp)

end node_backend.user_repository
