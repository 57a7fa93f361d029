import NodeBackend.User.Outline
import NodeBackend.User.Shown

namespace node_backend.user_specs

open js store program
open node_backend.exceptions node_backend.user_database node_backend.user_models node_backend.user_query
open node_backend.user_entity node_backend.user_preference_entity node_backend.user_service
open node_backend.abstract_repository node_backend.user_repository

variable {ids : UuidSource} {mayFail : Prop} {A : Type}

theorem built_ok {outcome : Except ErrorInterface A} {a : A} (h : outcome = .ok a) : built outcome = .done a := by
  rw [h]
  rfl

theorem built_ensures {outcome : Except ErrorInterface A} {db : Database ids} {returned : A → Database ids → Prop}
    {thrown : Failure → Database ids → Prop} (hok : ∀ a, outcome = .ok a → returned a db)
    (herror : ∀ e, outcome = .error e → thrown (.plain e) db) :
    (built outcome).Ensures (step mayFail) db returned thrown := by
  cases outcome with
  | ok a => exact hok a rfl
  | error e => exact herror e rfl

theorem criteria_of_ne {id : String} (h : id ≠ "") (method : String) : criteria method (some id) = .done id := by
  unfold criteria
  rw [given_of_ne h]
  rfl

theorem mem_matching {options : FindOptions} {condition : UserWhere} (hfilters : options.filters = [condition])
    {db : Database ids} {user : UsersModel} :
    user ∈ options.matching db.users db.preferences ↔
      user ∈ db.users.rows ∧ user.live = true ∧ condition.holds ids user (joined db.preferences user.id) = true := by
  unfold FindOptions.matching
  rw [List.mem_filter, hfilters]
  simp

theorem equals_self (text : String) : equals (some text) (some text) = true := by
  simp [equals]

theorem holds_id {text : String} {user : UsersModel} {preference : Option UserPreferencesModel} :
    UserWhere.holds { id := some text } ids user preference = true ↔ ids.read text = some user.id := by
  simp [UserWhere.holds, equals, Option.all]

theorem live_of_mem_matching {options : FindOptions} {db : Database ids} {user : UsersModel}
    (h : user ∈ options.matching db.users db.preferences) : user ∈ db.users.rows ∧ user.live = true := by
  unfold FindOptions.matching at h
  rw [List.mem_filter, Bool.and_eq_true] at h
  exact ⟨h.1, h.2.1⟩

/-- The one text of a request is read. -/
theorem exists_read_of_mem {text id : String} (hread : ids.read text = some id) :
    ∀ other ∈ [text], ∃ id, ids.read other = some id := by
  intro other hother
  rw [List.mem_singleton.mp hother]
  exact ⟨id, hread⟩

/-- The query that getById builds. -/
def queryById (text : String) (withoutPassword : Bool) : FindOptions :=
  buildParams { id := some text, withoutSensitiveData := false, withoutPassword := withoutPassword }

theorem queryById_filters {text : String} (h : text ≠ "") (withoutPassword : Bool) :
    (queryById text withoutPassword).filters = [{ id := some text }] := by
  change buildWhereParams _ = _
  unfold buildWhereParams
  rw [given_of_ne h]

theorem mem_queryById {text : String} (h : text ≠ "") {withoutPassword : Bool} {db : Database ids} {user : UsersModel} :
    user ∈ (queryById text withoutPassword).matching db.users db.preferences ↔
      user ∈ db.users.rows ∧ user.live = true ∧ ids.read text = some user.id := by
  rw [mem_matching (queryById_filters h withoutPassword), holds_id]

/-- A user that was found becomes an entity of its identifier. -/
theorem exists_load_toDomainEntity (now : Time) (options : FindOptions) (db : Database ids) (user : UsersModel) :
    ∃ entity, toDomainEntity now (options.load db.preferences user) = .ok entity ∧ entity.id = some user.id := by
  obtain ⟨entity, hentity, hid, _⟩ := exists_toDomainEntity now user options.select
    (if options.relations then joined db.preferences user.id else none)
  exact ⟨entity, hentity, hid⟩

theorem mapM_some_ok {B : Type} {f : A → Except ErrorInterface B} {a : A} {b : B} (h : f a = .ok b) :
    (some a).mapM f = .ok (some b) := by
  rw [Option.mapM_some, h]
  rfl

/-- The entity is what the live user with an identifier is read as. -/
def UserRead (now : Time) (db : Database ids) (id : String) (entity : UserEntity) : Prop :=
  ∃ user ∈ db.users.rows, user.live = true ∧ user.id = id ∧
    toDomainEntity now ((queryById id true).load db.preferences user) = .ok entity

theorem UserRead.live {now : Time} {db : Database ids} {id : String} {entity : UserEntity}
    (h : UserRead now db id entity) : entity.id = some id ∧ LiveUser db id := by
  obtain ⟨user, huser, hlive, rfl, hentity⟩ := h
  obtain ⟨other, hother, hid⟩ := exists_load_toDomainEntity now (queryById user.id true) db user
  cases hentity.symm.trans hother
  exact ⟨hid, mem_outline_users.mpr ⟨user, huser, hlive, rfl⟩⟩

/-- A search by conditions other than on the identifier. -/
theorem findOne_ensures {condition : UserWhere} (hcondition : condition.id = none) (now : Time) (db : Database ids) :
    (user_repository.findOne now condition).Ensures (step mayFail) db (fun _ db' => db' = db)
      fun _ db' => db' = db ∧ mayFail := by
  unfold user_repository.findOne abstract_repository.findOne
  have hread : ∀ text ∈ (findOptions condition).filters.filterMap UserWhere.id, ∃ id, ids.read text = some id := by
    simp [findOptions, hcondition]
  refine Program.Ensures.rethrow ((findUser_readable_ensures _ hread db).bind fun found db' hfound => ?_)
  obtain ⟨rfl, ⟨user, _, rfl⟩ | ⟨_, rfl⟩⟩ := hfound
  · obtain ⟨entity, hentity, _⟩ := exists_load_toDomainEntity now (findOptions condition) db' user
    rw [built_ok (mapM_some_ok hentity)]
    rfl
  · rfl

/-- The text spells the identifier of no live user. -/
def NamesNobody (db : Database ids) (text : String) : Prop :=
  ∀ id, ids.read text = some id → ¬ LiveUser db id

theorem user_repository_getById_ensures (now : Time) (text : String) (db : Database ids) :
    (user_repository.getById now (some text) true).Ensures (step mayFail) db
      (fun found db' => db' = db ∧
        ((∃ entity id, found = some entity ∧ (text ≠ "" → ids.read text = some id) ∧ UserRead now db id entity) ∨
          found = none ∧ NamesNobody db text))
      fun _ db' => db' = db ∧ (mayFail ∨ NamesNobody db text) := by
  change (abstract_repository.guarded
    (perform (.findUser (queryById text true)) >>= fun result =>
      built (result.mapM (toDomainEntity now)))).Ensures _ _ _ _
  refine Program.Ensures.rethrow (((findUser_ensures _ db).mono (fun _ _ h => h) ?_).bind fun found db' hfound => ?_)
  · rintro _ db' ⟨rfl, hfail | ⟨other, hother, hunread⟩⟩
    · exact ⟨rfl, Or.inl hfail⟩
    · refine ⟨rfl, Or.inr fun id hread => ?_⟩
      rw [queryById_filters (UuidSource.ne_empty_of_read hread)] at hother
      cases List.mem_singleton.mp hother
      cases hunread.symm.trans hread
  · obtain ⟨rfl, _, ⟨user, huser, rfl⟩ | ⟨hnone, rfl⟩⟩ := hfound
    · obtain ⟨entity, hentity, _⟩ := exists_load_toDomainEntity now (queryById text true) db' user
      rw [built_ok (mapM_some_ok hentity)]
      obtain ⟨hmem, hlive⟩ := live_of_mem_matching huser
      exact ⟨rfl, Or.inl ⟨entity, user.id, rfl, fun hne => ((mem_queryById hne).mp huser).2.2, user, hmem, hlive, rfl,
        hentity⟩⟩
    · refine ⟨rfl, Or.inr ⟨rfl, fun id hread hliveUser => ?_⟩⟩
      obtain ⟨user, huser, hlive, rfl⟩ := mem_outline_users.mp hliveUser
      have hmem : user ∈ (queryById text true).matching db'.users db'.preferences :=
        (mem_queryById (UuidSource.ne_empty_of_read hread)).mpr ⟨huser, hlive, hread⟩
      rw [hnone] at hmem
      cases hmem

theorem getById_ensures (clock : Clock) (text : String) (db : Database ids) :
    (user_service.getById clock (some text)).Ensures (step mayFail) db
      (fun user db' => db' = db ∧ ∃ id, (text ≠ "" → ids.read text = some id) ∧ UserRead (clock 0) db id user)
      fun _ db' => db' = db ∧ (mayFail ∨ NamesNobody db text) := by
  unfold user_service.getById
  refine Program.Ensures.rethrow (Program.Ensures.bind (user_repository_getById_ensures (clock 0) text db) ?_)
  rintro found db' ⟨rfl, ⟨entity, id, rfl, hread, huser⟩ | ⟨rfl, hnobody⟩⟩
  · exact ⟨rfl, id, hread, huser⟩
  · exact ⟨rfl, Or.inr hnobody⟩

theorem getByEmail_ensures (clock : Clock) (email : Option String) (db : Database ids) :
    (getByEmail clock email).Ensures (step mayFail) db (fun _ db' => db' = db) fun _ db' => db' = db ∧ mayFail :=
  Program.Ensures.rethrow (findOne_ensures rfl (clock 0) db)

theorem mem_preference_matching {condition : PreferenceWhere} {db : Database ids} {preference : UserPreferencesModel} :
    preference ∈ condition.matching db ↔ preference ∈ db.preferences.rows ∧ preference.live = true ∧
      (∀ text ∈ condition.id, ids.read text = some preference.id) ∧
      ∀ text ∈ condition.user, ∃ userId, ids.read text = some userId ∧ preference.userId = some userId ∧
        LiveUser db userId := by
  unfold PreferenceWhere.matching
  rw [List.mem_filter]
  obtain ⟨id, user⟩ := condition
  have hid : (id.all fun text => ids.read text == some preference.id) = true ↔
      ∀ text ∈ id, ids.read text = some preference.id := by
    simp [Option.all_eq_true]
  have huser : (user.all fun text => (ids.read text).any fun userId =>
        preference.userId == some userId && db.users.rows.any fun user => user.live && user.id == userId) = true ↔
      ∀ text ∈ user, ∃ userId, ids.read text = some userId ∧ preference.userId = some userId ∧ LiveUser db userId := by
    simp [Option.all_eq_true, Option.any_eq_true, LiveUser, mem_outline_users]
  rw [Bool.and_eq_true, Bool.and_eq_true, hid, huser, and_assoc]

/-- A preference that the database returns becomes an entity of its identifier. -/
theorem exists_preference_toDomainEntity (now : Time) (preference : UserPreferencesModel) (user : Option String) :
    ∃ entity, user_preference_repository.toDomainEntity now (preference.load user) = .ok entity ∧
      entity.id = some preference.id := by
  exact ⟨_, construct_preference_load now preference user, rfl⟩

/-- The entity is what the live preference of a live user is read as. -/
def PreferenceRead (now : Time) (db : Database ids) (userId : String) (entity : UserPreferenceEntity) : Prop :=
  LiveUser db userId ∧ ∃ preference ∈ db.preferences.rows, preference.live = true ∧
    preference.userId = some userId ∧ user_preference_repository.toDomainEntity now (preference.load none) = .ok entity

theorem PreferenceRead.live {now : Time} {db : Database ids} {userId : String} {entity : UserPreferenceEntity}
    (h : PreferenceRead now db userId entity) :
    LiveUser db userId ∧ ∃ id, entity.id = some id ∧ (id, some userId, true) ∈ db.outline.preferences := by
  obtain ⟨huser, preference, hmem, hlive, huserId, hentity⟩ := h
  obtain ⟨other, hother, hid⟩ := exists_preference_toDomainEntity now preference none
  cases hentity.symm.trans hother
  exact ⟨huser, preference.id, hid, mem_outline_preferences.mpr ⟨preference, hmem, hlive, huserId, rfl⟩⟩

/-- The text spells the identifier of no live user with a live preference. -/
def LacksPreference (db : Database ids) (text : String) : Prop :=
  ∀ id, ids.read text = some id → ¬ LivePreference db id

theorem NamesNobody.lacksPreference {db : Database ids} {text : String} (h : NamesNobody db text) :
    LacksPreference db text :=
  fun id hread hlive => h id hread hlive.1

theorem preference_findOne_ensures (now : Time) (text : String) (db : Database ids) :
    (user_preference_repository.findOne now { user := some text }).Ensures (step mayFail) db
      (fun found db' => db' = db ∧
        ((∃ entity id, found = some entity ∧ ids.read text = some id ∧ PreferenceRead now db id entity) ∨
          found = none ∧ LacksPreference db text))
      fun _ db' => db' = db ∧ (mayFail ∨ LacksPreference db text) := by
  unfold user_preference_repository.findOne abstract_repository.findOne
  refine Program.Ensures.rethrow (((findPreference_ensures _ db).mono (fun _ _ h => h) ?_).bind
    fun found db' hfound => ?_)
  · rintro _ db' ⟨rfl, hfail | ⟨other, hother, hunread⟩⟩
    · exact ⟨rfl, Or.inl hfail⟩
    · refine ⟨rfl, Or.inr fun id hread => ?_⟩
      cases List.mem_singleton.mp hother
      cases hunread.symm.trans hread
  · obtain ⟨rfl, _, ⟨preference, hpreference, rfl⟩ | ⟨hnone, rfl⟩⟩ := hfound
    · obtain ⟨entity, hentity, _⟩ := exists_preference_toDomainEntity now preference none
      rw [built_ok (mapM_some_ok hentity)]
      obtain ⟨hmem, hlive, _, huser⟩ := mem_preference_matching.mp hpreference
      obtain ⟨id, hread, huserId, hliveUser⟩ := huser text rfl
      exact ⟨rfl, Or.inl ⟨entity, id, rfl, hread, hliveUser, preference, hmem, hlive, huserId, hentity⟩⟩
    · refine ⟨rfl, Or.inr ⟨rfl, ?_⟩⟩
      rintro id hread ⟨hliveUser, ownId, hown⟩
      obtain ⟨preference, hmem, hlive, huserId, _⟩ := mem_outline_preferences.mp hown
      have hfound : preference ∈ PreferenceWhere.matching { user := some text } db' :=
        mem_preference_matching.mpr ⟨hmem, hlive, by simp, by simpa using ⟨id, hread, huserId, hliveUser⟩⟩
      rw [hnone] at hfound
      cases hfound

theorem getByUserId_ensures (clock : Clock) (text : String) (db : Database ids) :
    (user_preference_service.getByUserId clock (some text)).Ensures (step mayFail) db
      (fun preference db' => db' = db ∧
        ∃ id, ids.read text = some id ∧ PreferenceRead (clock 0) db id preference)
      fun _ db' => db' = db ∧ (mayFail ∨ LacksPreference db text) := by
  unfold user_preference_service.getByUserId
  refine Program.Ensures.rethrow (Program.Ensures.bind (preference_findOne_ensures (clock 0) text db) ?_)
  rintro found db' ⟨rfl, ⟨entity, id, rfl, hread, hpreference⟩ | ⟨rfl, hlacks⟩⟩
  · exact ⟨rfl, id, hread, hpreference⟩
  · exact ⟨rfl, Or.inr hlacks⟩

/-- A request that writes takes effect or has none. -/
theorem perform_ensures (call : Call) (db : Database ids) :
    (perform call).Ensures (step mayFail) db (fun reply db' => step mayFail call db (.ok reply) db')
      fun _ db' => db' = db :=
  Program.ensures_perform (fun _ _ hstep => hstep) fun _ _ hstep => unchanged_of_error hstep

/-- A request that violates nothing fails only where requests may fail. -/
theorem perform_sound_ensures (call : Call) {db : Database ids}
    (h : ∀ failure db', step mayFail call db (.error failure) db' → mayFail) :
    (perform call).Ensures (step mayFail) db (fun reply db' => step mayFail call db (.ok reply) db')
      fun _ db' => db' = db ∧ mayFail :=
  Program.ensures_perform (fun _ _ hstep => hstep) fun failure db' hstep =>
    ⟨unchanged_of_error hstep, h failure db' hstep⟩

theorem wrote_of_step {call : Call} {reply : call.Reply} {db db' : Database ids}
    (h : step mayFail call db (.ok reply) db') : Wrote [call] db db' :=
  Performed.one (step_ok_iff.mpr (step_ok_iff.mp h))

/-- The text that is stored for the password of an entity. -/
def Protected (cryptography : Cryptography) (entity : UserEntity) (password : String) : Prop :=
  ∃ plainText, given entity.password = some plainText ∧ protectPassword cryptography plainText = .ok password

theorem create_ensures (clock : Clock) (cryptography : Cryptography) (entity : UserEntity) (db : Database ids) :
    (user_service.create clock cryptography entity).Ensures (step mayFail) db
      (fun created db' => ∃ password, Protected cryptography entity password ∧
        created.id = some db.users.nextId ∧
        Wrote [.insertUser (user_repository.toDatabaseEntity (entity.setPassword password))] db db')
      fun _ db' => db' = db := by
  unfold user_service.create
  apply Program.Ensures.rethrow
  cases hplain : given entity.password with
  | none => exact rfl
  | some plainText =>
    refine Program.Ensures.bind (R := fun password db' => db' = db ∧
      protectPassword cryptography plainText = .ok password)
      (Program.ensures_ofExcept (fun _ hok => ⟨rfl, hok⟩) fun _ _ => rfl) ?_
    rintro password db' ⟨rfl, hpassword⟩
    apply Program.Ensures.bind ((getByEmail_ensures clock _ db').mono (fun _ _ h => h) fun _ _ h => h.1)
    rintro founded db' rfl
    by_cases hfounded : founded.isSome = true
    · rw [if_pos hfounded]
      rfl
    · rw [if_neg hfounded]
      unfold user_repository.create abstract_repository.create
      refine Program.Ensures.bind (R := fun created db'' => created.id = some db'.users.nextId ∧
        Wrote [.insertUser (user_repository.toDatabaseEntity (entity.setPassword password))] db' db'')
        (Program.Ensures.rethrow ((perform_ensures _ db').bind fun reply db'' hstep => ?_))
        fun created db'' h => ⟨password, ⟨plainText, hplain, hpassword⟩, h⟩
      obtain ⟨now, _, _, rfl⟩ := insertUser_effect hstep
      obtain ⟨created, hcreated, hid, _⟩ := exists_toDomainEntity (clock 1)
        ((user_repository.toDatabaseEntity (entity.setPassword password)).row now db'.users.nextId) UserSelect.all none
      rw [built_ok hcreated]
      exact ⟨hid, wrote_of_step hstep⟩

/-- A user that has no preference yet. -/
def NoPreference (db : Database ids) (userId : String) : Prop :=
  ∀ preference ∈ db.preferences.rows, preference.userId ≠ some userId

theorem preference_create_ensures (clock : Clock) {entity : UserPreferenceEntity} {db : Database ids} {userId : String}
    (hentity : entity.userId = some userId) (hlive : LiveUser db userId) (hfresh : NoPreference db userId) :
    (user_preference_service.create clock entity).Ensures (step mayFail) db
      (fun _ db' => Wrote [.insertPreference (user_preference_repository.toDatabaseEntity entity)] db db')
      fun _ db' => db' = db ∧ mayFail := by
  obtain ⟨user, huser, _, rfl⟩ := mem_outline_users.mp hlive
  unfold user_preference_service.create user_preference_repository.create abstract_repository.create
  refine Program.Ensures.rethrow (Program.Ensures.rethrow ((perform_sound_ensures _ fun failure db' hstep =>
    mayFail_of_insertPreference hentity huser hfresh hstep).bind fun reply db' hstep => ?_))
  obtain ⟨now, _, _, rfl⟩ := insertPreference_effect hstep
  obtain ⟨created, hcreated, _⟩ := exists_preference_toDomainEntity (clock 0)
    (((user_preference_repository.toDatabaseEntity entity).stored ids).row now db.preferences.nextId)
    (user_preference_repository.toDatabaseEntity entity).user
  rw [built_ok hcreated]
  exact wrote_of_step hstep

/-- An update of a row that is found again. The writing may be refused, and once it
took effect only a request that fails keeps the update from returning. -/
theorem abstract_update_ensures {Values Entity : Type} {set : String → Promise Nat} {find : Promise (Option Values)}
    {toDomainEntity : Values → Except ErrorInterface Entity} {id : String} {db : Database ids}
    {W R : Database ids → Prop} (hid : id ≠ "")
    (hset : (set id).Ensures (step mayFail) db (fun _ db' => W db') fun _ db' => R db')
    (hfind : ∀ db', W db' → find.Ensures (step mayFail) db'
      (fun found db'' => db'' = db' ∧ ∃ entity, found.mapM toDomainEntity = .ok (some entity))
      fun _ db'' => db'' = db' ∧ mayFail) :
    (abstract_repository.update set find toDomainEntity (some id)).Ensures (step mayFail) db
      (fun found db' => W db' ∧ found.isSome = true) fun _ db' => R db' ∨ mayFail ∧ W db' := by
  unfold abstract_repository.update
  rw [criteria_of_ne hid, Program.done_bind]
  refine Program.Ensures.rethrow (Program.Ensures.bind (hset.mono (fun _ _ h => h) fun _ _ h => Or.inl h) ?_)
  intro _ db' hwritten
  refine Program.Ensures.bind ((hfind db' hwritten).mono (fun _ _ h => h) ?_) ?_
  · rintro _ db'' ⟨rfl, hfail⟩
    exact Or.inr ⟨hfail, hwritten⟩
  · rintro found db'' ⟨rfl, entity, hentity⟩
    rw [built_ok hentity]
    exact ⟨hwritten, rfl⟩

/-- A live user is found by its identifier. -/
theorem findUser_live_ensures (now : Time) {db : Database ids} {id : String} (hlive : LiveUser db id) :
    (perform (.findUser (findOptions { id := some id }))).Ensures (step mayFail) db
      (fun found db' => db' = db ∧ ∃ entity, found.mapM (toDomainEntity now) = .ok (some entity))
      fun _ db' => db' = db ∧ mayFail := by
  have hread := exists_read_of_mem (read_of_liveUser hlive)
  refine (findUser_readable_ensures (findOptions { id := some id }) hread db).mono ?_ fun _ _ h => h
  rintro found db' ⟨rfl, ⟨user, _, rfl⟩ | ⟨hnone, _⟩⟩
  · obtain ⟨entity, hentity, _⟩ := exists_load_toDomainEntity now (findOptions { id := some id }) db' user
    exact ⟨rfl, entity, mapM_some_ok hentity⟩
  · obtain ⟨user, huser, huserLive, rfl⟩ := mem_outline_users.mp hlive
    have hmem : user ∈ (findOptions { id := some user.id }).matching db'.users db'.preferences :=
      (mem_matching rfl).mpr ⟨huser, huserLive, holds_id.mpr (db'.users.read_id huser)⟩
    rw [hnone] at hmem
    cases hmem

theorem findPreference_live_ensures (now : Time) {db : Database ids} {id : String} (hrow : LiveRow db id) :
    (perform (.findPreference { id := some id })).Ensures (step mayFail) db
      (fun found db' => db' = db ∧
        ∃ entity, found.mapM (user_preference_repository.toDomainEntity now) = .ok (some entity))
      fun _ db' => db' = db ∧ mayFail := by
  obtain ⟨userId, hline⟩ := hrow
  refine (findPreference_ensures _ db).mono ?_ ?_
  · rintro found db' ⟨rfl, _, ⟨other, _, rfl⟩ | ⟨hnone, _⟩⟩
    · obtain ⟨entity, hentity, _⟩ := exists_preference_toDomainEntity now other none
      exact ⟨rfl, entity, mapM_some_ok hentity⟩
    · obtain ⟨preference, hmem, hlive, _, rfl⟩ := mem_outline_preferences.mp hline
      have hread : ids.read preference.id = some preference.id := db'.preferences.read_id hmem
      have hfound : preference ∈ PreferenceWhere.matching { id := some preference.id } db' :=
        mem_preference_matching.mpr ⟨hmem, hlive, by simpa using hread, by simp⟩
      rw [hnone] at hfound
      cases hfound
  · rintro _ db' ⟨rfl, hfail | ⟨text, htext, hunread⟩⟩
    · exact ⟨rfl, hfail⟩
    · cases List.mem_singleton.mp htext
      cases hunread.symm.trans (read_of_preference hline)

/-- What an update of a user writes. -/
def userUpdate (clock : Clock) (cryptography : Cryptography) (data : UserInput) (id : String) : Option Call := do
  let entity ← (user_entity.construct (clock 0) data.userValues).toOption
  let password ← (protectGiven cryptography entity.password).toOption
  return .updateUser id (user_service.updatedColumns entity password)

/-- What an update of a preference writes. -/
def preferenceUpdate (clock : Clock) (data : PreferenceInput) (id : String) : Option Call := do
  let entity ← (user_preference_entity.construct (clock 0) data.values).toOption
  return .updatePreference id (user_preference_service.updatedColumns entity)

theorem update_ensures (clock : Clock) (cryptography : Cryptography) (data : UserInput) {id : String}
    {db : Database ids}
    (hlive : LiveUser db id) :
    (user_service.update clock cryptography (some id) data).Ensures (step mayFail) db
      (fun _ db' => (userUpdate clock cryptography data id).isSome = true ∧
        Wrote (userUpdate clock cryptography data id).toList db db')
      fun _ db' => db' = db ∨ mayFail ∧ Wrote (userUpdate clock cryptography data id).toList db db' := by
  have hid : id ≠ "" := ne_empty_of_liveUser hlive
  unfold user_service.update
  obtain ⟨entity, hentity, _⟩ := construct_eq_ok (clock 0) data.userValues rfl
  rw [built_ok hentity]
  apply Program.Ensures.rethrow
  refine Program.Ensures.bind (R := fun password db' => db' = db ∧
    protectGiven cryptography entity.password = .ok password)
    (Program.ensures_ofExcept (fun _ hok => ⟨rfl, hok⟩) fun _ _ => Or.inl rfl) ?_
  rintro password db' ⟨rfl, hpassword⟩
  have hwrite : userUpdate clock cryptography data id =
      some (.updateUser id (user_service.updatedColumns entity password)) := by
    unfold userUpdate
    rw [hentity]
    change (do let password ← (protectGiven cryptography entity.password).toOption; _) = _
    rw [hpassword]
    rfl
  rw [hwrite, Option.toList_some]
  refine Program.Ensures.bind (((abstract_update_ensures
    (W := fun db'' => Wrote [.updateUser id (user_service.updatedColumns entity password)] db' db'' ∧
      LiveUser db'' id) (R := fun db'' => db'' = db') hid
    ((perform_ensures _ db').mono (fun _ db'' hstep => ⟨wrote_of_step hstep, liveUser_of_keeps (.user rfl) hstep hlive⟩)
      fun _ _ h => h) fun db'' h => findUser_live_ensures (clock 1) h.2).mono (fun _ _ h => h) ?_)) ?_
  · rintro _ db'' (hsame | ⟨hfail, hwrote, _⟩)
    · exact Or.inl hsame
    · exact Or.inr ⟨hfail, hwrote⟩
  · rintro found db'' ⟨⟨hwrote, _⟩, hsome⟩
    obtain ⟨updated, rfl⟩ := Option.isSome_iff_exists.mp hsome
    exact ⟨rfl, hwrote⟩

theorem preference_update_ensures (clock : Clock) (data : PreferenceInput) {id : String} {db : Database ids}
    (hrow : LiveRow db id) : (user_preference_service.update clock (some id) data).Ensures (step mayFail) db
      (fun _ db' => (preferenceUpdate clock data id).isSome = true ∧
        Wrote (preferenceUpdate clock data id).toList db db')
      fun _ db' => (db' = db ∧ (mayFail ∨ ∃ text ∈ data.defaultTheme, ¬ IsTheme text)) ∨
        mayFail ∧ Wrote (preferenceUpdate clock data id).toList db db' := by
  have hread : ids.read id = some id := by
    obtain ⟨_, hline⟩ := hrow
    exact read_of_preference hline
  have hid : id ≠ "" := UuidSource.ne_empty_of_read hread
  unfold user_preference_service.update
  by_cases htheme : ∀ text ∈ data.defaultTheme, IsTheme text
  · obtain ⟨entity, hentity⟩ := exists_construct (clock 0) data.values htheme
    rw [built_ok hentity, Program.done_bind]
    have hwrite : preferenceUpdate clock data id =
        some (.updatePreference id (user_preference_service.updatedColumns entity)) := by
      unfold preferenceUpdate
      rw [hentity]
      rfl
    rw [hwrite, Option.toList_some]
    refine Program.Ensures.rethrow (Program.Ensures.bind ((abstract_update_ensures
      (W := fun db' =>
        Wrote [.updatePreference id (user_preference_service.updatedColumns entity)] db db' ∧
          LiveRow db' id)
      (R := fun db' => db' = db ∧ mayFail) hid
      ((perform_sound_ensures (.updatePreference id (user_preference_service.updatedColumns entity))
        fun failure db' hstep => mayFail_of_modify_preferences
          (f := (user_preference_service.updatedColumns entity).change) (fun _ _ => rfl) (fun _ _ => rfl)
          (fun _ _ => rfl) hstep (exists_read_of_mem hread)).mono
        (fun _ db' hstep => ⟨wrote_of_step hstep, liveRow_of_keeps (.preference rfl rfl) hstep hrow⟩) fun _ _ h => h)
      ?_).mono (fun _ _ h => h) ?_) ?_)
    · exact fun _ h => findPreference_live_ensures (clock 1) h.2
    · rintro _ db' (⟨hsame, hfail⟩ | ⟨hfail, hwrote, _⟩)
      · exact Or.inl ⟨hsame, Or.inl hfail⟩
      · exact Or.inr ⟨hfail, hwrote⟩
    · rintro found db' ⟨⟨hwrote, _⟩, hsome⟩
      obtain ⟨updated, rfl⟩ := Option.isSome_iff_exists.mp hsome
      exact ⟨rfl, hwrote⟩
  · refine Program.Ensures.bind (R := fun _ _ => False) (built_ensures (fun entity hentity => ?_) fun _ _ => ?_) ?_
    · exact htheme (isTheme_of_construct hentity)
    · push Not at htheme
      exact Or.inl ⟨rfl, Or.inr htheme⟩
    · exact fun _ _ h => h.elim

/-- The soft deletion of a preference, which nothing refuses. -/
theorem preference_delete_ensures {id : String} (hread : ids.read id = some id) (db : Database ids) :
    (user_preference_service.delete (some id) true).Ensures (step mayFail) db
      (fun _ db' => Wrote [.softDeletePreference id] db db') fun _ db' => db' = db ∧ mayFail := by
  unfold user_preference_service.delete user_preference_repository.deleteOne abstract_repository.deleteOne remove
  rw [if_pos rfl, criteria_of_ne (UuidSource.ne_empty_of_read hread)]
  refine Program.Ensures.rethrow (Program.Ensures.rethrow (Program.Ensures.bind (perform_sound_ensures
    (.softDeletePreference id) fun failure db' hstep => mayFail_of_modify_preferences
      (f := UserPreferencesModel.softDelete) (fun _ _ => rfl) (fun _ _ => rfl) (fun _ _ => rfl) hstep
      (exists_read_of_mem hread)) ?_))
  exact fun _ _ hstep => wrote_of_step hstep

/-- Some of the requests, the first ones, took effect. -/
def PrefixOf (writes : List Call) (db db' : Database ids) : Prop :=
  ∃ performed, performed <+: writes ∧ Wrote performed db db'

theorem PrefixOf.refl (writes : List Call) (db : Database ids) : PrefixOf writes db db :=
  ⟨[], List.nil_prefix, .nil db⟩

theorem PrefixOf.of_wrote {writes : List Call} {db db' : Database ids} (h : Wrote writes db db') :
    PrefixOf writes db db' :=
  ⟨writes, List.prefix_rfl, h⟩

theorem PrefixOf.left {first : List Call} {db db' : Database ids} (h : PrefixOf first db db') (second : List Call) :
    PrefixOf (first ++ second) db db' := by
  obtain ⟨performed, hinitial, hwrote⟩ := h
  exact ⟨performed, hinitial.trans (List.prefix_append first second), hwrote⟩

theorem PrefixOf.after {first second : List Call} {db db' db'' : Database ids} (hsecond : PrefixOf second db' db'')
    (hfirst : Wrote first db db') : PrefixOf (first ++ second) db db'' := by
  obtain ⟨performed, hinitial, hwrote⟩ := hsecond
  exact ⟨first ++ performed, (List.prefix_append_right_inj first).mpr hinitial, hfirst.append hwrote⟩

/-- The writes that delete a user. -/
def userDeletion (id agentUserId : String) : List Call :=
  [.updateUser id { deletedBy := some (some agentUserId) }, .softDeleteUser id]

theorem delete_ensures {id : String} {db : Database ids} (hlive : LiveUser db id) (agentUserId : String) :
    (user_service.delete (some id) true (some agentUserId)).Ensures (step mayFail) db
      (fun deleted db' => deleted = true ∧ Wrote (userDeletion id agentUserId) db db')
      fun _ db' => mayFail ∧ PrefixOf (userDeletion id agentUserId) db db' := by
  have hread := read_of_liveUser hlive
  have hid : id ≠ "" := ne_empty_of_liveUser hlive
  unfold user_service.delete user_repository.deleteOne remove
  rw [criteria_of_ne hid, Program.done_bind]
  refine Program.Ensures.rethrow (Program.Ensures.rethrow (Program.Ensures.bind ((perform_sound_ensures
    (.updateUser id { deletedBy := some (some agentUserId) }) fun failure db' hstep => mayFail_of_modify_users
      (f := fun now => UserColumns.change { deletedBy := some (some agentUserId) } now)
      (fun _ _ => rfl) (fun _ _ => rfl) (fun _ _ => rfl) hstep (exists_read_of_mem hread)).mono
        (fun _ _ h => h) ?_) ?_))
  · rintro _ db' ⟨rfl, hfail⟩
    exact ⟨hfail, PrefixOf.refl _ db'⟩
  · intro _ db' hstep
    have hfirst := wrote_of_step hstep
    rw [if_pos rfl, criteria_of_ne hid, Program.done_bind]
    refine Program.Ensures.bind ((perform_sound_ensures (.softDeleteUser id) fun failure db'' hstep' =>
      mayFail_of_modify_users (f := UsersModel.softDelete) (fun _ _ => rfl) (fun _ _ => rfl) (fun _ _ => rfl) hstep'
        (exists_read_of_mem hread)).mono (fun _ _ h => h) ?_) ?_
    · rintro _ db'' ⟨rfl, hfail⟩
      exact ⟨hfail, (PrefixOf.of_wrote hfirst).left _⟩
    · intro reply db'' hstep'
      obtain ⟨_, _, _, _, _, rfl⟩ := softDeleteUser_effect hstep'
      obtain ⟨user, huser, _, rfl⟩ := mem_outline_users.mp (liveUser_of_keeps (.user rfl) hstep hlive)
      have haffected := Table.affected_pos huser
      change 0 < db'.users.affected user.id at haffected
      exact ⟨bne_iff_ne.mpr haffected.ne', hfirst.append (wrote_of_step hstep')⟩

end node_backend.user_specs
