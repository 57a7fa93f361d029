import NodeBackend.User.Requests

namespace node_backend.user_requests

open js store program
open node_backend.exceptions node_backend.user_database node_backend.user_models node_backend.user_outline
open node_backend.user_entity node_backend.user_preference_entity node_backend.user_repository
open node_backend.user_service node_backend.user_specs node_backend.user_strategy node_backend.user_usecases

variable {ids : UuidSource} {db db' : Database ids}

theorem newUserWrite_some {clock : Clock} {cryptography : Cryptography} {data : UserInput} {call : Call}
    (h : newUserWrite clock cryptography data = some call) :
    ∃ columns, call = .insertUser columns ∧ columns.deletedAt = none := by
  obtain ⟨newUser, hnewUser, _⟩ := construct_eq_ok (clock 0) data.userValues rfl
  have hdeletedAt : newUser.deletedAt = none := by
    cases hnewUser
    rfl
  unfold newUserWrite at h
  rw [hnewUser] at h
  obtain ⟨_, hbuilt, h⟩ := Option.bind_eq_some_iff.mp h
  obtain ⟨_, _, h⟩ := Option.bind_eq_some_iff.mp h
  obtain ⟨password, _, hcall⟩ := Option.bind_eq_some_iff.mp h
  cases hbuilt
  cases hcall
  exact ⟨_, rfl, hdeletedAt⟩

theorem newPreferenceWrite_some {clock : Clock} {data : UserInput} {userId : String} {call : Call} (hid : userId ≠ "")
    (h : newPreferenceWrite clock data userId = some call) :
    ∃ columns, call = .insertPreference columns ∧ columns.deletedAt = none ∧ columns.user = some userId := by
  unfold newPreferenceWrite at h
  cases hnewPreference : user_preference_entity.construct (clock 4) (newPreferenceValues data) with
  | error e =>
    rw [hnewPreference] at h
    cases h
  | ok newPreference =>
    rw [hnewPreference] at h
    cases h
    rw [newPreference.setUserId_of_ne hid]
    exact ⟨_, rfl, (construct_deletedAt hnewPreference).trans (newPreferenceValues_deletedAt data), rfl⟩

/-- A creation adds a user and a preference of it. -/
theorem createWrites_outline {clock : Clock} {cryptography : Cryptography} {data : UserInput}
    (hfirst : (newUserWrite clock cryptography data).isSome = true)
    (hsecond : (newPreferenceWrite clock data db.users.nextId).isSome = true)
    (h : Wrote (createWrites clock cryptography data db.users.nextId) db db') :
    ∃ preferenceId, db'.outline =
      (db.outline.addUser db.users.nextId).addPreference preferenceId (some db.users.nextId) := by
  obtain ⟨first, hfirst⟩ := Option.isSome_iff_exists.mp hfirst
  obtain ⟨second, hsecond⟩ := Option.isSome_iff_exists.mp hsecond
  unfold createWrites at h
  rw [hfirst, hsecond] at h
  obtain ⟨columns, rfl, hdeletedAt⟩ := newUserWrite_some hfirst
  obtain ⟨preferenceColumns, rfl, hpreferenceDeletedAt, huser⟩ := newPreferenceWrite_some (ids.nonempty _) hsecond
  cases h with
  | cons reply hstep hrest =>
    have houtline := insertPreference_outline hpreferenceDeletedAt hrest
    rw [insertUser_outline hdeletedAt (Performed.one hstep), PreferenceColumns.stored_of_own huser (ids.own _),
      huser] at houtline
    exact ⟨_, houtline⟩

/-- A deletion retires a user with the preference. -/
theorem deleteWrites_outline {clock : Clock} {id clientId : String} {writes : List Call}
    (hwrites : DeleteWrites clock id clientId db writes) (h : Wrote writes db db') :
    ∃ preferenceId, (preferenceId, some id, true) ∈ db.outline.preferences ∧
      db'.outline = (db.outline.retirePreference preferenceId).retireUser id := by
  obtain ⟨preference, preferenceId, hread, hid, rfl⟩ := hwrites
  obtain ⟨hlive, otherId, hother, hown⟩ := hread.live
  cases hid.symm.trans hother
  refine ⟨preferenceId, hown, ?_⟩
  cases h with
  | cons reply hstep hrest =>
    cases hrest with
    | cons reply' hstep' hrest' =>
      have hpreference := softDeletePreference_outline (read_of_preference hown) (.one hstep)
      rw [softDeleteUser_outline (read_of_liveUser hlive) hrest', (Keeps.user rfl).outline_eq hstep', hpreference]

theorem updateWrites_outline {clock : Clock} {cryptography : Cryptography} {id : String} {data : UserInput}
    {writes : List Call} (hwrites : UpdateWrites clock cryptography id data db writes) (h : Wrote writes db db') :
    db'.outline = db.outline := by
  obtain ⟨user, preference, preferenceId, _, _, _, rfl⟩ := hwrites
  apply outline_eq_of_keeps h
  intro call hcall
  obtain huser | hpreference := List.mem_append.mp hcall
  · exact userWrites_keeps call huser
  · exact preferenceWrites_keeps call hpreference

/-- Where only constraints make requests fail, users and preferences stay paired,
whether a request returns or throws. -/
theorem execute_paired (request : Request) (hallowed : request.action.ThemeAllowed) (hpaired : db.outline.Paired) :
    request.execute.Ensures (step False) db (fun _ db' => db'.outline.Paired) fun _ db' => db'.outline.Paired := by
  have hthrown : ∀ {P : Prop} {other : Database ids}, other = db ∨ (False ∨ ¬ request.action.ThemeAllowed) ∧ P →
      other.outline.Paired := by
    rintro P other (rfl | ⟨hfail | hnone, _⟩)
    · exact hpaired
    · exact hfail.elim
    · exact absurd hallowed hnone
  obtain ⟨clock, cryptography, agentUser, action⟩ := request
  cases action with
  | create data =>
    refine Program.Ensures.bind ((createUser_ensures clock cryptography data agentUser db).mono (fun _ _ h => h)
      fun _ _ h => hthrown h) ?_
    rintro _ db' ⟨_, hfirst, hsecond, hwrote⟩
    obtain ⟨preferenceId, houtline⟩ := createWrites_outline hfirst hsecond hwrote
    change db'.outline.Paired
    rw [houtline]
    exact hpaired.add _ preferenceId
  | update id data =>
    refine Program.Ensures.bind ((updateUser_ensures clock cryptography id data agentUser db).mono (fun _ _ h => h)
      fun _ _ h => hthrown h) ?_
    rintro _ db' ⟨_, _, hupdated, _⟩
    obtain ⟨writes, hwrites, hwrote⟩ := hupdated.writes
    change db'.outline.Paired
    rw [updateWrites_outline hwrites hwrote]
    exact hpaired
  | delete id =>
    refine (deleteUser_ensures clock id agentUser db).mono ?_ fun _ _ h =>
      hthrown (h.imp_right fun h => ⟨Or.inl h.1, h.2⟩)
    rintro _ db' ⟨clientId, _, writes, _, _, hwrites, hwrote⟩
    obtain ⟨preferenceId, hown, houtline⟩ := deleteWrites_outline hwrites hwrote
    rw [houtline]
    exact hpaired.retire (outline_distinct db) hown

/-- A request with an input that the schemas accept, and a world where only
constraints make requests to the database fail. -/
structure Turn where
  request : Request
  world : World
  allowed : request.action.ThemeAllowed
  sound : world.Sound

def serve (db : Database ids) (turn : Turn) : Database ids :=
  (run turn.world turn.request.execute db).2

theorem run_sound {A : Type} {world : World} (hsound : world.Sound) {promise : Promise A}
    {returned : A → Database ids → Prop} {thrown : Failure → Database ids → Prop}
    (h : promise.Ensures (step False) db returned thrown) :
    (∃ a, (run world promise db).1 = .ok a ∧ returned a (run world promise db).2) ∨
      ∃ e, (run world promise db).1 = .error e ∧ thrown e (run world promise db).2 := by
  refine h.runFrom (fun n call db => ?_) 0
  unfold World.exec
  rw [hsound n]
  exact Or.inr ⟨world.engine n, world.clock n, rfl⟩

theorem serve_paired (turn : Turn) (h : db.outline.Paired) : (serve db turn).outline.Paired := by
  obtain ⟨_, _, hpaired⟩ | ⟨_, _, hpaired⟩ := run_sound turn.sound (execute_paired turn.request turn.allowed h)
  · exact hpaired
  · exact hpaired

/-- The tables after requests that are served one after another, from empty ones. -/
def serveAll (turns : List Turn) : Database ids :=
  turns.foldl serve Database.empty

theorem serveAll_paired (turns : List Turn) : (serveAll turns : Database ids).outline.Paired := by
  suffices h : ∀ db : Database ids, db.outline.Paired → (turns.foldl serve db).outline.Paired from
    h Database.empty Outline.empty_paired
  induction turns with
  | nil => exact fun _ h => h
  | cons turn turns ih => exact fun db h => ih (serve db turn) (serve_paired turn h)

theorem livePreference_iff (h : db.outline.Paired) {id : String} :
    LivePreference db id ↔ ∃ user ∈ db.users.rows, user.live = true ∧ user.id = id := by
  constructor
  · exact fun hlive => mem_outline_users.mp hlive.1
  · exact fun huser => ⟨mem_outline_users.mpr huser, h.preference id true (mem_outline_users.mpr huser)⟩

theorem existsUnique_preference (h : db.outline.Paired) {user : UsersModel} (huser : user ∈ db.users.rows)
    (hlive : user.live = true) :
    ∃! preference, preference ∈ db.preferences.rows ∧ preference.live = true ∧ preference.userId = some user.id := by
  obtain ⟨id, hown⟩ := h.preference user.id true (mem_outline_users.mpr ⟨user, huser, hlive, rfl⟩)
  obtain ⟨preference, hpreference, hpreferenceLive, huserId, _⟩ := mem_outline_preferences.mp hown
  refine ⟨preference, ⟨hpreference, hpreferenceLive, huserId⟩, ?_⟩
  rintro other ⟨hother, _, hotherUserId⟩
  exact db.preferences.eq_of_unique_eq hother hpreference hotherUserId huserId

/-- The text spells the identifier of a live user with a live preference. -/
theorem not_lacksPreference_iff (h : db.outline.Paired) {text : String} :
    ¬ LacksPreference db text ↔ ∃ user ∈ db.users.rows, user.live = true ∧ ids.read text = some user.id := by
  unfold LacksPreference
  push Not
  constructor
  · rintro ⟨id, hread, hlive⟩
    obtain ⟨user, huser, huserLive, rfl⟩ := (livePreference_iff h).mp hlive
    exact ⟨user, huser, huserLive, hread⟩
  · rintro ⟨user, huser, hlive, hread⟩
    exact ⟨user.id, hread, (livePreference_iff h).mpr ⟨user, huser, hlive, rfl⟩⟩

/-- GetUserUseCase.execute returns exactly for what spells the identifier of a live
user. -/
theorem getUser_returns_iff (h : db.outline.Paired) {world : World} (hsound : world.Sound) (clock : Clock) (id : String)
    {agentUser : Option UserAuthInterface} (hclientId : clientId? agentUser ≠ none) :
    (∃ user, (run world (getUser clock id agentUser) db).1 = .ok user) ↔
      ∃ user ∈ db.users.rows, user.live = true ∧ ids.read id = some user.id := by
  obtain ⟨clientId, hclientId⟩ := Option.ne_none_iff_exists'.mp hclientId
  rw [← not_lacksPreference_iff h]
  obtain ⟨user, hok, _, userId, hread, _, hlive⟩ | ⟨_, herror, _, hfail | hlacks⟩ :=
    run_sound hsound (getUser_ensures clock id hclientId db)
  · exact iff_of_true ⟨user, hok⟩ fun hlacks => hlacks userId hread hlive
  · exact hfail.elim
  · refine iff_of_false ?_ fun hnot => hnot hlacks
    rintro ⟨user, hok⟩
    cases herror.symm.trans hok

/-- In every state that requests lead to, live users and live preferences belong
together one to one, and so every live user, and nobody else, is got, by any spelling
of the identifier. -/
theorem serveAll_wellPaired (turns : List Turn) :
    (∀ user ∈ (serveAll turns : Database ids).users.rows, user.live = true →
      ∃! preference, preference ∈ (serveAll turns : Database ids).preferences.rows ∧ preference.live = true ∧
        preference.userId = some user.id) ∧
    (∀ preference ∈ (serveAll turns : Database ids).preferences.rows, preference.live = true →
      ∃ user ∈ (serveAll turns : Database ids).users.rows, user.live = true ∧ preference.userId = some user.id) ∧
    ∀ (world : World) (clock : Clock) (id : String) (agentUser : Option UserAuthInterface), world.Sound →
      clientId? agentUser ≠ none →
      ((∃ user, (run world (getUser clock id agentUser) (serveAll turns : Database ids)).1 = .ok user) ↔
        ∃ user ∈ (serveAll turns : Database ids).users.rows, user.live = true ∧ ids.read id = some user.id) := by
  have hpaired : (serveAll turns : Database ids).outline.Paired := serveAll_paired turns
  refine ⟨fun user huser hlive => existsUnique_preference hpaired huser hlive, ?_, ?_⟩
  · intro preference hpreference hlive
    obtain ⟨id, huserId, huser⟩ := hpaired.user preference.id preference.userId true
      (mem_outline_preferences.mpr ⟨preference, hpreference, hlive, rfl, rfl⟩)
    obtain ⟨user, hmem, huserLive, rfl⟩ := mem_outline_users.mp huser
    exact ⟨user, hmem, huserLive, huserId⟩
  · exact fun world clock id agentUser hsound hclientId => getUser_returns_iff hpaired hsound clock id hclientId

/-- A world where nothing fails. -/
def faultless : World where
  engine := fun _ => user_query.Engine.stable
  clock := fun _ => Time.epoch
  fault := fun _ => none

theorem faultless_sound : faultless.Sound :=
  fun _ => rfl

def newcomerTurn : Turn where
  request := newcomer
  world := faultless
  allowed := by simp [newcomer, Action.ThemeAllowed, user_usecases.ThemeAllowed]
  sound := faultless_sound

theorem serveAll_wellPaired_newcomer :
    ∃ user, (run faultless (getUser (fun _ => Time.epoch) "0" newcomer.agentUser)
      (serveAll [newcomerTurn] : Database UuidSource.counting)).1 = .ok user :=
  ((serveAll_wellPaired [newcomerTurn]).2.2 faultless (fun _ => Time.epoch) "0" newcomer.agentUser faultless_sound
    (by decide)).mpr ⟨_, List.mem_singleton.mpr rfl, rfl, rfl⟩

end node_backend.user_requests
