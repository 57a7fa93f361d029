import NodeBackend.User.Specs

namespace node_backend.user_usecases

open js store program
open node_backend.exceptions node_backend.user_database node_backend.user_models node_backend.user_query
open node_backend.user_entity node_backend.user_preference_entity node_backend.user_service
open node_backend.abstract_repository node_backend.user_repository node_backend.user_specs node_backend.user_strategy

variable {ids : UuidSource} {mayFail : Prop}

/-- The theme of an input, if it has one, is a theme. -/
def ThemeAllowed (data : UserInput) : Prop :=
  ∀ preference ∈ data.preference, ∀ text ∈ preference.defaultTheme, IsTheme text

/-- The insert of the user that a creation makes. -/
def newUserWrite (clock : Clock) (cryptography : Cryptography) (data : UserInput) : Option Call := do
  let newUser ← (user_entity.construct (clock 0) data.userValues).toOption
  let userPassword ← given newUser.password
  let password ← (protectPassword cryptography userPassword).toOption
  return .insertUser (user_repository.toDatabaseEntity (newUser.setPassword password))

theorem newUserWrite_eq {clock : Clock} {cryptography : Cryptography} {data : UserInput} {newUser : UserEntity}
    {password : String} (hnewUser : user_entity.construct (clock 0) data.userValues = .ok newUser)
    (hpassword : Protected cryptography newUser password) : newUserWrite clock cryptography data =
      some (.insertUser (user_repository.toDatabaseEntity (newUser.setPassword password))) := by
  obtain ⟨plainText, hplain, hprotected⟩ := hpassword
  unfold newUserWrite
  rw [hnewUser]
  change (do let userPassword ← given newUser.password; _) = _
  rw [hplain]
  change (do let password ← (protectPassword cryptography plainText).toOption; _) = _
  rw [hprotected]
  rfl

/-- The insert of the preference that goes with it. -/
def newPreferenceWrite (clock : Clock) (data : UserInput) (userId : String) : Option Call := do
  let newPreference ← (user_preference_entity.construct (clock 4) (newPreferenceValues data)).toOption
  return .insertPreference (user_preference_repository.toDatabaseEntity (newPreference.setUserId userId))

/-- The writes of a creation, in their order. -/
def createWrites (clock : Clock) (cryptography : Cryptography) (data : UserInput) (userId : String) : List Call :=
  (newUserWrite clock cryptography data).toList ++ (newPreferenceWrite clock data userId).toList

/-- The write of an update to the user. -/
def userWrites (clock : Clock) (cryptography : Cryptography) (user : UserEntity) (data : UserInput) (id : String) :
    List Call :=
  if mustUpdate .nothing user.getAttributes data.attributes then
    (userUpdate (fun n => clock (n + 2)) cryptography data id).toList
  else []

/-- The write of an update to the preference. -/
def preferenceWrites (clock : Clock) (preference : UserPreferenceEntity) (data : Option PreferenceInput) (id : String) :
    List Call :=
  data.toList.flatMap fun data =>
    if mustUpdate .nothing preference.getAttributes data.attributes then
      (preferenceUpdate (fun n => clock (n + 4)) data id).toList
    else []

/-- The writes of an update, in their order: of what differs from what it reads. -/
def UpdateWrites (clock : Clock) (cryptography : Cryptography) (id : String) (data : UserInput) (db : Database ids)
    (writes : List Call) : Prop :=
  ∃ user preference preferenceId, UserRead (clock 0) db id user ∧ PreferenceRead (clock 1) db id preference ∧
    preference.id = some preferenceId ∧
    writes = userWrites clock cryptography user data id ++
      preferenceWrites clock preference data.preference preferenceId

/-- What an update that returns has done: all that differs is written. -/
def Updated (clock : Clock) (cryptography : Cryptography) (id : String) (data : UserInput) (db db' : Database ids) :
    Prop :=
  ∃ user preference preferenceId, UserRead (clock 0) db id user ∧ PreferenceRead (clock 1) db id preference ∧
    preference.id = some preferenceId ∧
    (mustUpdate .nothing user.getAttributes data.attributes = true →
      (userUpdate (fun n => clock (n + 2)) cryptography data id).isSome = true) ∧
    (∀ input ∈ data.preference, mustUpdate .nothing preference.getAttributes input.attributes = true →
      (preferenceUpdate (fun n => clock (n + 4)) input preferenceId).isSome = true) ∧
    Wrote (userWrites clock cryptography user data id ++ preferenceWrites clock preference data.preference preferenceId)
      db db'

theorem Updated.writes {clock : Clock} {cryptography : Cryptography} {id : String} {data : UserInput}
    {db db' : Database ids} (h : Updated clock cryptography id data db db') :
    ∃ writes, UpdateWrites clock cryptography id data db writes ∧ Wrote writes db db' := by
  obtain ⟨user, preference, preferenceId, huser, hpreference, hid, _, _, hwrote⟩ := h
  exact ⟨_, ⟨user, preference, preferenceId, huser, hpreference, hid, rfl⟩, hwrote⟩

/-- The writes of a deletion, in their order. -/
def DeleteWrites (clock : Clock) (id clientId : String) (db : Database ids) (writes : List Call) : Prop :=
  ∃ preference preferenceId, PreferenceRead (clock 1) db id preference ∧ preference.id = some preferenceId ∧
    writes = .softDeletePreference preferenceId :: userDeletion id clientId

/-- Reading a user with the preference. Both readings are of one user, since no
identifier is spelled by the empty text. -/
theorem readBoth_ensures (clock : Clock) (text : String) (db : Database ids) :
    (readBoth clock (some text)).Ensures (step mayFail) db
      (fun both db' => db' = db ∧ ∃ id, ids.read text = some id ∧ UserRead (clock 0) db id both.1 ∧
        PreferenceRead (clock 1) db id both.2)
      fun _ db' => db' = db ∧ (mayFail ∨ LacksPreference db text) := by
  have huser : (user_service.getById clock (some text)).Ensures (step mayFail) db
      (fun user db' => db' = db ∧ ∃ id, (text ≠ "" → ids.read text = some id) ∧ UserRead (clock 0) db id user)
      fun _ db' => db' = db ∧ (mayFail ∨ LacksPreference db text) := by
    apply (getById_ensures clock text db).mono (fun _ _ h => h)
    intro _ db' h
    exact ⟨h.1, h.2.imp_right NamesNobody.lacksPreference⟩
  apply (Program.Ensures.all huser (getByUserId_ensures (fun n => clock (n + 1)) text db)).mono _ fun _ _ h => h
  rintro ⟨user, preference⟩ db' ⟨rfl, ⟨id, hasked, huser⟩, ⟨other, hread, hpreference⟩⟩
  have hsame : ids.read text = some id := hasked (UuidSource.ne_empty_of_read hread)
  cases hread.symm.trans hsame
  exact ⟨rfl, id, hread, huser, hpreference⟩

/-- The entity is what a user and the preference are read as, put together. -/
def Reread (clock : Clock) (db : Database ids) (id : String) (entity : UserEntity) : Prop :=
  ∃ user preference, UserRead (clock 0) db id user ∧ PreferenceRead (clock 1) db id preference ∧
    entity = user.setPreference preference

theorem Reread.live {clock : Clock} {db : Database ids} {id : String} {entity : UserEntity}
    (h : Reread clock db id entity) : entity.id = some id ∧ LivePreference db id := by
  obtain ⟨user, preference, huser, hpreference, rfl⟩ := h
  obtain ⟨hlive, preferenceId, _, hown⟩ := hpreference.live
  exact ⟨huser.live.1, hlive, preferenceId, hown⟩

theorem reread_ensures (clock : Clock) (text : String) (db : Database ids) :
    (reread clock (some text)).Ensures (step mayFail) db
      (fun user db' => db' = db ∧ ∃ id, ids.read text = some id ∧ Reread clock db id user)
      fun _ db' => db' = db ∧ (mayFail ∨ LacksPreference db text) := by
  unfold reread
  apply Program.Ensures.bind (readBoth_ensures clock text db)
  rintro ⟨user, preference⟩ db' ⟨rfl, id, hread, huser, hpreference⟩
  exact ⟨rfl, id, hread, user, preference, huser, hpreference, rfl⟩

/-- A live user with a live preference is read again by its own identifier, unless
requests fail. -/
theorem reread_own_ensures (clock : Clock) {id : String} {db : Database ids} (hlive : LivePreference db id) :
    (reread clock (some id)).Ensures (step mayFail) db (fun user db' => db' = db ∧ Reread clock db id user)
      fun _ db' => db' = db ∧ mayFail := by
  have hown := read_of_liveUser hlive.1
  apply (reread_ensures clock id db).mono
  · rintro user db' ⟨rfl, other, hread, huser⟩
    cases hown.symm.trans hread
    exact ⟨rfl, huser⟩
  · rintro _ db' ⟨rfl, hfail | hlacks⟩
    · exact ⟨rfl, hfail⟩
    · exact absurd hlive (hlacks id hown)

/-- A user just inserted is live and has no preference, since none can name it
before. -/
theorem newUser_inserted {columns : UserColumns} (hcolumns : columns.deletedAt = none) {db db' : Database ids}
    (h : Wrote [.insertUser columns] db db') : LiveUser db' db.users.nextId ∧ NoPreference db' db.users.nextId := by
  constructor
  · unfold LiveUser
    rw [insertUser_outline hcolumns h]
    exact List.mem_append_right _ (List.mem_singleton.mpr rfl)
  · cases h with
    | cons reply hstep hrest =>
      cases hrest
      obtain ⟨_, _, hpreferences, _⟩ := insertUser_effect hstep
      intro preference hpreference huserId
      rw [hpreferences] at hpreference
      obtain ⟨other, hother, hid⟩ := db.refers preference hpreference db.users.nextId huserId
      exact db.users.id_ne_nextId hother hid

theorem newPreference_inserted {columns : PreferenceColumns} (hcolumns : columns.deletedAt = none)
    {db db' : Database ids}
    {userId : String} (hlive : LiveUser db userId) (huserId : columns.user = some userId)
    (h : Wrote [.insertPreference columns] db db') : LivePreference db' userId := by
  unfold LivePreference LiveUser
  rw [insertPreference_outline hcolumns h, PreferenceColumns.stored_of_own huserId (read_of_liveUser hlive), huserId]
  exact ⟨hlive, db.preferences.nextId, List.mem_append_right _ (List.mem_singleton.mpr rfl)⟩

theorem newPreferenceValues_isTheme {data : UserInput} (h : ThemeAllowed data) :
    ∀ text ∈ (newPreferenceValues data).defaultTheme, IsTheme text := by
  unfold newPreferenceValues
  cases hpreference : data.preference with
  | none => simp
  | some preference => exact h preference hpreference

theorem newPreferenceValues_deletedAt (data : UserInput) : (newPreferenceValues data).deletedAt = none := by
  unfold newPreferenceValues
  cases data.preference <;> rfl

/-- The preference of a user that has none yet is refused only for its theme. -/
theorem addPreference_ensures (clock : Clock) (data : UserInput) {db : Database ids} {userId : String}
    (hlive : LiveUser db userId) (hfresh : NoPreference db userId) :
    (addPreference clock data (some userId)).Ensures (step mayFail) db
      (fun user db' => Reread (fun n => clock (n + 6)) db' userId user ∧
        (newPreferenceWrite clock data userId).isSome = true ∧
        Wrote (newPreferenceWrite clock data userId).toList db db')
      fun _ db' => (mayFail ∨ ¬ ThemeAllowed data) ∧ PrefixOf (newPreferenceWrite clock data userId).toList db db' := by
  have hid : userId ≠ "" := ne_empty_of_liveUser hlive
  unfold addPreference
  refine Program.Ensures.bind (R := fun newPreference db' => db' = db ∧
    user_preference_entity.construct (clock 4) (newPreferenceValues data) = .ok newPreference)
    (built_ensures (fun _ hok => ⟨rfl, hok⟩) fun error herror => ?_) ?_
  · refine ⟨Or.inr fun hallowed => ?_, PrefixOf.refl _ db⟩
    obtain ⟨newPreference, hnewPreference⟩ := exists_construct (clock 4) _ (newPreferenceValues_isTheme hallowed)
    rw [hnewPreference] at herror
    cases herror
  · rintro newPreference db' ⟨rfl, hnewPreference⟩
    have hnamed := newPreference.setUserId_of_ne hid
    have hwith : withUserId newPreference (some userId) = .ok { newPreference with userId := some userId } :=
      congrArg Except.ok hnamed
    have hwrite : newPreferenceWrite clock data userId = some (.insertPreference
        (user_preference_repository.toDatabaseEntity { newPreference with userId := some userId })) := by
      unfold newPreferenceWrite
      rw [hnewPreference, ← hnamed]
      rfl
    have hdeleted : newPreference.deletedAt = none :=
      (construct_deletedAt hnewPreference).trans (newPreferenceValues_deletedAt data)
    rw [hwith, Program.ofExcept_ok, Program.done_bind, hwrite, Option.toList_some]
    refine Program.Ensures.bind ((preference_create_ensures _ rfl hlive hfresh).mono (fun _ _ h => h) ?_) ?_
    · rintro _ db'' ⟨rfl, hfail⟩
      exact ⟨Or.inl hfail, PrefixOf.refl _ db''⟩
    · intro _ db'' hwrote
      apply (reread_own_ensures _ (newPreference_inserted hdeleted hlive rfl hwrote)).mono
      · rintro _ _ ⟨rfl, hread⟩
        exact ⟨hread, rfl, hwrote⟩
      · rintro _ _ ⟨rfl, hfail⟩
        exact ⟨Or.inl hfail, PrefixOf.of_wrote hwrote⟩

/-- A creation returns with both of its writes done. It throws with none done, or
after the first ones where requests may fail or the theme is none. -/
theorem createUser_ensures (clock : Clock) (cryptography : Cryptography) (data : UserInput)
    (agentUser : Option UserAuthInterface) (db : Database ids) :
    (createUser clock cryptography data agentUser).Ensures (step mayFail) db
      (fun user db' => Reread (fun n => clock (n + 6)) db' db.users.nextId user ∧
        (newUserWrite clock cryptography data).isSome = true ∧
        (newPreferenceWrite clock data db.users.nextId).isSome = true ∧
        Wrote (createWrites clock cryptography data db.users.nextId) db db')
      fun _ db' => db' = db ∨ (mayFail ∨ ¬ ThemeAllowed data) ∧
        PrefixOf (createWrites clock cryptography data db.users.nextId) db db' := by
  unfold createUser
  cases clientId? agentUser with
  | none => exact Or.inl rfl
  | some clientId =>
    obtain ⟨newUser, hnewUser, _⟩ := construct_eq_ok (clock 0) data.userValues rfl
    have hdeleted : newUser.deletedAt = none := by
      cases hnewUser
      rfl
    rw [built_ok hnewUser, Program.done_bind]
    apply Program.Ensures.bind ((getByEmail_ensures _ _ db).mono (fun _ _ h => h) fun _ _ h => Or.inl h.1)
    rintro existentUser db' rfl
    by_cases hexistent : existentUser.isSome = true
    · rw [if_pos hexistent]
      exact Or.inl rfl
    rw [if_neg hexistent]
    refine Program.Ensures.bind ((create_ensures _ cryptography newUser db').mono (fun _ _ h => h)
      fun _ _ h => Or.inl h) ?_
    rintro createdUser db₁ ⟨password, hpassword, hid, hfirst⟩
    obtain ⟨hlive, hfresh⟩ := newUser_inserted hdeleted hfirst
    unfold createWrites
    rw [hid, newUserWrite_eq hnewUser hpassword, Option.toList_some]
    apply (addPreference_ensures clock data hlive hfresh).mono
    · exact fun _ _ hsecond => ⟨hsecond.1, rfl, hsecond.2.1, hfirst.append hsecond.2.2⟩
    · exact fun _ _ hthrown => Or.inr ⟨hthrown.1, hthrown.2.after hfirst⟩

theorem userUpdate_keeps {clock : Clock} {cryptography : Cryptography} {data : UserInput} {id : String} :
    ∀ call ∈ (userUpdate clock cryptography data id).toList, Keeps call := by
  intro call hcall
  obtain ⟨entity, hentity, _⟩ := construct_eq_ok (clock 0) data.userValues rfl
  unfold userUpdate at hcall
  rw [hentity] at hcall
  obtain ⟨_, _, hcall⟩ := Option.bind_eq_some_iff.mp (Option.mem_toList.mp hcall)
  obtain ⟨password, _, hwrite⟩ := Option.bind_eq_some_iff.mp hcall
  cases hwrite
  exact .user rfl

theorem preferenceUpdate_keeps {clock : Clock} {data : PreferenceInput} {id : String} :
    ∀ call ∈ (preferenceUpdate clock data id).toList, Keeps call := by
  intro call hcall
  obtain ⟨entity, _, hwrite⟩ := Option.bind_eq_some_iff.mp (Option.mem_toList.mp hcall)
  cases hwrite
  exact .preference rfl rfl

theorem userWrites_keeps {clock : Clock} {cryptography : Cryptography} {user : UserEntity} {data : UserInput}
    {id : String} : ∀ call ∈ userWrites clock cryptography user data id, Keeps call := by
  intro call hcall
  unfold userWrites at hcall
  split at hcall
  · exact userUpdate_keeps call hcall
  · cases hcall

theorem preferenceWrites_keeps {clock : Clock} {preference : UserPreferenceEntity} {data : Option PreferenceInput}
    {id : String} : ∀ call ∈ preferenceWrites clock preference data id, Keeps call := by
  intro call hcall
  obtain ⟨preferenceData, _, hcall⟩ := List.mem_flatMap.mp hcall
  split at hcall
  · exact preferenceUpdate_keeps call hcall
  · cases hcall

theorem writeUser_ensures (clock : Clock) (cryptography : Cryptography) (data : UserInput) {user : UserEntity}
    {id : String} {db : Database ids} (hid : user.id = some id) (hlive : LiveUser db id) :
    (writeUser clock cryptography user data).Ensures (step mayFail) db
      (fun _ db' => (mustUpdate .nothing user.getAttributes data.attributes = true →
          (userUpdate (fun n => clock (n + 2)) cryptography data id).isSome = true) ∧
        Wrote (userWrites clock cryptography user data id) db db')
      fun _ db' => db' = db ∨ mayFail ∧ Wrote (userWrites clock cryptography user data id) db db' := by
  unfold writeUser userWrites
  split
  · rw [hid]
    exact Program.Ensures.bind (update_ensures _ cryptography data hlive) fun _ _ hwrote =>
      ⟨fun _ => hwrote.1, hwrote.2⟩
  · rename_i hmust
    exact ⟨fun h => absurd h hmust, .nil db⟩

theorem writePreference_of_must (clock : Clock) {preference : UserPreferenceEntity} {input : PreferenceInput}
    (h : mustUpdate .nothing preference.getAttributes input.attributes = true) :
    writePreference clock preference (some input) = (do
      let _ ← user_preference_service.update (fun n => clock (n + 4)) preference.id input
      return ()) :=
  if_pos h

theorem writePreference_of_not (clock : Clock) {preference : UserPreferenceEntity} {input : PreferenceInput}
    (h : ¬ mustUpdate .nothing preference.getAttributes input.attributes = true) :
    writePreference clock preference (some input) = pure () :=
  if_neg h

theorem writePreference_ensures (clock : Clock) {preference : UserPreferenceEntity} (data : Option PreferenceInput)
    {id : String} {db : Database ids} (hid : preference.id = some id) (hrow : LiveRow db id) :
    (writePreference clock preference data).Ensures (step mayFail) db
      (fun _ db' => (∀ input ∈ data, mustUpdate .nothing preference.getAttributes input.attributes = true →
          (preferenceUpdate (fun n => clock (n + 4)) input id).isSome = true) ∧
        Wrote (preferenceWrites clock preference data id) db db')
      fun _ db' => (mayFail ∨ ¬ ∀ input ∈ data, ∀ text ∈ input.defaultTheme, IsTheme text) ∧
        PrefixOf (preferenceWrites clock preference data id) db db' := by
  cases data with
  | none => exact ⟨by simp, Performed.nil db⟩
  | some input =>
    unfold preferenceWrites
    rw [Option.toList_some, List.flatMap_singleton]
    by_cases hmust : mustUpdate .nothing preference.getAttributes input.attributes = true
    · rw [if_pos hmust, writePreference_of_must clock hmust, hid]
      refine Program.Ensures.bind ((preference_update_ensures _ input hrow).mono (fun _ _ h => h) ?_)
        fun _ _ hwrote => ⟨by simpa using fun _ => hwrote.1, hwrote.2⟩
      rintro _ db' (⟨rfl, hfail | ⟨text, htext, hnone⟩⟩ | ⟨hfail, hwrote⟩)
      · exact ⟨Or.inl hfail, PrefixOf.refl _ db'⟩
      · exact ⟨Or.inr fun hall => hnone (hall input rfl text htext), PrefixOf.refl _ db'⟩
      · exact ⟨Or.inl hfail, PrefixOf.of_wrote hwrote⟩
    · rw [if_neg hmust, writePreference_of_not clock hmust]
      exact ⟨by simp [hmust], Performed.nil db⟩

theorem clientId_eq_some {agentUser : Option UserAuthInterface} {clientId : String}
    (h : clientId? agentUser = some clientId) : ∃ agent, agentUser = some agent ∧ agent.clientId = some clientId := by
  obtain ⟨hbind, _⟩ := Option.filter_eq_some_iff.mp h
  exact Option.bind_eq_some_iff.mp hbind

theorem validatePermission_ensures (action : String) (agent : UserAuthInterface) (user : UserEntity)
    (db : Database ids) : (validatePermission action agent user).Ensures (step mayFail) db
      (fun _ db' => db' = db) fun _ db' => db' = db := by
  unfold validatePermission
  split
  · rfl
  · rfl

/-- What an update or a deletion has read once the agent is allowed to manage the
user. -/
structure Managed (clock : Clock) (db : Database ids) (id : String) (user : UserEntity)
    (preference : UserPreferenceEntity) (preferenceId : String) : Prop where
  userRead : UserRead (clock 0) db id user
  user_id : user.id = some id
  live : LiveUser db id
  preferenceRead : PreferenceRead (clock 1) db id preference
  preference_id : preference.id = some preferenceId
  own : (preferenceId, some id, true) ∈ db.outline.preferences

theorem managed_ensures {A : Type} {clock : Clock} {text action : String} {agent : UserAuthInterface}
    {db : Database ids} {next : UserEntity → UserPreferenceEntity → Promise A} {returned : A → Database ids → Prop}
    {thrown : Failure → Database ids → Prop} (hthrown : ∀ failure, thrown failure db)
    (hnext : ∀ id user preference preferenceId, ids.read text = some id →
      Managed clock db id user preference preferenceId →
      (next user preference).Ensures (step mayFail) db returned thrown) :
    (do
      let user ← user_service.getById clock (some text)
      let preference ← user_preference_service.getByUserId (fun n => clock (n + 1)) (some text)
      let _ ← validatePermission action agent user
      next user preference).Ensures (step mayFail) db returned thrown := by
  have hkept : ∀ {P : Prop} (failure : Failure) (db' : Database ids), db' = db ∧ P → thrown failure db' := by
    rintro _ failure _ ⟨rfl, _⟩
    exact hthrown failure
  apply Program.Ensures.bind ((getById_ensures clock text db).mono (fun _ _ h => h) hkept)
  rintro user _ ⟨rfl, other, hasked, huser⟩
  apply Program.Ensures.bind ((getByUserId_ensures _ text _).mono (fun _ _ h => h) hkept)
  rintro preference _ ⟨rfl, id, hread, hpreference⟩
  have hsame := hasked (UuidSource.ne_empty_of_read hread)
  obtain rfl : id = other := Option.some.inj (hread.symm.trans hsame)
  obtain ⟨hlive, preferenceId, hid, hown⟩ := hpreference.live
  refine Program.Ensures.bind ((validatePermission_ensures action agent user _).mono (fun _ _ h => h) ?_) ?_
  · exact fun failure db' h => hkept failure db' ⟨h, trivial⟩
  · rintro _ _ rfl
    exact hnext id user preference preferenceId hread ⟨huser, huser.live.1, hlive, hpreference, hid, hown⟩

/-- An update returns with its writes done. It throws with none done, or after the
first ones where requests may fail or the theme is none. -/
theorem updateUser_ensures (clock : Clock) (cryptography : Cryptography) (text : String) (data : UserInput)
    (agentUser : Option UserAuthInterface) (db : Database ids) :
    (updateUser clock cryptography text data agentUser).Ensures (step mayFail) db
      (fun user db' => ∃ id, ids.read text = some id ∧ Updated clock cryptography id data db db' ∧
        Reread (fun n => clock (n + 6)) db' id user)
      fun _ db' => db' = db ∨ (mayFail ∨ ¬ ThemeAllowed data) ∧
        ∃ id writes, ids.read text = some id ∧ UpdateWrites clock cryptography id data db writes ∧
          PrefixOf writes db db' := by
  unfold updateUser
  cases agentUser with
  | none => exact Or.inl rfl
  | some agent =>
    cases clientId? (some agent) with
    | none => exact Or.inl rfl
    | some clientId =>
      apply managed_ensures (fun _ => Or.inl rfl)
      intro id user preference preferenceId hread hmanaged
      have hwrites : UpdateWrites clock cryptography id data db (userWrites clock cryptography user data id ++
          preferenceWrites clock preference data.preference preferenceId) :=
        ⟨user, preference, preferenceId, hmanaged.userRead, hmanaged.preferenceRead, hmanaged.preference_id, rfl⟩
      refine Program.Ensures.bind
        ((writeUser_ensures clock cryptography data hmanaged.user_id hmanaged.live).mono (fun _ _ h => h) ?_) ?_
      · rintro _ db₁ (hsame | ⟨hfail, hfirst⟩)
        · exact Or.inl hsame
        · exact Or.inr ⟨Or.inl hfail, id, _, hread, hwrites, (PrefixOf.of_wrote hfirst).left _⟩
      rintro _ db₁ ⟨hfirstMade, hfirst⟩
      have houtline := outline_eq_of_keeps hfirst userWrites_keeps
      have hrow : LiveRow db₁ preferenceId := by
        unfold LiveRow
        rw [houtline]
        exact ⟨some id, hmanaged.own⟩
      refine Program.Ensures.bind
        ((writePreference_ensures clock data.preference hmanaged.preference_id hrow).mono (fun _ _ h => h) ?_) ?_
      · exact fun _ db₂ hthrown => Or.inr ⟨hthrown.1, id, _, hread, hwrites, hthrown.2.after hfirst⟩
      rintro _ db₂ ⟨hsecondMade, hsecond⟩
      have hboth : LivePreference db₂ id := by
        unfold LivePreference LiveUser
        rw [outline_eq_of_keeps hsecond preferenceWrites_keeps, houtline]
        exact ⟨hmanaged.live, preferenceId, hmanaged.own⟩
      rw [hmanaged.user_id]
      apply (reread_own_ensures _ hboth).mono
      · rintro _ _ ⟨rfl, huser⟩
        exact ⟨id, hread, ⟨user, preference, preferenceId, hmanaged.userRead, hmanaged.preferenceRead,
          hmanaged.preference_id, hfirstMade, hsecondMade, hfirst.append hsecond⟩, huser⟩
      · rintro _ _ ⟨rfl, hfail⟩
        exact Or.inr ⟨Or.inl hfail, id, _, hread, hwrites, PrefixOf.of_wrote (hfirst.append hsecond)⟩

/-- A deletion returns with its writes done. It throws with none done, or after the
first ones where requests may fail. -/
theorem deleteUser_ensures (clock : Clock) (text : String) (agentUser : Option UserAuthInterface) (db : Database ids) :
    (deleteUser clock text agentUser).Ensures (step mayFail) db
      (fun _ db' => ∃ clientId id writes, clientId? agentUser = some clientId ∧ ids.read text = some id ∧
        DeleteWrites clock id clientId db writes ∧ Wrote writes db db')
      fun _ db' => db' = db ∨ mayFail ∧ ∃ clientId id writes, clientId? agentUser = some clientId ∧
        ids.read text = some id ∧ DeleteWrites clock id clientId db writes ∧ PrefixOf writes db db' := by
  unfold deleteUser
  cases agentUser with
  | none => exact Or.inl rfl
  | some agent =>
    cases hclientId : clientId? (some agent) with
    | none => exact Or.inl rfl
    | some clientId =>
      apply managed_ensures (fun _ => Or.inl rfl)
      intro id user preference preferenceId hread hmanaged
      have hwrites : DeleteWrites clock id clientId db
          ([.softDeletePreference preferenceId] ++ userDeletion id clientId) :=
        ⟨preference, preferenceId, hmanaged.preferenceRead, hmanaged.preference_id, rfl⟩
      obtain ⟨_, hagent, hagentId⟩ := clientId_eq_some hclientId
      cases hagent
      have hown := read_of_preference hmanaged.own
      rw [hmanaged.preference_id, hmanaged.user_id, hagentId]
      refine Program.Ensures.bind
        ((preference_delete_ensures hown db).mono (fun _ _ h => h) fun _ _ h => Or.inl h.1) ?_
      intro _ db₁ hfirst
      have hstill : LiveUser db₁ id := by
        unfold LiveUser
        rw [softDeletePreference_outline hown hfirst]
        exact hmanaged.live
      refine Program.Ensures.bind ((delete_ensures hstill clientId).mono (fun _ _ h => h) ?_) ?_
      · exact fun _ db₂ hthrown => Or.inr ⟨hthrown.1, clientId, id, _, rfl, hread, hwrites, hthrown.2.after hfirst⟩
      · rintro _ db₂ ⟨rfl, hsecond⟩
        exact ⟨clientId, id, _, rfl, hread, hwrites, hfirst.append hsecond⟩

/-- A user is got if and only if it is live with a live preference, unless requests
fail. -/
theorem getUser_ensures (clock : Clock) (text : String) {agentUser : Option UserAuthInterface} {clientId : String}
    (hclientId : clientId? agentUser = some clientId) (db : Database ids) :
    (getUser clock text agentUser).Ensures (step mayFail) db
      (fun user db' => db' = db ∧ ∃ id, ids.read text = some id ∧ user.id = some id ∧ LivePreference db id)
      fun _ db' => db' = db ∧ (mayFail ∨ LacksPreference db text) := by
  unfold getUser
  rw [hclientId]
  apply Program.Ensures.bind (reread_ensures clock text db)
  rintro _ db' ⟨rfl, id, hread, huser⟩
  exact ⟨rfl, id, hread, huser.live⟩

end node_backend.user_usecases
