import NodeBackend.User.Pairing
import NodeBackend.User.Schemas

namespace node_backend.user_strategy

open js
open node_backend.user_entity node_backend.user_preference_entity node_backend.user_service

theorem hasValueChanged_text {stored wanted : Option String} :
    hasValueChanged .nothing (.value (optionalText stored)) (optionalText wanted) = false ↔
      ∀ text ∈ wanted, stored = some text := by
  cases wanted with
  | none => simp [optionalText, hasValueChanged]
  | some text =>
    cases stored with
    | none => simp [optionalText, hasValueChanged, strictEquals]
    | some other => simpa [optionalText, hasValueChanged, strictEquals] using eq_comm

/-- Texts that are not missing replace what is stored. -/
theorem or_eq_of_unchanged (stored : Option String) {wanted : Option String} (h : ∀ text ∈ wanted, stored = some text) :
    wanted.or stored = stored := by
  cases wanted with
  | none => rfl
  | some text => exact (h text rfl).symm

theorem getD_eq_of_unchanged {wanted : Option String} {stored : String} (h : ∀ text ∈ wanted, some stored = some text) :
    wanted.getD stored = stored := by
  cases wanted with
  | none => rfl
  | some text => exact (Option.some.inj (h text rfl)).symm

/-- Where nothing must be updated, the fields of the input are the entity's. -/
structure Unchanged (entity : UserEntity) (data : UserInput) : Prop where
  fullName : ∀ text ∈ data.fullName, entity.fullName = some text
  email : ∀ text ∈ data.email, entity.email = some text
  password : ∀ text ∈ data.password, entity.password = some text
  phone : ∀ text ∈ data.phone, entity.phone = some text
  docType : ∀ text ∈ data.docType, entity.docType = some text
  document : ∀ text ∈ data.document, entity.document = some text
  fu : ∀ text ∈ data.fu, entity.fu = some text

theorem unchanged_of_not_mustUpdate {entity : UserEntity} {data : UserInput}
    (h : mustUpdate .nothing entity.getAttributes data.attributes = false) : Unchanged entity data := by
  have hfields : anyUpdated .nothing (.value entity.getAttributes)
      [("fullName", optionalText data.fullName), ("email", optionalText data.email),
        ("password", optionalText data.password), ("phone", optionalText data.phone),
        ("docType", optionalText data.docType), ("document", optionalText data.document),
        ("fu", optionalText data.fu), ("preference", data.preference.elim .undefined PreferenceInput.attributes)] =
      false := h
  simp only [anyUpdated, Bool.or_eq_false_iff] at hfields
  obtain ⟨hfullName, hemail, hpassword, hphone, hdocType, hdocument, hfu, _⟩ := hfields
  exact ⟨hasValueChanged_text.mp hfullName, hasValueChanged_text.mp hemail, hasValueChanged_text.mp hpassword,
    hasValueChanged_text.mp hphone, hasValueChanged_text.mp hdocType, hasValueChanged_text.mp hdocument,
    hasValueChanged_text.mp hfu⟩

theorem preference_unchanged_of_not_mustUpdate {entity : UserPreferenceEntity} {data : PreferenceInput}
    (h : mustUpdate .nothing entity.getAttributes data.attributes = false) :
    (∀ text ∈ data.imagePath, entity.imagePath = some text) ∧
      ∀ text ∈ data.defaultTheme, entity.defaultTheme.map ThemesEnum.text = some text := by
  have hfields : anyUpdated .nothing (.value entity.getAttributes)
      [("imagePath", optionalText data.imagePath), ("defaultTheme", optionalText data.defaultTheme)] = false := h
  simp only [anyUpdated, Bool.or_eq_false_iff] at hfields
  obtain ⟨himagePath, htheme, _⟩ := hfields
  exact ⟨hasValueChanged_text.mp himagePath, hasValueChanged_text.mp htheme⟩

end node_backend.user_strategy

namespace node_backend.user_requests

open js store program
open node_backend.exceptions node_backend.user_database node_backend.user_models node_backend.user_repository
open node_backend.user_entity node_backend.user_preference_entity node_backend.user_schemas
open node_backend.user_service node_backend.user_specs node_backend.user_strategy node_backend.user_usecases

variable {ids : UuidSource} {db db' : Database ids}

/-- A row of Users with the fields of an input that are not missing. -/
def updatedUser (data : UserInput) (password : Option String) (time : Time) (row : UsersModel) : UsersModel :=
  { row with
    fullName := data.fullName.getD row.fullName
    email := data.email.getD row.email
    password := password.getD row.password
    phone := data.phone.or row.phone
    docType := data.docType.or row.docType
    document := data.document.or row.document
    fu := data.fu.or row.fu
    updatedAt := time }

/-- A row of UserPreferences with the fields of an input that are not missing. -/
def updatedPreference (data : Option PreferenceInput) (theme : Option ThemesEnum) (time : Time)
    (row : UserPreferencesModel) : UserPreferencesModel :=
  { row with
    imagePath := (data.bind PreferenceInput.imagePath).or row.imagePath
    defaultTheme := theme.or row.defaultTheme
    updatedAt := time }

theorem protectGiven_eq {cryptography : Cryptography} {password : Option String} (h : ∀ text ∈ password, text ≠ "") :
    protectGiven cryptography password = password.mapM (protectPassword cryptography) := by
  cases password with
  | none => rfl
  | some text =>
    unfold protectGiven
    rw [user_query.given_of_ne (h text rfl), Option.mapM_some]
    rfl

theorem userUpdate_eq (clock : Clock) (cryptography : Cryptography) (data : UserInput) (id : String) :
    userUpdate clock cryptography data id = (protectGiven cryptography data.password).toOption.map fun password =>
      .updateUser id
        { fullName := data.fullName, email := data.email, password := password, phone := data.phone
          docType := data.docType, document := data.document, fu := data.fu } := by
  change (do let password ← (protectGiven cryptography data.password).toOption; _) = _
  cases (protectGiven cryptography data.password).toOption <;> rfl

theorem eq_ok_of_toOption {E A : Type} {outcome : Except E A} {a : A} (h : outcome.toOption = some a) :
    outcome = .ok a := by
  cases outcome with
  | error e => cases h
  | ok b =>
    cases h
    rfl

theorem preferenceUpdate_some {clock : Clock} {data : PreferenceInput} {id : String} {call : Call}
    (h : preferenceUpdate clock data id = some call) :
    ∃ theme : Option ThemesEnum, theme.map ThemesEnum.text = data.defaultTheme ∧
      call = .updatePreference id { imagePath := data.imagePath, defaultTheme := theme } := by
  obtain ⟨entity, hentity, hcall⟩ := Option.bind_eq_some_iff.mp h
  cases hcall
  have hconstruct := eq_ok_of_toOption hentity
  cases htheme : data.defaultTheme with
  | none =>
    unfold user_preference_entity.construct PreferenceInput.values at hconstruct
    rw [htheme] at hconstruct
    cases hconstruct
    exact ⟨none, rfl, rfl⟩
  | some text =>
    obtain ⟨theme, rfl⟩ := isTheme_of_construct hconstruct text htheme
    unfold user_preference_entity.construct PreferenceInput.values at hconstruct
    rw [htheme, Option.mapM_some, setDefaultTheme_text] at hconstruct
    cases hconstruct
    exact ⟨some theme, rfl, rfl⟩

/-- A row that an update with these columns leaves as it is. -/
theorem updatedUser_of_unchanged {data : UserInput} {row : UsersModel} {preference : UserPreferenceEntity}
    (h : Unchanged (shownUser row ⟨false, true, true⟩ preference) data) :
    data.password = none ∧ updatedUser data none row.updatedAt row = row := by
  constructor
  · cases hpassword : data.password with
    | none => rfl
    | some text => cases h.password text hpassword
  · unfold updatedUser
    rw [getD_eq_of_unchanged h.fullName, getD_eq_of_unchanged h.email, or_eq_of_unchanged row.phone h.phone,
      or_eq_of_unchanged row.docType h.docType, or_eq_of_unchanged row.document h.document,
      or_eq_of_unchanged row.fu h.fu, Option.getD_none]

/-- A row is changed, where no other one has its identifier. -/
theorem map_eq_self {Row : Type} [Record Row] (table : Table ids Row) {row : Row} (hrow : row ∈ table.rows)
    {change : Row → Row} (hchange : change row = row) :
    (table.rows.map fun other => if Record.id other = Record.id row then change other else other) = table.rows := by
  refine (List.map_congr_left fun other hother => ?_).trans (List.map_id _)
  split
  · rename_i hid
    rw [table.eq_of_id_eq hother hrow hid]
    exact hchange
  · rfl

/-- The rows of Users once an update wrote what differs. -/
theorem userWrites_rows {clock : Clock} {cryptography : Cryptography} {data : UserInput} {row : UsersModel}
    {preference : UserPreferenceEntity} (hrow : row ∈ db.users.rows) (hpassword : ∀ text ∈ data.password, text ≠ "")
    (hmade : mustUpdate .nothing (shownUser row ⟨false, true, true⟩ preference).getAttributes data.attributes = true →
      (userUpdate (fun n => clock (n + 2)) cryptography data row.id).isSome = true)
    (h : Wrote (userWrites clock cryptography (shownUser row ⟨false, true, true⟩ preference) data row.id) db db') :
    db'.preferences = db.preferences ∧ ∃ password time,
      data.password.mapM (protectPassword cryptography) = .ok password ∧
      db'.users.rows = db.users.rows.map fun other =>
        if other.id = row.id then updatedUser data password time other else other := by
  unfold userWrites at h
  cases hmust : mustUpdate .nothing (shownUser row ⟨false, true, true⟩ preference).getAttributes data.attributes with
  | false =>
    rw [hmust] at h
    cases h
    obtain ⟨hnone, hsame⟩ := updatedUser_of_unchanged (unchanged_of_not_mustUpdate hmust)
    refine ⟨rfl, none, row.updatedAt, by rw [hnone]; rfl, ?_⟩
    exact (map_eq_self db.users hrow hsame).symm
  | true =>
    rw [hmust, if_pos rfl] at h
    obtain ⟨call, hcall⟩ := Option.isSome_iff_exists.mp (hmade hmust)
    rw [hcall] at h
    rw [userUpdate_eq, protectGiven_eq hpassword] at hcall
    obtain ⟨password, hprotected, rfl⟩ := Option.map_eq_some_iff.mp hcall
    cases h with
    | cons reply hstep hrest =>
      cases hrest
      obtain ⟨id, time, hread, hrows, hpreferences⟩ := updateUser_effect hstep
      obtain rfl : row.id = id := Option.some.inj ((db.users.read_id hrow).symm.trans hread)
      exact ⟨hpreferences, password, time, eq_ok_of_toOption hprotected, hrows⟩

/-- The rows of UserPreferences once an update wrote what differs. -/
theorem preferenceWrites_rows {clock : Clock} {data : Option PreferenceInput} {row : UserPreferencesModel}
    {user : Option String} (hrow : row ∈ db.preferences.rows)
    (hmade : ∀ input ∈ data, mustUpdate .nothing (shownPreference row user).getAttributes input.attributes = true →
      (preferenceUpdate (fun n => clock (n + 4)) input row.id).isSome = true)
    (h : Wrote (preferenceWrites clock (shownPreference row user) data row.id) db db') :
    db'.users = db.users ∧ ∃ (theme : Option ThemesEnum) (time : Time),
      theme.map ThemesEnum.text = data.bind PreferenceInput.defaultTheme ∧
      db'.preferences.rows = db.preferences.rows.map fun other =>
        if other.id = row.id then updatedPreference data theme time other else other := by
  unfold preferenceWrites at h
  cases data with
  | none =>
    cases h
    exact ⟨rfl, none, row.updatedAt, rfl, (map_eq_self db.preferences hrow rfl).symm⟩
  | some input =>
    rw [Option.toList_some, List.flatMap_singleton] at h
    cases hmust : mustUpdate .nothing (shownPreference row user).getAttributes input.attributes with
    | false =>
      rw [hmust] at h
      cases h
      obtain ⟨himagePath, htheme⟩ := preference_unchanged_of_not_mustUpdate hmust
      have hstored : (shownPreference row user).defaultTheme = row.defaultTheme := rfl
      rw [hstored] at htheme
      refine ⟨rfl, input.defaultTheme.bind fun _ => row.defaultTheme, row.updatedAt, ?_, ?_⟩
      · cases hinput : input.defaultTheme with
        | none => simp [hinput]
        | some text => simpa [hinput] using htheme text hinput
      · have hkept : (input.defaultTheme.bind fun _ => row.defaultTheme).or row.defaultTheme = row.defaultTheme := by
          cases input.defaultTheme <;> simp
        refine (map_eq_self db.preferences hrow ?_).symm
        unfold updatedPreference
        rw [Option.bind_some, or_eq_of_unchanged row.imagePath himagePath, hkept]
    | true =>
      rw [hmust, if_pos rfl] at h
      obtain ⟨call, hcall⟩ := Option.isSome_iff_exists.mp (hmade input rfl hmust)
      rw [hcall] at h
      obtain ⟨theme, htheme, rfl⟩ := preferenceUpdate_some hcall
      cases h with
      | cons reply hstep hrest =>
        cases hrest
        obtain ⟨id, time, hread, hrows, husers⟩ := updatePreference_effect hstep
        obtain rfl : row.id = id := Option.some.inj ((db.preferences.read_id hrow).symm.trans hread)
        exact ⟨husers, theme, time, htheme, hrows⟩

/-- The entity shows the row of a user, without the password, and the row of the
preference. -/
structure Shows (user : UsersModel) (preference : UserPreferencesModel) (entity : UserEntity) : Prop where
  id : entity.id = some user.id
  fullName : entity.fullName = some user.fullName
  email : entity.email = some user.email
  password : entity.password = none
  phone : entity.phone = user.phone
  docType : entity.docType = user.docType
  document : entity.document = user.document
  fu : entity.fu = user.fu
  createdAt : entity.createdAt = user.createdAt
  updatedAt : entity.updatedAt = some user.updatedAt
  preference : ∃ shown, entity.preference = some shown ∧ shown.id = some preference.id ∧
    shown.imagePath = preference.imagePath ∧ shown.defaultTheme = preference.defaultTheme

/-- What is read of a row is what it shows. -/
theorem userRead_shown {now : Time} {row : UsersModel} {entity : UserEntity} (hrow : row ∈ db.users.rows)
    (hread : UserRead now db row.id entity) :
    ∃ preference, entity = shownUser row ⟨false, true, true⟩ preference := by
  obtain ⟨other, hother, _, hsame, hentity⟩ := hread
  cases db.users.eq_of_id_eq hother hrow hsame
  cases (toDomainEntity_load now row ⟨false, true, true⟩ _).symm.trans hentity
  exact ⟨_, rfl⟩

theorem preferenceRead_shown {now : Time} {userId : String} {entity : UserPreferenceEntity}
    (hread : PreferenceRead now db userId entity) : ∃ row ∈ db.preferences.rows, row.live = true ∧
      row.userId = some userId ∧ entity = shownPreference row none := by
  obtain ⟨_, row, hrow, hlive, huserId, hentity⟩ := hread
  cases (construct_preference_load now row none).symm.trans hentity
  exact ⟨row, hrow, hlive, huserId, rfl⟩

theorem shows_of_reread {clock : Clock} {row : UsersModel} {preference : UserPreferencesModel} {entity : UserEntity}
    (hrow : row ∈ db.users.rows) (hpreference : preference ∈ db.preferences.rows)
    (huserId : preference.userId = some row.id) (h : Reread clock db row.id entity) : Shows row preference entity := by
  obtain ⟨user, preferenceEntity, huser, hread, rfl⟩ := h
  obtain ⟨joined, rfl⟩ := userRead_shown hrow huser
  obtain ⟨other, hother, _, hotherUserId, rfl⟩ := preferenceRead_shown hread
  cases db.preferences.eq_of_unique_eq hother hpreference hotherUserId huserId
  exact ⟨rfl, rfl, rfl, rfl, rfl, rfl, rfl, rfl, rfl, rfl, _, rfl, rfl, rfl, rfl⟩

theorem updated_live {clock : Clock} {cryptography : Cryptography} {id : String} {data : UserInput}
    (h : Updated clock cryptography id data db db') : ∃ row ∈ db.users.rows, row.live = true ∧ row.id = id := by
  obtain ⟨_, _, _, _, hpreference, _⟩ := h
  exact mem_outline_users.mp hpreference.live.1

/-- The rows of both tables once an update has returned. -/
theorem updated_rows {clock : Clock} {cryptography : Cryptography} {data : UserInput}
    (hpassword : ∀ text ∈ data.password, text ≠ "") {row : UsersModel} (hrow : row ∈ db.users.rows)
    (h : Updated clock cryptography row.id data db db') :
    ∃ preference ∈ db.preferences.rows, preference.live = true ∧ preference.userId = some row.id ∧
      ∃ (password : Option String) (theme : Option ThemesEnum) (time time' : Time),
        data.password.mapM (protectPassword cryptography) = .ok password ∧
        theme.map ThemesEnum.text = data.preference.bind PreferenceInput.defaultTheme ∧
        (db'.users.rows = db.users.rows.map fun other =>
          if other.id = row.id then updatedUser data password time other else other) ∧
        (db'.preferences.rows = db.preferences.rows.map fun other =>
          if other.id = preference.id then updatedPreference data.preference theme time' other else other) := by
  obtain ⟨user, preferenceEntity, preferenceId, huser, hpreference, hid, huserMade, hpreferenceMade, hwrote⟩ := h
  obtain ⟨joined, rfl⟩ := userRead_shown hrow huser
  obtain ⟨preference, hmem, hlive, huserId, rfl⟩ := preferenceRead_shown hpreference
  cases hid
  obtain ⟨between, hfirst, hsecond⟩ := hwrote.split
  obtain ⟨hsame, password, time, hprotected, husers⟩ := userWrites_rows hrow hpassword huserMade hfirst
  rw [← hsame] at hmem
  obtain ⟨hsameUsers, theme, time', htheme, hpreferences⟩ := preferenceWrites_rows hmem hpreferenceMade hsecond
  rw [hsame] at hmem hpreferences
  rw [← hsameUsers] at husers
  exact ⟨preference, hmem, hlive, huserId, password, theme, time, time', hprotected, htheme, husers, hpreferences⟩

/-- Effect and frame of an update that returns: in the row of the user and in the row
of the preference the fields of the input are replaced, the password by a protected
form of it, no other row is changed, and the entity shows the new values. -/
theorem updateUser_changes (world : World) (clock : Clock) (cryptography : Cryptography) (id : String)
    {data : UserInput} (hdata : Accepted data) (agentUser : Option UserAuthInterface) {entity : UserEntity}
    (hreturns : (run world (updateUser clock cryptography id data agentUser) db).1 = .ok entity) :
    ∃ row ∈ db.users.rows, row.live = true ∧ ids.read id = some row.id ∧
      ∃ preference ∈ db.preferences.rows, preference.live = true ∧ preference.userId = some row.id ∧
        ∃ (password : Option String) (theme : Option ThemesEnum) (time time' : Time),
          data.password.mapM (protectPassword cryptography) = .ok password ∧
          theme.map ThemesEnum.text = data.preference.bind PreferenceInput.defaultTheme ∧
          ((run world (updateUser clock cryptography id data agentUser) db).2.users.rows =
            db.users.rows.map fun other => if other.id = row.id then updatedUser data password time other else other) ∧
          ((run world (updateUser clock cryptography id data agentUser) db).2.preferences.rows =
            db.preferences.rows.map fun other =>
              if other.id = preference.id then updatedPreference data.preference theme time' other else other) ∧
          Shows (updatedUser data password time row)
            (updatedPreference data.preference theme time' preference) entity := by
  obtain ⟨_, hok, userId, hread, hupdated, hreread⟩ | ⟨_, herror, _⟩ :=
    (updateUser_ensures clock cryptography id data agentUser db).runFrom world.exec_step 0
  · change (run world (updateUser clock cryptography id data agentUser) db).1 = _ at hok
    change Updated _ _ _ _ _ (run world (updateUser clock cryptography id data agentUser) db).2 at hupdated
    change Reread _ (run world (updateUser clock cryptography id data agentUser) db).2 _ _ at hreread
    cases hreturns.symm.trans hok
    generalize (run world (updateUser clock cryptography id data agentUser) db).2 = after at hupdated hreread ⊢
    obtain ⟨row, hrow, hrowLive, rfl⟩ := updated_live hupdated
    refine ⟨row, hrow, hrowLive, hread, ?_⟩
    obtain ⟨preference, hmem, hlive, huserId, password, theme, time, time', hprotected, htheme, husers, hpreferences⟩ :=
      updated_rows (fun text htext => ne_empty_of_passwordPattern (hdata.password text htext)) hrow hupdated
    refine ⟨preference, hmem, hlive, huserId, password, theme, time, time', hprotected, htheme, husers,
      hpreferences, ?_⟩
    refine shows_of_reread ?_ ?_ huserId hreread
    · rw [husers]
      exact List.mem_map.mpr ⟨row, hrow, if_pos rfl⟩
    · rw [hpreferences]
      exact List.mem_map.mpr ⟨preference, hmem, if_pos rfl⟩
  · cases hreturns.symm.trans herror

/-- The newcomer changes the name. -/
def newName : UserInput where
  fullName := some "c"

theorem updateUser_changes_newName : ∃ entity,
    (run faultless (updateUser (fun _ => Time.epoch) newcomer.cryptography "0" newName (some ⟨some "a", some "0"⟩))
      (serveAll [newcomerTurn] : Database UuidSource.counting)).1 = .ok entity ∧ entity.fullName = some "c" := by
  have hdata : Accepted newName := ⟨by simp [newName], by simp [newName, ThemeAllowed]⟩
  obtain ⟨entity, hreturns⟩ : ∃ entity, (run faultless
      (updateUser (fun _ => Time.epoch) newcomer.cryptography "0" newName (some ⟨some "a", some "0"⟩))
      (serveAll [newcomerTurn] : Database UuidSource.counting)).1 = .ok entity := ⟨_, rfl⟩
  refine ⟨entity, hreturns, ?_⟩
  obtain ⟨_, _, _, _, _, _, _, _, _, _, _, _, _, _, _, _, hshows⟩ := updateUser_changes faultless
    (fun _ => Time.epoch) newcomer.cryptography "0" hdata (some ⟨some "a", some "0"⟩) hreturns
  exact hshows.fullName

end node_backend.user_requests
