import NodeBackend.User.Permitted

namespace node_backend.accounts

open js store program
open node_backend.exceptions node_backend.user_database node_backend.user_models node_backend.user_query
open node_backend.user_entity node_backend.user_preference_entity node_backend.user_repository
open node_backend.user_service node_backend.user_specs node_backend.user_strategy node_backend.user_usecases
open node_backend.user_requests

/-- What an account says of its holder. -/
structure Profile where
  fullName : String
  email : String
  phone : Option String
  docType : Option String
  document : Option String
  fu : Option String
  imagePath : Option String
  defaultTheme : Option String

inductive Account
  | opened (profile : Profile)
  | closed (email : String)

/-- The e-mail that an account takes, also once it is closed. -/
def Account.email : Account → String
  | opened profile => profile.email
  | closed email => email

def Account.close (account : Account) : Account :=
  closed account.email

def Profile.new (data : UserInput) : Profile where
  fullName := data.fullName.getD ""
  email := data.email.getD ""
  phone := data.phone
  docType := data.docType
  document := data.document
  fu := data.fu
  imagePath := data.preference.bind PreferenceInput.imagePath
  defaultTheme := data.preference.bind PreferenceInput.defaultTheme

def Profile.edit (data : UserInput) (profile : Profile) : Profile where
  fullName := data.fullName.getD profile.fullName
  email := data.email.getD profile.email
  phone := data.phone.or profile.phone
  docType := data.docType.or profile.docType
  document := data.document.or profile.document
  fu := data.fu.or profile.fu
  imagePath := (data.preference.bind PreferenceInput.imagePath).or profile.imagePath
  defaultTheme := (data.preference.bind PreferenceInput.defaultTheme).or profile.defaultTheme

def Account.edit (data : UserInput) : Account → Account
  | opened profile => opened (profile.edit data)
  | closed email => closed email

/-- The accounts with their identifiers, in the order they were opened. -/
abbrev Register : Type :=
  List (String × Account)

namespace Register

/-- The agent holds the open account with an identifier. -/
def Holds (register : Register) (agentUser : Option UserAuthInterface) (id : String) : Prop :=
  ∃ profile, (id, Account.opened profile) ∈ register ∧ agentUser = some ⟨some profile.email, some id⟩

/-- Whether an agent is granted an action, on an account by any text that spells its
identifier. An e-mail is never given to a second account, even once the first one is
closed. -/
def Grants (ids : UuidSource) (register : Register) (agentUser : Option UserAuthInterface) : Action → Prop
  | .create data => clientId? agentUser ≠ none ∧ ∀ email ∈ data.email, ∀ entry ∈ register, entry.2.email ≠ email
  | .update text data => ∃ id, ids.read text = some id ∧ register.Holds agentUser id ∧
    ∀ email ∈ data.email, ∀ entry ∈ register, entry.1 ≠ id → entry.2.email ≠ email
  | .delete text => ∃ id, ids.read text = some id ∧ register.Holds agentUser id

def apply (ids : UuidSource) (register : Register) : Action → Register
  | .create data => register ++ [(ids.hex register.length, .opened (.new data))]
  | .update text data => register.map fun entry =>
    if ids.read text = some entry.1 then (entry.1, entry.2.edit data) else entry
  | .delete text => register.map fun entry =>
    if ids.read text = some entry.1 then (entry.1, entry.2.close) else entry

end Register

/-- The password that an action brings can be protected, and a new account has one. -/
def PasswordUsable (cryptography : Cryptography) : Action → Prop
  | .create data => ∃ plainText ∈ data.password, ∃ password, protectPassword cryptography plainText = .ok password
  | .update _ data => PasswordProtected cryptography data
  | .delete _ => True

/-- The request changes the register. -/
def Succeeds (ids : UuidSource) (register : Register) (request : Request) : Prop :=
  register.Grants ids request.agentUser request.action ∧ PasswordUsable request.cryptography request.action

open Classical in
/-- The register after a request, which is refused or does what it says. -/
noncomputable def Register.serve (ids : UuidSource) (register : Register) (request : Request) : Register :=
  if Succeeds ids register request then register.apply ids request.action else register

variable {ids : UuidSource} {db db' : Database ids}

/-- What the tables hold of a user. -/
def profileOf (row : UsersModel) (preference : Option UserPreferencesModel) : Profile where
  fullName := row.fullName
  email := row.email
  phone := row.phone
  docType := row.docType
  document := row.document
  fu := row.fu
  imagePath := preference.bind UserPreferencesModel.imagePath
  defaultTheme := preference.bind fun preference => preference.defaultTheme.map ThemesEnum.text

def accountOf (preferences : Table ids UserPreferencesModel) (row : UsersModel) : Account :=
  if row.live then .opened (profileOf row (joined preferences row.id)) else .closed row.email

/-- The register that the tables stand for. -/
def register (db : Database ids) : Register :=
  db.users.rows.map fun row => (row.id, accountOf db.preferences row)

/-- What is returned of a user, the password apart. -/
def shownProfile (entity : UserEntity) : Profile where
  fullName := entity.fullName.getD ""
  email := entity.email.getD ""
  phone := entity.phone
  docType := entity.docType
  document := entity.document
  fu := entity.fu
  imagePath := entity.preference.bind UserPreferenceEntity.imagePath
  defaultTheme := entity.preference.bind fun preference => preference.defaultTheme.map ThemesEnum.text

theorem accountOf_email (preferences : Table ids UserPreferencesModel) (row : UsersModel) :
    (accountOf preferences row).email = row.email := by
  unfold accountOf
  split <;> rfl

theorem joined_eq_some_iff {preferences : Table ids UserPreferencesModel} {userId : String}
    {preference : UserPreferencesModel} : joined preferences userId = some preference ↔
      preference ∈ preferences.rows ∧ preference.live = true ∧ preference.userId = some userId := by
  unfold joined
  constructor
  · intro h
    have hfound := List.find?_some h
    rw [Bool.and_eq_true, beq_iff_eq] at hfound
    exact ⟨List.mem_of_find?_eq_some h, hfound⟩
  · rintro ⟨hmem, hlive, huserId⟩
    cases hfind : preferences.rows.find? fun row => row.live && row.userId == some userId with
    | none =>
      have hnot := List.find?_eq_none.mp hfind preference hmem
      simp [hlive, huserId] at hnot
    | some other =>
      have hfound := List.find?_some hfind
      rw [Bool.and_eq_true, beq_iff_eq] at hfound
      rw [preferences.eq_of_unique_eq (List.mem_of_find?_eq_some hfind) hmem hfound.2 huserId]

/-- A change of one preference that keeps its user shows to no other user. -/
theorem joined_of_other {preferences preferences' : Table ids UserPreferencesModel} {preference : UserPreferencesModel}
    {f : UserPreferencesModel → UserPreferencesModel} {id other : String} (hmem : preference ∈ preferences.rows)
    (huserId : preference.userId = some id) (hf : ∀ row, (f row).userId = row.userId) (hother : other ≠ id)
    (hrows : preferences'.rows = preferences.rows.map fun row => if row.id = preference.id then f row else row) :
    joined preferences' other = joined preferences other := by
  apply Option.ext
  intro found
  rw [joined_eq_some_iff, joined_eq_some_iff, hrows, List.mem_map]
  constructor
  · rintro ⟨⟨row, hrow, rfl⟩, hlive, hfound⟩
    by_cases hsame : row.id = preference.id
    · rw [if_pos hsame, hf, preferences.eq_of_id_eq hrow hmem hsame, huserId] at hfound
      exact absurd (Option.some.inj hfound).symm hother
    · rw [if_neg hsame] at hlive hfound ⊢
      exact ⟨hrow, hlive, hfound⟩
  · rintro ⟨hrow, hlive, hfound⟩
    refine ⟨⟨found, hrow, if_neg fun hsame => ?_⟩, hlive, hfound⟩
    rw [preferences.eq_of_id_eq hrow hmem hsame, huserId] at hfound
    exact hother (Option.some.inj hfound).symm

/-- A change of one user shows in its account only. -/
theorem register_of_map {text : String} {row : UsersModel} {f : UsersModel → UsersModel} {g : Account → Account}
    (hread : ids.read text = some row.id) (hrow : row ∈ db.users.rows) (hf : (f row).id = row.id)
    (hrows : db'.users.rows = db.users.rows.map fun other => if other.id = row.id then f other else other)
    (hown : accountOf db'.preferences (f row) = g (accountOf db.preferences row))
    (hjoined : ∀ other, other ≠ row.id → joined db'.preferences other = joined db.preferences other) :
    register db' =
      (register db).map fun entry => if ids.read text = some entry.1 then (entry.1, g entry.2) else entry := by
  unfold register
  rw [hrows, List.map_map, List.map_map]
  refine List.map_congr_left fun other hother => ?_
  simp only [Function.comp_apply, hread, Option.some.injEq]
  by_cases hsame : other.id = row.id
  · rw [if_pos hsame, if_pos hsame.symm, db.users.eq_of_id_eq hother hrow hsame, hf, hown]
  · rw [if_neg hsame, if_neg (Ne.symm hsame)]
    unfold accountOf
    rw [hjoined other.id hsame]

theorem mem_register {id : String} {account : Account} :
    (id, account) ∈ register db ↔ ∃ row ∈ db.users.rows, row.id = id ∧ accountOf db.preferences row = account := by
  unfold register
  simp only [List.mem_map, Prod.mk.injEq]

theorem mem_register_opened {id : String} {profile : Profile} : (id, Account.opened profile) ∈ register db ↔
    ∃ row ∈ db.users.rows, row.live = true ∧ row.id = id ∧ profileOf row (joined db.preferences row.id) = profile := by
  rw [mem_register]
  refine exists_congr fun row => and_congr_right fun _ => ?_
  unfold accountOf
  cases row.live <;> simp

theorem holds_iff {agentUser : Option UserAuthInterface} {id : String} :
    (register db).Holds agentUser id ↔ MayManage db agentUser id := by
  constructor
  · rintro ⟨profile, hmem, rfl⟩
    obtain ⟨row, hrow, hlive, rfl, rfl⟩ := mem_register_opened.mp hmem
    exact ⟨row, hrow, hlive, rfl, rfl⟩
  · rintro ⟨row, hrow, hlive, rfl, rfl⟩
    exact ⟨_, mem_register_opened.mpr ⟨row, hrow, hlive, rfl, rfl⟩, rfl⟩

theorem emails_iff (P : String → Prop) {email : String} :
    (∀ entry ∈ register db, P entry.1 → entry.2.email ≠ email) ↔
      ∀ row ∈ db.users.rows, P row.id → row.email ≠ email := by
  unfold register
  simp only [List.forall_mem_map, accountOf_email]

end node_backend.accounts
