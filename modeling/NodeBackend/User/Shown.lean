import NodeBackend.User.Repositories

namespace node_backend.user_repository

open js
open node_backend.exceptions node_backend.user_models
open node_backend.user_entity node_backend.user_preference_entity

/-- A preference as its repository returns it. -/
def shownPreference (row : UserPreferencesModel) (user : Option String) : UserPreferenceEntity where
  id := some row.id
  userId := user
  imagePath := row.imagePath
  defaultTheme := row.defaultTheme
  createdAt := row.createdAt
  updatedAt := some row.updatedAt
  deletedAt := row.deletedAt

/-- The preference of a user that comes without one. -/
def emptyPreference (now : Time) (userId : String) : UserPreferenceEntity where
  id := none
  userId := some userId
  imagePath := none
  defaultTheme := none
  createdAt := now
  updatedAt := none
  deletedAt := none

/-- A user as its repository returns it: the columns that were selected, and the
preference. -/
def shownUser (row : UsersModel) (select : UserSelect) (preference : UserPreferenceEntity) : UserEntity where
  id := some row.id
  fullName := some row.fullName
  email := some row.email
  password := if select.password then some row.password else none
  phone := if select.phone then row.phone else none
  docType := row.docType
  document := if select.document then row.document else none
  fu := row.fu
  preference := some preference
  createdAt := row.createdAt
  updatedAt := some row.updatedAt
  deletedAt := row.deletedAt
  deletedBy := row.deletedBy

theorem construct_preference_load (now : Time) (row : UserPreferencesModel) (user : Option String) :
    user_preference_entity.construct now (row.load user) = .ok (shownPreference row user) := by
  have htheme : (row.load user).defaultTheme.mapM setDefaultTheme = .ok row.defaultTheme := by
    unfold UserPreferencesModel.load
    cases row.defaultTheme with
    | none => rfl
    | some theme =>
      rw [Option.map_some, Option.mapM_some, setDefaultTheme_text]
      rfl
  unfold user_preference_entity.construct
  rw [htheme]
  rfl

/-- Whatever a table holds can be returned. -/
theorem toDomainEntity_load (now : Time) (row : UsersModel) (select : UserSelect)
    (preference : Option UserPreferencesModel) :
    toDomainEntity now (row.load select preference) = .ok (shownUser row select
      (preference.elim (emptyPreference now row.id) fun joined => shownPreference joined none)) := by
  unfold toDomainEntity user_entity.construct
  cases preference with
  | none => rfl
  | some joined =>
    have hjoined : (row.load select (some joined)).preference.mapM (user_preference_entity.construct now) =
        .ok (some (shownPreference joined none)) := by
      unfold UsersModel.load
      rw [Option.map_some, Option.mapM_some, construct_preference_load]
      rfl
    rw [hjoined]
    rfl

theorem construct_eq_ok (now : Time) (dataValues : UserValues) {preference : Option UserPreferenceEntity}
    (h : dataValues.preference.mapM (user_preference_entity.construct now) = .ok preference) :
    ∃ entity, user_entity.construct now dataValues = .ok entity ∧ entity.id = dataValues.id ∧
      entity.email = dataValues.email ∧ entity.preference = preference := by
  unfold user_entity.construct
  rw [h]
  exact ⟨_, rfl, rfl, rfl, rfl⟩

/-- A user that the database returns becomes an entity. -/
theorem exists_toDomainEntity (now : Time) (user : UsersModel) (select : UserSelect)
    (preference : Option UserPreferencesModel) :
    ∃ entity, toDomainEntity now (user.load select preference) = .ok entity ∧ entity.id = some user.id ∧
      entity.email = some user.email := by
  exact ⟨_, toDomainEntity_load now user select preference, rfl, rfl⟩

end node_backend.user_repository
