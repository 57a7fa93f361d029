import NodeBackend.User.Repositories

namespace node_backend.user_mapper

open js program
open node_backend.exceptions node_backend.user_models node_backend.user_query
open node_backend.user_entity node_backend.user_preference_entity
open node_backend.user_repository (toDomainEntity)

/-- A row of UserPreferences as a join returns it, which leaves its foreign key out.
Its theme is any text that the column holds. -/
structure JoinedPreference where
  id : String
  imagePath : Option String
  defaultTheme : Option String
  createdAt : Time
  updatedAt : Time
  deletedAt : Option Time

def JoinedPreference.values (joined : JoinedPreference) : PreferenceValues where
  id := some joined.id
  imagePath := joined.imagePath
  defaultTheme := joined.defaultTheme
  createdAt := some joined.createdAt
  updatedAt := some joined.updatedAt
  deletedAt := joined.deletedAt

/-- The row of a user, with the preference that was joined. -/
def rowValues (row : UsersModel) (select : UserSelect) (joined : Option JoinedPreference) : UserValues :=
  { row.load select none with preference := joined.map JoinedPreference.values }

/-- The attributes of an entity with the columns of a row, null read as undefined. -/
def columnAttributes (dataValues : UserValues) (createdAt : Time) (preference : UserPreferenceEntity) : Value :=
  .obj [
    ("id", optionalText dataValues.id),
    ("fullName", optionalText dataValues.fullName),
    ("email", optionalText dataValues.email),
    ("password", optionalText dataValues.password),
    ("phone", optionalText dataValues.phone),
    ("docType", optionalText dataValues.docType),
    ("document", optionalText dataValues.document),
    ("fu", optionalText dataValues.fu),
    ("preference", preference.getAttributes),
    ("createdAt", .date (some createdAt)),
    ("updatedAt", optionalDate dataValues.updatedAt),
    ("deletedAt", optionalDate dataValues.deletedAt),
    ("deletedBy", optionalText dataValues.deletedBy)]

/-- A preference that holds the columns of the row that was joined. -/
structure HasColumns (joined : JoinedPreference) (preference : UserPreferenceEntity) : Prop where
  id : preference.id = some joined.id
  imagePath : preference.imagePath = joined.imagePath
  defaultTheme : preference.defaultTheme.map ThemesEnum.text = joined.defaultTheme

/-- The mapper makes a user of a row, with a preference of its own. -/
def Mapped (now : Time) (row : UsersModel) (select : UserSelect) (joined : Option JoinedPreference) : Prop :=
  ∃ user preference, toDomainEntity now (rowValues row select joined) = .ok user ∧
    user.id = some row.id ∧
    user.getAttributes = columnAttributes (rowValues row select joined) row.createdAt preference ∧
    user.preference = some preference ∧
    (∀ other ∈ joined, HasColumns other preference) ∧
    preference.userId = some row.id

variable {now : Time} {row : UsersModel} {select : UserSelect}

/-- The constructor names no user in a preference that was joined. -/
theorem construct_values {joined : JoinedPreference} {preference : UserPreferenceEntity}
    (h : user_preference_entity.construct now joined.values = .ok preference) : preference.userId = none := by
  unfold user_preference_entity.construct at h
  obtain ⟨defaultTheme, _, h⟩ := bind_eq_ok h
  cases h
  rfl

/-- A user with a preference is left as the constructor made it. -/
theorem toDomainEntity_joined {joined : JoinedPreference} {user : UserEntity}
    (h : toDomainEntity now (rowValues row select (some joined)) = .ok user) :
    ∃ preference, user_preference_entity.construct now joined.values = .ok preference ∧
      user.preference = some preference := by
  obtain ⟨constructed, hconstructed, h⟩ := bind_eq_ok h
  obtain ⟨preferences, hpreferences, hconstructed⟩ := bind_eq_ok hconstructed
  obtain ⟨preference, hconstruct, hpreference⟩ := bind_eq_ok hpreferences
  cases hpreference
  cases hconstructed
  cases h
  exact ⟨preference, hconstruct, rfl⟩

theorem not_mapped_joined {joined : JoinedPreference} : ¬ Mapped now row select (some joined) := by
  rintro ⟨user, preference, hmapped, _, _, hpreference, _, huser⟩
  obtain ⟨made, hconstruct, hmade⟩ := toDomainEntity_joined hmapped
  have hsame : made = preference := Option.some.inj (hmade.symm.trans hpreference)
  rw [← hsame, construct_values hconstruct] at huser
  cases huser

/-- The preference that the mapper makes where none was joined. -/
def ownPreference (now : Time) (row : UsersModel) : UserPreferenceEntity where
  id := none
  userId := some row.id
  imagePath := none
  defaultTheme := none
  createdAt := now
  updatedAt := none
  deletedAt := none

theorem toDomainEntity_alone : ∃ user, toDomainEntity now (rowValues row select none) = .ok user ∧
    user.id = some row.id ∧ user.preference = some (ownPreference now row) ∧
    user.getAttributes = columnAttributes (rowValues row select none) row.createdAt (ownPreference now row) :=
  ⟨_, rfl, rfl, rfl, rfl⟩

/-- The preference names its user exactly where none was joined. -/
theorem mapped_iff (now : Time) (row : UsersModel) (select : UserSelect) (joined : Option JoinedPreference) :
    Mapped now row select joined ↔ joined = none := by
  constructor
  · intro hmapped
    cases joined with
    | none => rfl
    | some other => exact absurd hmapped not_mapped_joined
  · rintro rfl
    obtain ⟨user, hmapped, hid, hpreference, hattributes⟩ := @toDomainEntity_alone now row select
    exact ⟨user, ownPreference now row, hmapped, hid, hattributes, hpreference, by simp, rfl⟩

/-- A user whose preference is joined. -/
def joinedUser : UsersModel where
  id := "a5483856-1bf7-4dae-9c21-d7ea4dd30d1d"
  fullName := "User Default"
  email := "tester.user@nomail.com"
  password := "cGFzczEyMw=="
  phone := none
  docType := none
  document := none
  fu := none
  createdAt := Time.epoch
  updatedAt := Time.epoch
  deletedAt := none
  deletedBy := none

def joinedPreference : JoinedPreference where
  id := "b5483856-1bf7-4dae-9c21-d7ea4dd30d1d"
  imagePath := some "./image.png"
  defaultTheme := some "DEFAULT"
  createdAt := Time.epoch
  updatedAt := Time.epoch
  deletedAt := none

/-- A valid preference is made, which names no user. -/
theorem not_mapped_joinedUser : (∃ user preference,
      toDomainEntity Time.epoch (rowValues joinedUser UserSelect.all (some joinedPreference)) = .ok user ∧
      user.preference = some preference ∧ HasColumns joinedPreference preference ∧ preference.userId = none) ∧
    ¬ Mapped Time.epoch joinedUser UserSelect.all (some joinedPreference) := by
  constructor
  · exact ⟨_, _, rfl, rfl, ⟨rfl, rfl, rfl⟩, rfl⟩
  · exact not_mapped_joined

end node_backend.user_mapper
