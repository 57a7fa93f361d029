import NodeBackend.Domain.UserEntity
import NodeBackend.Store.Table

namespace node_backend.user_models

open js store
open node_backend.user_entity node_backend.user_preference_entity

/-- A row of Users. -/
structure UsersModel where
  id : String
  fullName : String
  email : String
  password : String
  phone : Option String
  docType : Option String
  document : Option String
  fu : Option String
  createdAt : Time
  updatedAt : Time
  deletedAt : Option Time
  deletedBy : Option String

/-- A row of UserPreferences. The application writes no theme but those of the
enumeration. -/
structure UserPreferencesModel where
  id : String
  imagePath : Option String
  defaultTheme : Option ThemesEnum
  createdAt : Time
  updatedAt : Time
  deletedAt : Option Time
  userId : Option String

instance : Record UsersModel where
  id := UsersModel.id
  unique := fun row => some row.email

instance : Record UserPreferencesModel where
  id := UserPreferencesModel.id
  unique := UserPreferencesModel.userId

/-- Neither soft-deleted nor deleted. -/
def UsersModel.live (row : UsersModel) : Bool :=
  row.deletedAt.isNone

def UserPreferencesModel.live (row : UserPreferencesModel) : Bool :=
  row.deletedAt.isNone

/-- Columns that an insert or an update gives values to. Only `deletedBy` is ever
set to null. -/
structure UserColumns where
  fullName : Option String := none
  email : Option String := none
  password : Option String := none
  phone : Option String := none
  docType : Option String := none
  document : Option String := none
  fu : Option String := none
  createdAt : Option Time := none
  updatedAt : Option Time := none
  deletedAt : Option Time := none
  deletedBy : Option (Option String) := none

structure PreferenceColumns where
  imagePath : Option String := none
  defaultTheme : Option ThemesEnum := none
  createdAt : Option Time := none
  updatedAt : Option Time := none
  deletedAt : Option Time := none
  user : Option String := none

/-- The row of an insert, with the defaults of the columns left out. -/
def UserColumns.row (columns : UserColumns) (now : Time) (id : String) : UsersModel where
  id := id
  fullName := columns.fullName.getD ""
  email := columns.email.getD ""
  password := columns.password.getD ""
  phone := columns.phone
  docType := columns.docType
  document := columns.document
  fu := columns.fu
  createdAt := columns.createdAt.getD now
  updatedAt := columns.updatedAt.getD now
  deletedAt := columns.deletedAt
  deletedBy := columns.deletedBy.getD none

/-- A row after an update, which dates it unless it is given a date. -/
def UserColumns.change (columns : UserColumns) (now : Time) (row : UsersModel) : UsersModel where
  id := row.id
  fullName := columns.fullName.getD row.fullName
  email := columns.email.getD row.email
  password := columns.password.getD row.password
  phone := columns.phone.or row.phone
  docType := columns.docType.or row.docType
  document := columns.document.or row.document
  fu := columns.fu.or row.fu
  createdAt := columns.createdAt.getD row.createdAt
  updatedAt := columns.updatedAt.getD now
  deletedAt := columns.deletedAt.or row.deletedAt
  deletedBy := columns.deletedBy.getD row.deletedBy

def UsersModel.softDelete (now : Time) (row : UsersModel) : UsersModel :=
  { row with updatedAt := now, deletedAt := some now }

def PreferenceColumns.row (columns : PreferenceColumns) (now : Time) (id : String) : UserPreferencesModel where
  id := id
  imagePath := columns.imagePath
  defaultTheme := columns.defaultTheme
  createdAt := columns.createdAt.getD now
  updatedAt := columns.updatedAt.getD now
  deletedAt := columns.deletedAt
  userId := columns.user

/-- The columns with the identifier that the one of the user spells. -/
def PreferenceColumns.stored (columns : PreferenceColumns) (ids : UuidSource) : PreferenceColumns :=
  { columns with user := columns.user.bind ids.read }

/-- What names no user is stored as it is. -/
theorem PreferenceColumns.stored_of_none {columns : PreferenceColumns} (h : columns.user = none) (ids : UuidSource) :
    columns.stored ids = columns := by
  obtain ⟨_, _, _, _, _, user⟩ := columns
  cases h
  rfl

theorem PreferenceColumns.stored_of_own {columns : PreferenceColumns} {ids : UuidSource} {userId : String}
    (h : columns.user = some userId) (hown : ids.read userId = some userId) : columns.stored ids = columns := by
  obtain ⟨_, _, _, _, _, user⟩ := columns
  cases h
  exact congrArg (PreferenceColumns.mk _ _ _ _ _) hown

def PreferenceColumns.change (columns : PreferenceColumns) (now : Time) (row : UserPreferencesModel) :
    UserPreferencesModel where
  id := row.id
  imagePath := columns.imagePath.or row.imagePath
  defaultTheme := columns.defaultTheme.or row.defaultTheme
  createdAt := columns.createdAt.getD row.createdAt
  updatedAt := columns.updatedAt.getD now
  deletedAt := columns.deletedAt.or row.deletedAt
  userId := columns.user.or row.userId

def UserPreferencesModel.softDelete (now : Time) (row : UserPreferencesModel) : UserPreferencesModel :=
  { row with updatedAt := now, deletedAt := some now }

/-- Columns of Users that a query selects only on request. -/
structure UserSelect where
  password : Bool := false
  phone : Bool := false
  document : Bool := false

/-- Every column, as a row just saved has them. -/
def UserSelect.all : UserSelect := ⟨true, true, true⟩

/-- A preference as the database returns it, with the identifier of the user that
was saved with it. -/
def UserPreferencesModel.load (row : UserPreferencesModel) (user : Option String) : PreferenceValues where
  id := some row.id
  user := user
  imagePath := row.imagePath
  defaultTheme := row.defaultTheme.map ThemesEnum.text
  createdAt := some row.createdAt
  updatedAt := some row.updatedAt
  deletedAt := row.deletedAt

/-- A user as the database returns it, with the preference that was joined. -/
def UsersModel.load (row : UsersModel) (select : UserSelect) (preference : Option UserPreferencesModel) :
    UserValues where
  id := some row.id
  fullName := some row.fullName
  email := some row.email
  password := if select.password then some row.password else none
  phone := if select.phone then row.phone else none
  docType := row.docType
  document := if select.document then row.document else none
  fu := row.fu
  preference := preference.map fun row => row.load none
  createdAt := some row.createdAt
  updatedAt := some row.updatedAt
  deletedAt := row.deletedAt
  deletedBy := row.deletedBy

end node_backend.user_models
