import NodeBackend.Domain.UserPreferenceEntity

namespace node_backend.user_entity

open js
open node_backend.exceptions node_backend.user_preference_entity

/-- A row or an input as the constructor reads it, with what is undefined or null
left out. -/
structure UserValues where
  id : Option String := none
  fullName : Option String := none
  email : Option String := none
  password : Option String := none
  phone : Option String := none
  docType : Option String := none
  document : Option String := none
  fu : Option String := none
  preference : Option PreferenceValues := none
  createdAt : Option Time := none
  updatedAt : Option Time := none
  deletedAt : Option Time := none
  deletedBy : Option String := none

structure UserEntity where
  id : Option String
  fullName : Option String
  email : Option String
  password : Option String
  phone : Option String
  docType : Option String
  document : Option String
  fu : Option String
  preference : Option UserPreferenceEntity
  createdAt : Time
  updatedAt : Option Time
  deletedAt : Option Time
  deletedBy : Option String

def construct (now : Time) (dataValues : UserValues) : Except ErrorInterface UserEntity := do
  let preference ← dataValues.preference.mapM (user_preference_entity.construct now)
  return {
    id := dataValues.id
    fullName := dataValues.fullName
    email := dataValues.email
    password := dataValues.password
    phone := dataValues.phone
    docType := dataValues.docType
    document := dataValues.document
    fu := dataValues.fu
    preference := preference
    createdAt := dateOrNow now dataValues.createdAt
    updatedAt := dataValues.updatedAt
    deletedAt := dataValues.deletedAt
    deletedBy := dataValues.deletedBy }

def UserEntity.setPassword (entity : UserEntity) (password : String) : UserEntity :=
  { entity with password := some password }

def UserEntity.setPreference (entity : UserEntity) (preference : UserPreferenceEntity) : UserEntity :=
  { entity with preference := some preference }

def UserEntity.getAttributes (entity : UserEntity) : Value :=
  .obj [
    ("id", optionalText entity.id),
    ("fullName", optionalText entity.fullName),
    ("email", optionalText entity.email),
    ("password", optionalText entity.password),
    ("phone", optionalText entity.phone),
    ("docType", optionalText entity.docType),
    ("document", optionalText entity.document),
    ("fu", optionalText entity.fu),
    ("preference", entity.preference.elim .undefined UserPreferenceEntity.getAttributes),
    ("createdAt", .date (some entity.createdAt)),
    ("updatedAt", optionalDate entity.updatedAt),
    ("deletedAt", optionalDate entity.deletedAt),
    ("deletedBy", optionalText entity.deletedBy)]

end node_backend.user_entity
