import NodeBackend.Js.Member
import NodeBackend.User.Repositories

namespace node_backend.user_service

open js program
open node_backend.exceptions node_backend.user_database node_backend.user_models node_backend.user_query
open node_backend.user_entity node_backend.user_preference_entity node_backend.abstract_repository

/-- The preference of an input. -/
structure PreferenceInput where
  imagePath : Option String := none
  defaultTheme : Option String := none

/-- CreateUserInputDto and UpdateUserInputDto, any field of which may be missing. -/
structure UserInput where
  fullName : Option String := none
  email : Option String := none
  password : Option String := none
  phone : Option String := none
  docType : Option String := none
  document : Option String := none
  fu : Option String := none
  preference : Option PreferenceInput := none

def PreferenceInput.values (input : PreferenceInput) : PreferenceValues where
  imagePath := input.imagePath
  defaultTheme := input.defaultTheme

/-- The input without its preference. -/
def UserInput.userValues (input : UserInput) : UserValues where
  fullName := input.fullName
  email := input.email
  password := input.password
  phone := input.phone
  docType := input.docType
  document := input.document
  fu := input.fu

/-- The attributes of an input that comes from JSON, undefined where it has none. -/
def PreferenceInput.attributes (input : PreferenceInput) : Value :=
  .obj [("imagePath", optionalText input.imagePath), ("defaultTheme", optionalText input.defaultTheme)]

def UserInput.attributes (input : UserInput) : Value :=
  .obj [
    ("fullName", optionalText input.fullName),
    ("email", optionalText input.email),
    ("password", optionalText input.password),
    ("phone", optionalText input.phone),
    ("docType", optionalText input.docType),
    ("document", optionalText input.document),
    ("fu", optionalText input.fu),
    ("preference", input.preference.elim .undefined PreferenceInput.attributes)]

def thrown (name : ExceptionsEnum) (message : String) : Failure :=
  .http (buildException name { message := message })

/-- caughtError of both services. -/
def caughtError (failure : Failure) : Failure :=
  .http (buildException .internal
    { message := "Error to comunicate with database", details := some failure.asError.message })

/-- The catch of every method of a service. -/
def guarded {A : Type} (method : Promise A) : Promise A :=
  method.tryCatch fun failure => Program.throw (caughtError failure)

/-- What CryptographyService gives for one password: a fresh salt, and the hash of a
text with a salt where that can be computed. -/
structure Cryptography where
  salt : String
  hashWithSecret : String → String → Option String

def protectPassword (cryptography : Cryptography) (plainTextPassword : String) : Except Failure String :=
  if cryptography.salt = "" then .error (thrown .internal "Error to generate salt")
  else
    match given (cryptography.hashWithSecret plainTextPassword cryptography.salt) with
    | some hash => .ok (cryptography.salt ++ ("|" ++ hash))
    | none => .error (thrown .internal "Error to generate hash")

/-- The readings of the clock that one call takes, in order. -/
abbrev Clock : Type := Nat → Time

variable (clock : Clock)

def getById (id : Option String) : Promise UserEntity :=
  guarded do
    let user ← user_repository.getById (clock 0) id true
    match user with
    | some user => return user
    | none => Program.throw (thrown .notFound "User not founded by ID!")

def getByEmail (email : Option String) : Promise (Option UserEntity) :=
  guarded (user_repository.findOne (clock 0) { email := email })

def create (cryptography : Cryptography) (entity : UserEntity) : Promise UserEntity :=
  guarded do
    match given entity.password with
    | none => Program.throw (thrown .business "Invalid password")
    | some userPassword => do
      let protectedPassword ← Program.ofExcept (protectPassword cryptography userPassword)
      let entity := entity.setPassword protectedPassword
      let foundedUser ← getByEmail clock entity.email
      if foundedUser.isSome then Program.throw (thrown .conflict "E-mail already in use!")
      else do
        let createdUser ← user_repository.create (clock 1) entity
        return createdUser.setPassword ""

/-- The columns that `update` writes: the attributes of an entity without its dates. -/
def updatedColumns (entity : UserEntity) (password : Option String) : UserColumns :=
  { user_repository.attributeColumns entity with
    password := password, createdAt := none, updatedAt := none, deletedAt := none }

/-- A password that is given is stored protected. -/
def protectGiven (cryptography : Cryptography) (password : Option String) : Except Failure (Option String) :=
  match given password with
  | some userPassword => (protectPassword cryptography userPassword).map some
  | none => .ok password

def update (cryptography : Cryptography) (id : Option String) (data : UserInput) : Promise UserEntity := do
  let entity ← built (user_entity.construct (clock 0) data.userValues)
  guarded do
    let password ← Program.ofExcept (protectGiven cryptography entity.password)
    let updatedUser ← user_repository.update (clock 1) id (updatedColumns entity password)
    match updatedUser with
    | some updatedUser => return updatedUser.setPassword ""
    | none => Program.throw (thrown .conflict "User not updated!")

/-- UserService.delete. A missing agent is written down as the text that String
makes of it. -/
def delete (id : Option String) (softDelete : Bool) (agentUserId : Option String) : Promise Bool :=
  guarded (user_repository.deleteOne id softDelete (some (agentUserId.getD "undefined")))

def list (query : UserBuildParams) : Promise user_repository.PaginationInterface :=
  guarded (user_repository.list (clock 0) query true)

end node_backend.user_service

namespace node_backend.user_preference_service

open js program
open node_backend.exceptions node_backend.user_database node_backend.user_models
open node_backend.user_preference_entity node_backend.user_service

variable (clock : Clock)

def getByUserId (userId : Option String) : Promise UserPreferenceEntity :=
  guarded do
    let preference ← user_preference_repository.findOne (clock 0) { user := userId }
    match preference with
    | some preference => return preference
    | none => Program.throw (thrown .notFound "Preference not founded by userId!")

def create (entity : UserPreferenceEntity) : Promise UserPreferenceEntity :=
  guarded (user_preference_repository.create (clock 0) entity)

/-- The columns that `update` writes. -/
def updatedColumns (entity : UserPreferenceEntity) : PreferenceColumns where
  imagePath := entity.imagePath
  defaultTheme := entity.defaultTheme

def update (id : Option String) (data : PreferenceInput) : Promise UserPreferenceEntity := do
  let entity ← abstract_repository.built (construct (clock 0) data.values)
  guarded do
    let preference ← user_preference_repository.update (clock 1) id (updatedColumns entity)
    match preference with
    | some preference => return preference
    | none => Program.throw (thrown .conflict "Preference not updated!")

def delete (id : Option String) (softDelete : Bool) : Promise Bool :=
  guarded (user_preference_repository.deleteOne id softDelete)

end node_backend.user_preference_service

namespace node_backend.user_strategy

open js
open node_backend.user_entity

/-- What is known of who sends a request. -/
structure UserAuthInterface where
  username : Option String
  clientId : Option String

def isAllowedToManageUser (agentUser : UserAuthInterface) (userData : UserEntity) : Bool :=
  agentUser.username == userData.email && agentUser.clientId == userData.id

/-- `===` of a value that is no object with what an access gives. -/
def strictEquals : Value → Member → Bool
  | .undefined, .value .undefined => true
  | .null, .value .null => true
  | .bool a, .value (.bool b) => a == b
  | .num a, .value (.num b) => a == b
  | .nonFinite a, .value (.nonFinite b) => a == b && a != .nan
  | .str a, .value (.str b) => a == b
  | _, _ => false

section mustUpdate

variable (inherited : Inherited)

mutual

/-- Whether some attribute that is not undefined differs from the entity's. -/
def anyUpdated (entityAttributes : Member) : List (String × Value) → Bool
  | [] => false
  | (attributeKey, inputField) :: rest =>
    hasValueChanged (entityAttributes.get inherited attributeKey) inputField || anyUpdated entityAttributes rest

/-- `anyUpdated` of an array's entries, which are keyed by their index. -/
def anyItemUpdated (entityAttributes : Member) (index : Nat) : List Value → Bool
  | [] => false
  | inputField :: rest =>
    hasValueChanged (entityAttributes.get inherited (toString index)) inputField ||
      anyItemUpdated entityAttributes (index + 1) rest

/-- Fields that are objects are compared by their attributes. -/
def hasValueChanged (entityField : Member) : Value → Bool
  | .undefined => false
  | .obj inputAttributes => entityField.truthy && anyUpdated entityField inputAttributes
  | .arr items => entityField.truthy && anyItemUpdated entityField 0 items
  | .date _ => false
  | .objectId _ => false
  | inputField => !strictEquals inputField entityField

end

/-- UserStrategy.mustUpdate of an object: whether some attribute of the input
that is not undefined differs from the entity's. -/
def mustUpdate (entityAttributes : Value) : Value → Bool
  | .obj inputAttributes => entityAttributes.truthy && anyUpdated inherited (.value entityAttributes) inputAttributes
  | .arr items => entityAttributes.truthy && anyItemUpdated inherited (.value entityAttributes) 0 items
  | _ => false

end mustUpdate

end node_backend.user_strategy
