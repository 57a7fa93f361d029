import NodeBackend.User.Database

namespace node_backend.abstract_repository

open js program
open node_backend.exceptions node_backend.user_database

variable {Values Entity : Type}

/-- The catch of every method of a repository. -/
def guarded {A : Type} (method : Promise A) : Promise A :=
  method.tryCatch fun failure => Program.throw failure.asInternal

/-- A result of plain code, whose error is thrown as it is. -/
def built {A : Type} (outcome : Except ErrorInterface A) : Promise A :=
  Program.ofExcept (outcome.mapError .plain)

/-- A change asks for an identifier. -/
def criteria (method : String) (id : Option String) : Promise String :=
  match user_query.given id with
  | some id => pure id
  | none =>
    Program.throw (.plain
      { name := some "TypeORMError"
        message := "Empty criteria(s) are not allowed for the " ++ (method ++ " method.") })

/-- AbstractRepository.create. A payload is an entity by its type, so the validation
of the source passes. -/
def create (save : Promise Values) (toDomainEntity : Values → Except ErrorInterface Entity) : Promise Entity :=
  guarded do
    let result ← save
    built (toDomainEntity result)

/-- AbstractRepository.findOne. -/
def findOne (find : Promise (Option Values)) (toDomainEntity : Values → Except ErrorInterface Entity) :
    Promise (Option Entity) :=
  guarded do
    let result ← find
    built (result.mapM toDomainEntity)

/-- AbstractRepository.update. -/
def update (set : String → Promise Nat) (find : Promise (Option Values))
    (toDomainEntity : Values → Except ErrorInterface Entity) (id : Option String) : Promise (Option Entity) :=
  guarded do
    let id ← criteria "update" id
    let _ ← set id
    let result ← find
    built (result.mapM toDomainEntity)

/-- The deletion that ends deleteOne, and whether it affected a row. -/
def remove (softDelete hardDelete : String → Promise Nat) (id : Option String) (soft : Bool) : Promise Bool := do
  let affected ←
    if soft then criteria "softDelete" id >>= softDelete
    else criteria "delete" id >>= hardDelete
  return affected != 0

/-- AbstractRepository.deleteOne. -/
def deleteOne (softDelete hardDelete : String → Promise Nat) (id : Option String) (soft : Bool) : Promise Bool :=
  guarded (remove softDelete hardDelete id soft)

end node_backend.abstract_repository

namespace node_backend.user_preference_repository

open js program
open node_backend.exceptions node_backend.user_database node_backend.user_models
open node_backend.user_preference_entity node_backend.abstract_repository

/-- userPreferenceMapper.toDatabaseEntity. -/
def toDatabaseEntity (entity : UserPreferenceEntity) : PreferenceColumns where
  imagePath := entity.imagePath
  defaultTheme := entity.defaultTheme
  createdAt := some entity.createdAt
  updatedAt := entity.updatedAt
  deletedAt := entity.deletedAt
  user := entity.userId

variable (now : Time)

/-- userPreferenceMapper.toDomainEntity. -/
def toDomainEntity (dataValues : PreferenceValues) : Except ErrorInterface UserPreferenceEntity :=
  construct now dataValues

def create (entity : UserPreferenceEntity) : Promise UserPreferenceEntity :=
  abstract_repository.create (perform (.insertPreference (toDatabaseEntity entity))) (toDomainEntity now)

def findOne (condition : PreferenceWhere) : Promise (Option UserPreferenceEntity) :=
  abstract_repository.findOne (perform (.findPreference condition)) (toDomainEntity now)

def update (id : Option String) (dataValues : PreferenceColumns) : Promise (Option UserPreferenceEntity) :=
  abstract_repository.update (fun id => perform (.updatePreference id dataValues))
    (perform (.findPreference { id := id })) (toDomainEntity now) id

def deleteOne (id : Option String) (softDelete : Bool) : Promise Bool :=
  abstract_repository.deleteOne (fun id => perform (.softDeletePreference id))
    (fun id => perform (.deletePreference id)) id softDelete

end node_backend.user_preference_repository

namespace node_backend.user_repository

open js program
open node_backend.exceptions node_backend.user_database node_backend.user_models node_backend.user_query
open node_backend.user_entity node_backend.user_preference_entity node_backend.abstract_repository

/-- The columns that an entity's attributes give values to. -/
def attributeColumns (entity : UserEntity) : UserColumns where
  fullName := entity.fullName
  email := entity.email
  password := entity.password
  phone := entity.phone
  docType := entity.docType
  document := entity.document
  fu := entity.fu
  createdAt := some entity.createdAt
  updatedAt := entity.updatedAt
  deletedAt := entity.deletedAt
  deletedBy := entity.deletedBy.map some

/-- userMapper.toDatabaseEntity. -/
def toDatabaseEntity (entity : UserEntity) : UserColumns :=
  attributeColumns entity

variable (now : Time)

/-- userMapper.toDomainEntity. A user that comes without a preference gets an empty
one that names it. -/
def toDomainEntity (dataValues : UserValues) : Except ErrorInterface UserEntity := do
  let user ← construct now dataValues
  match user.preference with
  | some _ => return user
  | none => do
    let preference ← user_preference_repository.toDomainEntity now { userId := dataValues.id }
    return user.setPreference preference

def getById (id : Option String) (withoutPassword : Bool) : Promise (Option UserEntity) :=
  guarded do
    let buildedQuery := buildParams { id := id, withoutSensitiveData := false, withoutPassword := withoutPassword }
    let result ← perform (.findUser buildedQuery)
    built (result.mapM (toDomainEntity now))

/-- A query without relations, which selects no column that is hidden by default. -/
def findOptions (condition : UserWhere) : FindOptions where
  filters := [condition]

def findOne (condition : UserWhere) : Promise (Option UserEntity) :=
  abstract_repository.findOne (perform (.findUser (findOptions condition))) (toDomainEntity now)

def create (entity : UserEntity) : Promise UserEntity :=
  abstract_repository.create (perform (.insertUser (toDatabaseEntity entity))) (toDomainEntity now)

def update (id : Option String) (dataValues : UserColumns) : Promise (Option UserEntity) :=
  abstract_repository.update (fun id => perform (.updateUser id dataValues))
    (perform (.findUser (findOptions { id := id }))) (toDomainEntity now) id

/-- UserRepository.deleteOne, which first writes down who deletes. -/
def deleteOne (id : Option String) (softDelete : Bool) (agentId : Option String) : Promise Bool :=
  guarded do
    let userId ← criteria "update" id
    let _ ← perform (.updateUser userId { deletedBy := some agentId })
    remove (fun id => perform (.softDeleteUser id)) (fun id => perform (.deleteUser id)) id softDelete

structure PaginationInterface where
  content : List UserEntity
  pageNumber : Double
  pageSize : Nat
  totalPages : Number
  totalItems : Number

/-- `Math.ceil(totalItems / limit) || 1`. -/
def pageCount (totalItems : Number) (limit : Double) : Number :=
  (Rounding.even.divide totalItems limit).ceil.orOne

/-- UserRepository.list of a query that selects without password. -/
def list (query : UserBuildParams) (withoutSensitiveData : Bool) : Promise PaginationInterface :=
  guarded do
    let buildedQuery := buildParams
      { query with withoutSensitiveData := withoutSensitiveData, withoutPassword := true }
    let (rows, count) ← perform (.findUsers buildedQuery)
    let content ← built (rows.mapM (toDomainEntity now))
    return {
      content := content
      pageNumber := query.page.getD .zero
      pageSize := rows.length
      totalPages := pageCount count (query.limit.getD .one)
      totalItems := count }

end node_backend.user_repository
