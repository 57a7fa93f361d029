import NodeBackend.User.Services

namespace node_backend.user_usecases

open js program
open node_backend.exceptions node_backend.user_database node_backend.user_query
open node_backend.user_entity node_backend.user_preference_entity node_backend.abstract_repository
open node_backend.user_service node_backend.user_strategy

def invalidAgent : Failure :=
  thrown .unauthorized "Invalid agentUser"

/-- The identifier of a client, if a request comes with one. -/
def clientId? (agentUser : Option UserAuthInterface) : Option String :=
  given (agentUser.bind UserAuthInterface.clientId)

/-- HttpMessagesConstants.messages.conflict. -/
def conflictMessage (element : String) : String :=
  element ++ " already exists!"

/-- UserPreferenceEntity.setUserId of an identifier, whose length is read first. -/
def withUserId (preference : UserPreferenceEntity) : Option String → Except Failure UserPreferenceEntity
  | some userId => .ok (preference.setUserId userId)
  | none => .error (.typeError ⟨"Cannot read properties of undefined (reading 'length')"⟩)

variable (clock : Clock)

/-- Both reads that Promise.all waits for. -/
def readBoth (id : Option String) : Promise (UserEntity × UserPreferenceEntity) :=
  Program.all (user_service.getById clock id)
    (user_preference_service.getByUserId (fun n => clock (n + 1)) id)

/-- The end of a creation and of an update: read the user again, with the preference. -/
def reread (id : Option String) : Promise UserEntity := do
  let (foundedUser, foundedPreference) ← readBoth clock id
  return foundedUser.setPreference foundedPreference

/-- What an input gives for the preference of a new user. -/
def newPreferenceValues (data : UserInput) : PreferenceValues :=
  (data.preference.map PreferenceInput.values).getD {}

/-- The end of a creation: the preference of the new user. -/
def addPreference (data : UserInput) (userId : Option String) : Promise UserEntity := do
  let newPreference ← built (user_preference_entity.construct (clock 4) (newPreferenceValues data))
  let newPreference ← Program.ofExcept (withUserId newPreference userId)
  let _ ← user_preference_service.create (fun n => clock (n + 5)) newPreference
  reread (fun n => clock (n + 6)) userId

/-- CreateUserUseCase.execute. -/
def createUser (cryptography : Cryptography) (data : UserInput) (agentUser : Option UserAuthInterface) :
    Promise UserEntity :=
  match clientId? agentUser with
  | none => Program.throw invalidAgent
  | some _ => do
    let newUser ← built (user_entity.construct (clock 0) data.userValues)
    let existentUser ← user_service.getByEmail (fun n => clock (n + 1)) newUser.email
    if existentUser.isSome then Program.throw (thrown .conflict (conflictMessage "User"))
    else do
      let createdUser ← user_service.create (fun n => clock (n + 2)) cryptography newUser
      addPreference clock data createdUser.id

/-- validatePermissionToUpdateUser and validatePermissionToDeleteUser. -/
def validatePermission (action : String) (agentUser : UserAuthInterface) (user : UserEntity) : Promise Unit :=
  if isAllowedToManageUser agentUser user then pure ()
  else Program.throw (thrown .business ("agentUser not allowed to " ++ (action ++ " this user!")))

/-- The part of an update that writes the user, where one of its fields changes. -/
def writeUser (cryptography : Cryptography) (user : UserEntity) (data : UserInput) : Promise Unit :=
  if mustUpdate .nothing user.getAttributes data.attributes then do
    let _ ← user_service.update (fun n => clock (n + 2)) cryptography user.id data
    return ()
  else pure ()

/-- The part of an update that writes the preference. -/
def writePreference (preference : UserPreferenceEntity) : Option PreferenceInput → Promise Unit
  | none => pure ()
  | some data =>
    if mustUpdate .nothing preference.getAttributes data.attributes then do
      let _ ← user_preference_service.update (fun n => clock (n + 4)) preference.id data
      return ()
    else pure ()

/-- UpdateUserUseCase.execute. -/
def updateUser (cryptography : Cryptography) (id : String) (data : UserInput) (agentUser : Option UserAuthInterface) :
    Promise UserEntity :=
  match agentUser, clientId? agentUser with
  | some agent, some _ => do
    let user ← user_service.getById clock (some id)
    let preference ← user_preference_service.getByUserId (fun n => clock (n + 1)) (some id)
    let _ ← validatePermission "update" agent user
    let _ ← writeUser clock cryptography user data
    let _ ← writePreference clock preference data.preference
    reread (fun n => clock (n + 6)) user.id
  | _, _ => Program.throw invalidAgent

/-- DeleteUserUseCase.execute. -/
def deleteUser (id : String) (agentUser : Option UserAuthInterface) : Promise Unit :=
  match agentUser, clientId? agentUser with
  | some agent, some _ => do
    let user ← user_service.getById clock (some id)
    let preference ← user_preference_service.getByUserId (fun n => clock (n + 1)) (some id)
    let _ ← validatePermission "delete" agent user
    let _ ← user_preference_service.delete preference.id true
    let softDeletedUser ← user_service.delete user.id true agent.clientId
    if softDeletedUser then pure () else Program.throw (thrown .internal "User not deleted")
  | _, _ => Program.throw invalidAgent

/-- GetUserUseCase.execute. -/
def getUser (id : String) (agentUser : Option UserAuthInterface) : Promise UserEntity :=
  match clientId? agentUser with
  | none => Program.throw invalidAgent
  | some _ => do
    let user ← reread clock (some id)
    return user.setPassword ""

/-- ListUsersUseCase.execute. -/
def listUsers (query : UserBuildParams) : Promise user_repository.PaginationInterface :=
  user_service.list clock query

end node_backend.user_usecases
