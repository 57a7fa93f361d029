import NodeBackend.User.Writes

namespace node_backend.user_requests

open js store program
open node_backend.exceptions node_backend.user_database node_backend.user_service node_backend.user_specs
open node_backend.user_strategy node_backend.user_usecases

/-- What is asked of the users' store. -/
inductive Action
  | create (data : UserInput)
  | update (id : String) (data : UserInput)
  | delete (id : String)

/-- An action with who asks for it, and with the times and the hashes it comes by. -/
structure Request where
  clock : Clock
  cryptography : Cryptography
  agentUser : Option UserAuthInterface
  action : Action

/-- The theme that an action brings, if any, is a theme. -/
def Action.ThemeAllowed : Action → Prop
  | create data => user_usecases.ThemeAllowed data
  | update _ data => user_usecases.ThemeAllowed data
  | delete _ => True

/-- The execute method of the use case, whose result the store does not depend on. -/
def Request.execute (request : Request) : Promise Unit :=
  match request.action with
  | .create data => do
    let _ ← createUser request.clock request.cryptography data request.agentUser
    return ()
  | .update id data => do
    let _ ← updateUser request.clock request.cryptography id data request.agentUser
    return ()
  | .delete id => deleteUser request.clock id request.agentUser

variable {ids : UuidSource} {mayFail : Prop}

/-- The writes of a request, in their order. It names the user in some spelling of the
identifier. -/
inductive Effect (db : Database ids) : Request → List Call → Prop
  | create (clock : Clock) (cryptography : Cryptography) (agentUser : Option UserAuthInterface) (data : UserInput) :
    Effect db ⟨clock, cryptography, agentUser, .create data⟩ (createWrites clock cryptography data db.users.nextId)
  | update {clock : Clock} {cryptography : Cryptography} (agentUser : Option UserAuthInterface) {text id : String}
    {data : UserInput} {writes : List Call} (hread : ids.read text = some id)
    (hwrites : UpdateWrites clock cryptography id data db writes) :
    Effect db ⟨clock, cryptography, agentUser, .update text data⟩ writes
  | delete {clock : Clock} (cryptography : Cryptography) {agentUser : Option UserAuthInterface}
    {text id clientId : String} {writes : List Call} (hclientId : clientId? agentUser = some clientId)
    (hread : ids.read text = some id) (hwrites : DeleteWrites clock id clientId db writes) :
    Effect db ⟨clock, cryptography, agentUser, .delete text⟩ writes

/-- Every request does all of its writes or throws. Where it throws it did none, or
the first ones where requests to the database may fail or the theme is none. -/
theorem execute_ensures (request : Request) (db : Database ids) :
    request.execute.Ensures (step mayFail) db
      (fun _ db' => ∃ writes, Effect db request writes ∧ Wrote writes db db')
      fun _ db' => db' = db ∨ (mayFail ∨ ¬ request.action.ThemeAllowed) ∧
        ∃ writes, Effect db request writes ∧ PrefixOf writes db db' := by
  obtain ⟨clock, cryptography, agentUser, action⟩ := request
  cases action with
  | create data =>
    refine Program.Ensures.bind ((createUser_ensures clock cryptography data agentUser db).mono (fun _ _ h => h) ?_)
      fun _ _ hwrote => ⟨_, .create clock cryptography agentUser data, hwrote.2.2.2⟩
    rintro _ db' (hsame | ⟨hthrown, hinitial⟩)
    · exact Or.inl hsame
    · exact Or.inr ⟨hthrown, _, .create clock cryptography agentUser data, hinitial⟩
  | update id data =>
    refine Program.Ensures.bind
      ((updateUser_ensures clock cryptography id data agentUser db).mono (fun _ _ h => h) ?_) ?_
    · rintro _ db' (hsame | ⟨hthrown, _, writes, hread, hwrites, hinitial⟩)
      · exact Or.inl hsame
      · exact Or.inr ⟨hthrown, writes, .update agentUser hread hwrites, hinitial⟩
    · rintro _ db' ⟨_, hread, hupdated, _⟩
      obtain ⟨writes, hwrites, hwrote⟩ := hupdated.writes
      exact ⟨writes, .update agentUser hread hwrites, hwrote⟩
  | delete id =>
    apply (deleteUser_ensures clock id agentUser db).mono
    · rintro _ db' ⟨clientId, _, writes, hclientId, hread, hwrites, hwrote⟩
      exact ⟨writes, .delete cryptography hclientId hread hwrites, hwrote⟩
    · rintro _ db' (hsame | ⟨hfail, clientId, _, writes, hclientId, hread, hwrites, hinitial⟩)
      · exact Or.inl hsame
      · exact Or.inr ⟨Or.inl hfail, writes, .delete cryptography hclientId hread hwrites, hinitial⟩

/-- The run of a promise in a world, from its first request on. -/
def run {A : Type} (world : World) (promise : Promise A) (db : Database ids) : Except Failure A × Database ids :=
  Program.runFrom world.exec 0 promise db

/-- The tables after a request, whichever of the requests to the database fail. -/
theorem execute_effect (request : Request) (world : World) (db : Database ids) :
    ((run world request.execute db).1 = .ok () ∧
        ∃ writes, Effect db request writes ∧ Wrote writes db (run world request.execute db).2) ∨
      ∃ failure, (run world request.execute db).1 = .error failure ∧
        ((run world request.execute db).2 = db ∨ (¬ world.Sound ∨ ¬ request.action.ThemeAllowed) ∧
          ∃ writes, Effect db request writes ∧ PrefixOf writes db (run world request.execute db).2) := by
  obtain ⟨_, hok, hwrote⟩ | herror := (execute_ensures request db).runFrom world.exec_step 0
  · exact Or.inl ⟨hok, hwrote⟩
  · exact Or.inr herror

/-- A creation by somebody. -/
def newcomer : Request where
  clock := fun _ => Time.epoch
  cryptography := ⟨"salt", fun plainText salt => some (plainText ++ salt)⟩
  agentUser := some ⟨some "agent", some "agent"⟩
  action := .create { email := some "a", password := some "b" }

/-- A world where the fourth request fails. -/
def failingFourth : World where
  engine := fun _ => user_query.Engine.stable
  clock := fun _ => Time.epoch
  fault := fun n => if n = 3 then some (.typeError ⟨"Connection terminated"⟩) else none

/-- The user stays where the insert of the preference fails. -/
theorem execute_not_atomic :
    ¬ ∀ (request : Request) (world : World) (db : Database UuidSource.counting) (failure : Failure),
      (run world request.execute db).1 = .error failure → (run world request.execute db).2 = db := by
  intro hclaim
  have hsame := hclaim newcomer failingFourth Database.empty _ rfl
  have hone : (run failingFourth newcomer.execute
      (Database.empty : Database UuidSource.counting)).2.users.rows.length = 1 := rfl
  rw [hsame] at hone
  cases hone

end node_backend.user_requests
