import NodeBackend.Program.Ensures
import NodeBackend.User.Query

namespace node_backend.user_database

open js store program
open node_backend.exceptions node_backend.user_models node_backend.user_query
open node_backend.user_entity node_backend.user_preference_entity

/-- Conditions on a preference and on the user it belongs to. -/
structure PreferenceWhere where
  id : Option String := none
  user : Option String := none

/-- One request to the database. -/
inductive Call
  | findUser (options : FindOptions)
  | findUsers (options : FindOptions)
  | insertUser (columns : UserColumns)
  | updateUser (id : String) (columns : UserColumns)
  | softDeleteUser (id : String)
  | deleteUser (id : String)
  | findPreference (condition : PreferenceWhere)
  | insertPreference (columns : PreferenceColumns)
  | updatePreference (id : String) (columns : PreferenceColumns)
  | softDeletePreference (id : String)
  | deletePreference (id : String)

abbrev Call.Reply : Call → Type
  | findUser _ => Option UserValues
  | findUsers _ => List UserValues × Number
  | insertUser _ => UserValues
  | updateUser _ _ => Nat
  | softDeleteUser _ => Nat
  | deleteUser _ => Nat
  | findPreference _ => Option PreferenceValues
  | insertPreference _ => PreferenceValues
  | updatePreference _ _ => Nat
  | softDeletePreference _ => Nat
  | deletePreference _ => Nat

abbrev Promise (A : Type) : Type :=
  Program Call Call.Reply Failure A

def perform (call : Call) : Promise call.Reply :=
  Program.perform call

variable {ids : UuidSource}

/-- Every preference that names a user names one that is in the table. -/
def Refers (users : Table ids UsersModel) (preferences : Table ids UserPreferencesModel) : Prop :=
  ∀ preference ∈ preferences.rows, ∀ userId ∈ preference.userId, ∃ user ∈ users.rows, user.id = userId

instance (users : Table ids UsersModel) (preferences : Table ids UserPreferencesModel) :
    Decidable (Refers users preferences) :=
  inferInstanceAs (Decidable (∀ preference ∈ preferences.rows, ∀ userId ∈ preference.userId,
    ∃ user ∈ users.rows, user.id = userId))

/-- Both tables with the foreign key between them. -/
structure Database (ids : UuidSource) where
  users : Table ids UsersModel
  preferences : Table ids UserPreferencesModel
  refers : Refers users preferences

def Database.empty : Database ids := ⟨Table.empty, Table.empty, by simp [Refers, Table.empty]⟩

def duplicateKey (constraint : String) : Failure :=
  .plain
    { name := some "QueryFailedError"
      message := "duplicate key value violates unique constraint \"" ++ (constraint ++ "\"")
      code := some "23505" }

def missingKey (table constraint : String) : Failure :=
  .plain
    { name := some "QueryFailedError"
      message := table ++ (" violates foreign key constraint \"" ++ (constraint ++ "\""))
      code := some "23503" }

/-- The unique index on Users.email. -/
def emailKey : Failure :=
  duplicateKey "UQ_3c3ab3f49a87e6ddb607f3c4945"

/-- The unique index on UserPreferences.userId. -/
def userIdKey : Failure :=
  duplicateKey "REL_5f8256554b2eec66fda266f625"

/-- The foreign key of UserPreferences, as a change of either table reports it. -/
def preferenceUserKey : Failure :=
  missingKey "insert or update on table \"UserPreferences\"" "FK_5f8256554b2eec66fda266f625b"

def userPreferenceKey : Failure :=
  missingKey "update or delete on table \"Users\"" "FK_5f8256554b2eec66fda266f625b"

/-- Outcome of a statement that gives new tables, or none where it violates a unique
index. A statement that violates a constraint has no effect. -/
def Database.change {R : Type} (db : Database ids) (duplicate foreign : Failure)
    (tables : Option (Table ids UsersModel × Table ids UserPreferencesModel)) (reply : R) :
    Except Failure R × Database ids :=
  match tables with
  | none => (.error duplicate, db)
  | some (users, preferences) =>
    if h : Refers users preferences then (.ok reply, ⟨users, preferences, h⟩) else (.error foreign, db)

def Database.changeUsers {R : Type} (db : Database ids) (users : Option (Table ids UsersModel)) (reply : R) :
    Except Failure R × Database ids :=
  db.change emailKey userPreferenceKey (users.map (·, db.preferences)) reply

def Database.changePreferences {R : Type} (db : Database ids) (preferences : Option (Table ids UserPreferencesModel))
    (reply : R) : Except Failure R × Database ids :=
  db.change userIdKey preferenceUserKey (preferences.map (db.users, ·)) reply

/-- A text that no identifier is spelled by, where a uuid is expected. -/
def invalidUuid (text : String) : Failure :=
  .plain
    { name := some "QueryFailedError"
      message := "invalid input syntax for type uuid: \"" ++ (text ++ "\"")
      code := some "22P02" }

/-- The texts of a request that the database reads as identifiers. -/
def Call.identifiers : Call → List String
  | findUser options => options.filters.filterMap UserWhere.id
  | findUsers options => options.filters.filterMap UserWhere.id
  | insertUser _ => []
  | updateUser id _ => [id]
  | softDeleteUser id => [id]
  | deleteUser id => [id]
  | findPreference condition => condition.id.toList ++ condition.user.toList
  | insertPreference columns => columns.user.toList
  | updatePreference id columns => id :: columns.user.toList
  | softDeletePreference id => [id]
  | deletePreference id => [id]

/-- Why the database refuses a request before it looks at the tables. -/
def Call.refusal (ids : UuidSource) (call : Call) : Option Failure :=
  (call.identifiers.find? fun text => (ids.read text).isNone).map invalidUuid

/-- The live preferences that meet a condition. The user they are asked for has to
be live too. -/
def PreferenceWhere.matching (condition : PreferenceWhere) (db : Database ids) : List UserPreferencesModel :=
  db.preferences.rows.filter fun row => row.live && condition.id.all (fun text => ids.read text == some row.id) &&
    condition.user.all fun text => (ids.read text).any fun userId =>
      row.userId == some userId && db.users.rows.any fun user => user.live && user.id == userId

/-- Reply and effect of a request that is not refused, at a time, with the rows
arranged as the engine does. -/
def execRead (engine : Engine) (now : Time) : Exec Call Call.Reply Failure (Database ids)
  | .findUser options, db =>
    (.ok ((engine.arrange options.order (options.matching db.users db.preferences)).head?.map
      (options.load db.preferences)), db)
  | .findUsers options, db =>
    ((engine.cut options.toPaginationOptions
        (engine.arrange options.order (options.matching db.users db.preferences))).map fun found =>
      (found.1.map (options.load db.preferences), found.2), db)
  | .insertUser columns, db =>
    db.changeUsers (db.users.insert (columns.row now) fun _ => rfl)
      ((columns.row now db.users.nextId).load UserSelect.all none)
  | .updateUser id columns, db =>
    db.changeUsers (db.users.modify id (columns.change now) fun _ => rfl) (db.users.affected id)
  | .softDeleteUser id, db =>
    db.changeUsers (db.users.modify id (UsersModel.softDelete now) fun _ => rfl) (db.users.affected id)
  | .deleteUser id, db => db.changeUsers (some (db.users.delete id)) (db.users.affected id)
  | .findPreference condition, db => (.ok ((condition.matching db).head?.map fun row => row.load none), db)
  | .insertPreference columns, db =>
    db.changePreferences (db.preferences.insert ((columns.stored ids).row now) fun _ => rfl)
      (((columns.stored ids).row now db.preferences.nextId).load columns.user)
  | .updatePreference id columns, db =>
    db.changePreferences (db.preferences.modify id ((columns.stored ids).change now) fun _ => rfl)
      (db.preferences.affected id)
  | .softDeletePreference id, db =>
    db.changePreferences (db.preferences.modify id (UserPreferencesModel.softDelete now) fun _ => rfl)
      (db.preferences.affected id)
  | .deletePreference id, db =>
    db.changePreferences (some (db.preferences.delete id)) (db.preferences.affected id)

/-- Reply and effect of a request. -/
def exec (engine : Engine) (now : Time) : Exec Call Call.Reply Failure (Database ids) := fun call db =>
  match call.refusal ids with
  | some failure => (.error failure, db)
  | none => execRead engine now call db

/-- What the database and the network make of the requests of a run: how it arranges
rows, what time it is, and which requests fail. The nth of each is for the nth
request. -/
structure World where
  engine : Nat → Engine
  clock : Nat → Time
  fault : Nat → Option Failure

def World.exec (world : World) (n : Nat) : Exec Call Call.Reply Failure (Database ids) := fun call db =>
  match world.fault n with
  | some failure => (.error failure, db)
  | none => user_database.exec (world.engine n) (world.clock n) call db

/-- No request fails but for a constraint. -/
def World.Sound (world : World) : Prop :=
  ∀ n, world.fault n = none

/-- Everything that a request can lead to, failures without effect among it where
they are allowed. -/
def step (mayFail : Prop) : Step Call Call.Reply Failure (Database ids) := fun call db reply db' =>
  (mayFail ∧ (∃ failure, reply = .error failure) ∧ db' = db) ∨
    ∃ engine now, exec engine now call db = (reply, db')

theorem World.exec_step (world : World) (n : Nat) (call : Call) (db : Database ids) :
    step (¬ world.Sound) call db (world.exec n call db).1 (world.exec n call db).2 := by
  unfold World.exec
  cases hfault : world.fault n with
  | some failure =>
    refine Or.inl ⟨fun hsound => ?_, ⟨failure, rfl⟩, rfl⟩
    rw [hsound n] at hfault
    cases hfault
  | none => exact Or.inr ⟨world.engine n, world.clock n, rfl⟩

end node_backend.user_database
