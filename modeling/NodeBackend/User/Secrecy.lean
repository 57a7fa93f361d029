import NodeBackend.User.Calls
import NodeBackend.User.Hidden
import NodeBackend.User.Listing
import NodeBackend.User.Update

namespace node_backend.user_usecases

open js store program
open node_backend.exceptions node_backend.user_database node_backend.user_models node_backend.user_query
open node_backend.user_entity node_backend.user_preference_entity node_backend.abstract_repository
open node_backend.user_repository node_backend.user_service node_backend.user_strategy node_backend.user_calls

/-- The password column is hidden. -/
def passwordVeil : Veil where
  hide := fun row => { row with password := "" }
  id := fun _ => rfl
  email := fun _ => rfl
  live := fun _ => rfl
  change := by
    intro columns now a b hab
    simp only [UsersModel.mk.injEq] at hab
    simp [UserColumns.change, hab]
  softDelete := by
    intro now a b hab
    simp only [UsersModel.mk.injEq] at hab
    simp [UsersModel.softDelete, hab]

/-- No query selects the password. -/
abbrev Discreet {A : Type} (promise : Promise A) : Prop :=
  promise.Only (BlindCall passwordVeil)

section discreet

variable {A : Type}

theorem blind_of_select {options : FindOptions} (h : options.select.password = false) : Blind passwordVeil options where
  filters := fun _ _ _ _ _ => rfl
  load := by
    intro row preference
    unfold UsersModel.load
    rw [h]
    rfl

theorem blind_getById (id : Option String) : BlindCall passwordVeil
    (.findUser (buildParams { id := id, withoutSensitiveData := false, withoutPassword := true })) :=
  blind_of_select rfl

theorem blind_findOptions (condition : UserWhere) : BlindCall passwordVeil (.findUser (findOptions condition)) :=
  blind_of_select rfl

theorem getByEmail_discreet (clock : Clock) (email : Option String) : Discreet (getByEmail clock email) :=
  service_guarded_only (findOne_only _ (blind_findOptions _))

theorem create_discreet (clock : Clock) (cryptography : Cryptography) (entity : UserEntity) :
    Discreet (user_service.create clock cryptography entity) := by
  apply service_guarded_only
  cases given entity.password with
  | none => exact throw_only _
  | some userPassword =>
    refine (Program.only_ofExcept _).bind fun password => (getByEmail_discreet _ _).bind fun founded => ?_
    split
    · exact throw_only _
    · exact Program.Only.bind (guarded_only ((perform_only (by trivial)).bind fun _ => built_only _))
        fun _ => by trivial

theorem preference_create_discreet (clock : Clock) (entity : UserPreferenceEntity) :
    Discreet (user_preference_service.create clock entity) :=
  service_guarded_only (guarded_only ((perform_only (by trivial)).bind fun _ => built_only _))

theorem reread_discreet (clock : Clock) (id : Option String) : Discreet (reread clock id) :=
  reread_only clock (blind_getById id) trivial

theorem createUser_discreet (clock : Clock) (cryptography : Cryptography) (data : UserInput)
    (agentUser : Option UserAuthInterface) : Discreet (createUser clock cryptography data agentUser) := by
  unfold createUser
  split
  · exact throw_only _
  refine (built_only _).bind fun newUser => (getByEmail_discreet _ _).bind fun existent => ?_
  split
  · exact throw_only _
  apply (create_discreet _ _ _).bind
  intro created
  exact (built_only _).bind fun _ => (Program.only_ofExcept _).bind fun _ =>
    (preference_create_discreet _ _).bind fun _ => reread_discreet _ _

theorem updateUser_discreet (clock : Clock) (cryptography : Cryptography) (id : String) (data : UserInput)
    (agentUser : Option UserAuthInterface) : Discreet (updateUser clock cryptography id data agentUser) := by
  unfold updateUser
  split
  · refine (getById_only _ (blind_getById _)).bind fun user => (getByUserId_only _ trivial).bind fun preference =>
      (validatePermission_only _ _ _).bind fun _ => ?_
    exact (writeUser_only _ _ (fun _ _ _ _ _ => trivial) (blind_findOptions _)).bind fun _ =>
      (writePreference_only _ _ (fun _ _ _ => trivial) trivial).bind fun _ => reread_discreet _ _
  · exact throw_only _

theorem deleteUser_discreet (clock : Clock) (id : String) (agentUser : Option UserAuthInterface) :
    Discreet (deleteUser clock id agentUser) := by
  unfold deleteUser
  split
  · refine (getById_only _ (blind_getById _)).bind fun user => (getByUserId_only _ trivial).bind fun _ =>
      (validatePermission_only _ _ _).bind fun _ => (preference_delete_only fun _ _ => trivial).bind fun _ =>
        (delete_only (fun _ _ => trivial) fun _ _ => trivial).bind fun deleted => ?_
    split <;> trivial
  · exact throw_only _

theorem getUser_discreet (clock : Clock) (id : String) (agentUser : Option UserAuthInterface) :
    Discreet (getUser clock id agentUser) := by
  unfold getUser
  split
  · exact throw_only _
  · exact (reread_discreet _ _).bind fun _ => trivial

theorem listUsers_discreet (clock : Clock) (query : UserBuildParams) : Discreet (listUsers clock query) :=
  service_guarded_only (guarded_only ((perform_only (by exact blind_of_select rfl)).bind fun _ =>
    (built_only _).bind fun _ => by trivial))

end discreet

end node_backend.user_usecases

namespace node_backend.user_requests

open js store program
open node_backend.exceptions node_backend.user_database node_backend.user_models node_backend.user_query
open node_backend.user_entity node_backend.user_preference_entity node_backend.abstract_repository
open node_backend.user_repository node_backend.user_service node_backend.user_specs node_backend.user_strategy
open node_backend.user_usecases

variable {ids : UuidSource} {mayFail : Prop} {db db' : Database ids}

inductive Execution
  | createUser (data : UserInput)
  | getUser (id : String)
  | listUsers (query : UserBuildParams)
  | updateUser (id : String) (data : UserInput)
  | deleteUser (id : String)

/-- An execution of a use case, with who asks for it, what it comes by, and the world
it is served in. -/
structure Visit where
  clock : Clock
  cryptography : Cryptography
  agentUser : Option UserAuthInterface
  execution : Execution
  world : World

inductive Answer
  | user (entity : UserEntity)
  | users (page : PaginationInterface)
  | nothing

def Answer.entities : Answer → List UserEntity
  | user entity => [entity]
  | users page => page.content
  | nothing => []

def Visit.promise (visit : Visit) : Promise Answer :=
  match visit.execution with
  | .createUser data => Answer.user <$> createUser visit.clock visit.cryptography data visit.agentUser
  | .getUser id => Answer.user <$> getUser visit.clock id visit.agentUser
  | .listUsers query => Answer.users <$> listUsers visit.clock query
  | .updateUser id data => Answer.user <$> updateUser visit.clock visit.cryptography id data visit.agentUser
  | .deleteUser id => (fun _ => Answer.nothing) <$> deleteUser visit.clock id visit.agentUser

/-- What the callers get, one after another. -/
def answers : List Visit → Database ids → List (Except Failure Answer)
  | [], _ => []
  | visit :: rest, db => (run visit.world visit.promise db).1 :: answers rest (run visit.world visit.promise db).2

theorem promise_discreet (visit : Visit) : Discreet visit.promise := by
  obtain ⟨clock, cryptography, agentUser, execution, world⟩ := visit
  cases execution with
  | createUser data => exact (createUser_discreet clock cryptography data agentUser).bind fun _ => trivial
  | getUser id => exact (getUser_discreet clock id agentUser).bind fun _ => trivial
  | listUsers query => exact (listUsers_discreet clock query).bind fun _ => trivial
  | updateUser id data => exact (updateUser_discreet clock cryptography id data agentUser).bind fun _ => trivial
  | deleteUser id => exact (deleteUser_discreet clock id agentUser).bind fun _ => trivial

/-- The password of the entity is undefined or empty. -/
def Blank (entity : UserEntity) : Prop :=
  entity.password = none ∨ entity.password = some ""

theorem blank_of_reread {clock : Clock} {id : String} {entity : UserEntity} (h : Reread clock db id entity) :
    Blank entity := by
  obtain ⟨user, preference, ⟨row, _, _, _, hread⟩, _, rfl⟩ := h
  cases (toDomainEntity_load (clock 0) row (queryById id true).select _).symm.trans hread
  exact Or.inl rfl

/-- Users that were found become entities. -/
theorem mapM_load (now : Time) (options : FindOptions) (preferences : Table ids UserPreferencesModel)
    (users : List UsersModel) : (users.map (options.load preferences)).mapM (toDomainEntity now) =
      .ok (users.map fun user => shownUser user options.select
        ((if options.relations then joined preferences user.id else none).elim (emptyPreference now user.id)
          fun row => shownPreference row none)) := by
  induction users with
  | nil => rfl
  | cons user users ih =>
    have hload : toDomainEntity now (options.load preferences user) = .ok _ :=
      toDomainEntity_load now user options.select _
    rw [List.map_cons, List.mapM_cons, hload, ih]
    rfl

theorem listUsers_ensures (clock : Clock) (query : UserBuildParams) (db : Database ids) :
    (listUsers clock query).Ensures (step mayFail) db (fun page _ => ∀ entity ∈ page.content, Blank entity)
      fun _ _ => True := by
  refine Program.Ensures.rethrow (Program.Ensures.rethrow (Program.Ensures.bind
    (R := fun reply _ => ∃ users : List UsersModel, reply.1 = users.map ((buildedQuery query true).load db.preferences))
    (Program.ensures_perform (fun reply db' hstep => ?_) fun _ _ _ => trivial) ?_))
  · obtain ⟨_, engine, now, hexec⟩ := step_ok hstep
    obtain ⟨⟨users, count⟩, _, hreply⟩ := exists_of_map_eq_ok (Prod.mk.inj hexec).1
    exact ⟨users, congrArg Prod.fst hreply.symm⟩
  · rintro ⟨rows, count⟩ db' ⟨users, rfl⟩
    have hcontent := mapM_load (clock 0) (buildedQuery query true) db.preferences users
    refine Program.Ensures.bind (R := fun content _ => ∀ entity ∈ content, Blank entity)
      (built_ensures (fun content hok => ?_) fun error herror => trivial) fun _ _ h => h
    cases hcontent.symm.trans hok
    intro entity hentity
    obtain ⟨user, _, rfl⟩ := List.mem_map.mp hentity
    exact Or.inl rfl

/-- Whatever a use case returns shows no password. -/
theorem promise_blank (visit : Visit) (db : Database ids) :
    visit.promise.Ensures (step mayFail) db (fun answer _ => ∀ entity ∈ answer.entities, Blank entity)
      fun _ _ => True := by
  obtain ⟨clock, cryptography, agentUser, execution, world⟩ := visit
  cases execution with
  | createUser data =>
    refine Program.Ensures.bind ((createUser_ensures clock cryptography data agentUser db).mono (fun _ _ h => h)
      fun _ _ _ => trivial) ?_
    rintro user db' ⟨hread, _⟩ entity hentity
    cases List.mem_singleton.mp hentity
    exact blank_of_reread hread
  | getUser id =>
    change (getUser clock id agentUser >>= fun user => _).Ensures _ _ _ _
    apply Program.Ensures.bind (R := fun user _ => Blank user)
    · unfold getUser
      split
      · trivial
      · apply Program.Ensures.bind ((reread_ensures clock id db).mono (fun _ _ h => h) fun _ _ _ => trivial)
        exact fun _ _ _ => Or.inr rfl
    · intro user db' hblank entity hentity
      cases List.mem_singleton.mp hentity
      exact hblank
  | listUsers query =>
    apply Program.Ensures.bind ((listUsers_ensures clock query db).mono (fun _ _ h => h) fun _ _ _ => trivial)
    exact fun _ _ h => h
  | updateUser id data =>
    refine Program.Ensures.bind ((updateUser_ensures clock cryptography id data agentUser db).mono (fun _ _ h => h)
      fun _ _ _ => trivial) ?_
    rintro user db' ⟨_, _, _, hread⟩ entity hentity
    cases List.mem_singleton.mp hentity
    exact blank_of_reread hread
  | deleteUser id =>
    refine Program.Ensures.bind
      ((deleteUser_ensures clock id agentUser db).mono (fun _ _ h => h) fun _ _ _ => trivial) ?_
    rintro _ _ _ entity (_ | _)

/-- The passwords stay in the module: on two databases that differ in the password
column only, the same executions give the same results and errors, and no entity
that is returned shows a password. -/
theorem answers_alike {visits : List Visit}
    (hengine : ∀ visit ∈ visits, ∀ n, ArrangesBlind passwordVeil (visit.world.engine n))
    (h : Alike passwordVeil db db') :
    answers visits db = answers visits db' ∧
      ∀ answer, .ok answer ∈ answers visits db → ∀ entity ∈ answer.entities, Blank entity := by
  induction visits generalizing db db' with
  | nil => exact ⟨rfl, by simp [answers]⟩
  | cons visit visits ih =>
    obtain ⟨hsame, hstate⟩ := (promise_discreet visit).runFrom_related
      (fun n call s s' hcall hs => hs.world_exec (hengine visit List.mem_cons_self) n hcall) 0 h
    obtain ⟨hrest, hblank⟩ := ih (fun other hother => hengine other (List.mem_cons_of_mem _ hother)) hstate
    refine ⟨?_, ?_⟩
    · unfold answers
      exact congrArg₂ List.cons hsame hrest
    · intro answer hanswer
      obtain hfirst | hlater := List.mem_cons.mp hanswer
      · obtain ⟨other, hok, hother⟩ | ⟨failure, herror, _⟩ := (promise_blank visit db).runFrom visit.world.exec_step 0
        · cases hfirst.trans hok
          exact hother
        · cases hfirst.trans herror
      · exact hblank answer hlater

/-- The newcomer as another password leaves it. -/
def otherPassword : Turn :=
  { newcomerTurn with request := { newcomer with action := .create { email := some "a", password := some "c" } } }

theorem otherPassword_alike :
    Alike passwordVeil (serveAll [newcomerTurn] : Database UuidSource.counting) (serveAll [otherPassword]) := by
  -- Each side is run by itself: to compare the two runs step by step takes far longer.
  have husers : (serveAll [newcomerTurn] : Database UuidSource.counting).users.rows.map passwordVeil.hide =
      [⟨"0", "", "a", "", none, none, none, none, Time.epoch, Time.epoch, none, none⟩] := rfl
  have hpreferences : (serveAll [newcomerTurn] : Database UuidSource.counting).preferences.rows =
      [⟨"0", none, none, Time.epoch, Time.epoch, none, some "0"⟩] := rfl
  exact ⟨⟨husers.trans rfl, rfl⟩, Table.eq_of_rows (hpreferences.trans rfl) rfl⟩

theorem answers_alike_newcomer :
    answers [⟨fun _ => Time.epoch, newcomer.cryptography, newcomer.agentUser, .getUser "0", faultless⟩]
        (serveAll [newcomerTurn] : Database UuidSource.counting) =
      answers [⟨fun _ => Time.epoch, newcomer.cryptography, newcomer.agentUser, .getUser "0", faultless⟩]
        (serveAll [otherPassword] : Database UuidSource.counting) := by
  refine (answers_alike (fun visit hvisit n => ?_) otherPassword_alike).1
  cases List.mem_singleton.mp hvisit
  exact stable_arrangesBlind fun sortBy row => by cases sortBy <;> rfl

end node_backend.user_requests
