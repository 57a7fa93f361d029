import NodeBackend.Program.Confined
import NodeBackend.Program.Turns
import NodeBackend.User.Calls
import NodeBackend.User.Owners
import NodeBackend.User.Pairing

namespace node_backend.user_requests

open js store program
open node_backend.exceptions node_backend.user_database node_backend.user_models node_backend.user_query
open node_backend.user_entity node_backend.user_preference_entity node_backend.abstract_repository
open node_backend.user_repository node_backend.user_service node_backend.user_specs node_backend.user_strategy
open node_backend.user_calls node_backend.user_usecases

variable {ids : UuidSource}

/-- A reply that some database gives whose preferences are those users'. -/
def Possible (ids : UuidSource) (owners : List (String × Option String)) (call : Call)
    (reply : Except Failure call.Reply) : Prop :=
  ∃ db db' : Database ids, db.owners = owners ∧ step True call db reply db'

/-- What a service method makes of the reply to its one call has ended. -/
theorem ended_of_reply {A B C : Type} (reply : Except Failure A) {build : A → Promise B} {finish : B → Promise C}
    (hbuild : ∀ a, (build a).Ended) (hfinish : ∀ b, (finish b).Ended) :
    (user_service.guarded (abstract_repository.guarded (Program.ofExcept reply >>= build) >>= finish)).Ended :=
  Program.Ended.tryCatch (Program.Ended.bind (Program.Ended.tryCatch (Program.Ended.bind
    (Program.ended_ofExcept reply) hbuild) fun _ => trivial) hfinish) fun _ => trivial

section confined

variable {owners : List (String × Option String)} {Kind : Call → Prop}

theorem getById_confined (clock : Clock) {id : String} (h : Kind (.findUser (queryById id true))) :
    (user_service.getById clock (some id)).Confined (Possible ids owners) Kind
      fun user => ∃ userId, user.id = some userId ∧ ids.read userId = some userId ∧
        (id ≠ "" → ids.read id = some userId) := by
  refine Program.Ensures.confined (step True) (fun db : Database ids => db.owners = owners) h (fun reply => ?_)
    (fun _ hreply => ?_) fun db _ => (getById_ensures clock id db).mono ?_ fun _ _ _ => trivial
  · apply ended_of_reply reply (fun _ => Program.ended_ofExcept _)
    intro user
    cases user <;> trivial
  · obtain ⟨db, db', howners, hstep⟩ := hreply
    exact ⟨db, db', howners, hstep⟩
  · rintro user db' ⟨_, userId, hasked, huser⟩
    obtain ⟨hid, hlive⟩ := huser.live
    exact ⟨userId, hid, read_of_liveUser hlive, hasked⟩

theorem getByUserId_confined (clock : Clock) {text : String} (h : Kind (.findPreference { user := some text })) :
    (user_preference_service.getByUserId clock (some text)).Confined (Possible ids owners) Kind
      fun preference => ∃ userId, ids.read text = some userId ∧
        ∃ id, preference.id = some id ∧ ids.read id = some id ∧ (id, some userId) ∈ owners := by
  refine Program.Ensures.confined (step True) (fun db : Database ids => db.owners = owners) h (fun reply => ?_)
    (fun _ hreply => ?_) fun db howners => (getByUserId_ensures clock text db).mono ?_ fun _ _ _ => trivial
  · apply ended_of_reply reply (fun _ => Program.ended_ofExcept _)
    intro preference
    cases preference <;> trivial
  · obtain ⟨db, db', howners, hstep⟩ := hreply
    exact ⟨db, db', howners, hstep⟩
  · rintro preference db' ⟨_, userId, hread, hpreference⟩
    obtain ⟨_, id, hid, hown⟩ := hpreference.live
    exact ⟨userId, hread, id, hid, read_of_preference hown, howners ▸ owners_of_outline hown⟩

theorem validatePermission_confined (action : String) (agentUser : UserAuthInterface) (user : UserEntity) :
    (validatePermission action agentUser user).Confined (Possible ids owners) Kind
      fun _ => agentUser.clientId = user.id := by
  unfold validatePermission
  split
  · next hallowed =>
    unfold isAllowedToManageUser at hallowed
    rw [Bool.and_eq_true] at hallowed
    exact eq_of_beq hallowed.2
  · trivial

end confined

section manages

variable {owners : List (String × Option String)} {userId : String}

theorem updateUser_manages (columns : UserColumns) (hread : ids.read userId = some userId)
    (hdeletedAt : columns.deletedAt = none) : Manages ids owners (some userId) (.updateUser userId columns) where
  user := fun _ hid => ⟨userId, rfl, Option.some.inj hid ▸ hread⟩
  preference := fun _ hid => by cases hid
  inPlace := hdeletedAt

theorem softDeleteUser_manages (hread : ids.read userId = some userId) :
    Manages ids owners (some userId) (.softDeleteUser userId) where
  user := fun _ hid => ⟨userId, rfl, Option.some.inj hid ▸ hread⟩
  preference := fun _ hid => by cases hid
  inPlace := trivial

theorem updatePreference_manages {id : String} (columns : PreferenceColumns) (hread : ids.read id = some id)
    (howner : (id, some userId) ∈ owners) (hdeletedAt : columns.deletedAt = none) (huser : columns.user = none) :
    Manages ids owners (some userId) (.updatePreference id columns) where
  user := fun _ hid => by cases hid
  preference := fun _ hid => ⟨id, Option.some.inj hid ▸ hread, userId, rfl, howner⟩
  inPlace := ⟨hdeletedAt, huser⟩

theorem softDeletePreference_manages {id : String} (hread : ids.read id = some id)
    (howner : (id, some userId) ∈ owners) : Manages ids owners (some userId) (.softDeletePreference id) where
  user := fun _ hid => by cases hid
  preference := fun _ hid => ⟨id, Option.some.inj hid ▸ hread, userId, rfl, howner⟩
  inPlace := trivial

end manages

/-- The text of the user that an update or a deletion is about. -/
def Action.target : Action → Option String
  | create _ => none
  | update id _ => some id
  | delete id => some id

/-- Who asks, as far as that is known. -/
def Request.clientId (request : Request) : Option String :=
  clientId? request.agentUser

/-- A read, or a write for an agent that is the user it is about. -/
def OwnCall (ids : UuidSource) (owners : List (String × Option String)) (text : String)
    (agentUser : Option UserAuthInterface) (call : Call) : Prop :=
  Finds call ∨ ∃ id, ids.read text = some id ∧ clientId? agentUser = some id ∧ Manages ids owners (some id) call

/-- The same of an update, which leaves alone what tells of a deletion. -/
def UpdateCall (ids : UuidSource) (owners : List (String × Option String)) (text : String)
    (agentUser : Option UserAuthInterface) (call : Call) : Prop :=
  OwnCall ids owners text agentUser call ∧ Edits call

section own

variable {owners : List (String × Option String)} {id : String} {agentUser : Option UserAuthInterface} {call : Call}

theorem OwnCall.manages (h : OwnCall ids owners id agentUser call) :
    Manages ids owners (clientId? agentUser) call := by
  obtain hfinds | ⟨_, _, hclientId, hmanages⟩ := h
  · exact hfinds.manages
  · rw [hclientId]
    exact hmanages

theorem Finds.own (h : Finds call) : OwnCall ids owners id agentUser call :=
  Or.inl h

theorem Finds.update (h : Finds call) : UpdateCall ids owners id agentUser call := by
  refine ⟨Or.inl h, ?_⟩
  cases call <;> first | exact h | exact h.elim

/-- The agent that is allowed to manage a user is the one asked for. -/
theorem clientId_of_allowed {agent : UserAuthInterface} {clientId : String} {user : UserEntity}
    (hclientId : clientId? (some agent) = some clientId) (huser : user.id = some id)
    (hallowed : agent.clientId = user.id) : clientId = id := by
  have hagent : agent.clientId = some clientId := (Option.filter_eq_some_iff.mp hclientId).1
  rw [hagent, huser] at hallowed
  exact Option.some.inj hallowed

end own

/-- An update writes the user that its agent is, and the preference of that user,
whatever happens between its requests. -/
theorem updateUser_confined (owners : List (String × Option String)) (clock : Clock) (cryptography : Cryptography)
    (id : String) (data : UserInput) (agentUser : Option UserAuthInterface) :
    (updateUser clock cryptography id data agentUser).Confined (Possible ids owners)
      (UpdateCall ids owners id agentUser) fun _ => True := by
  unfold updateUser
  split
  · next agent clientId hclientId =>
    apply (getById_confined clock (Finds.update trivial)).bind
    intro user h
    obtain ⟨other, huser, hreadUser, hasked⟩ := h
    apply (getByUserId_confined _ (Finds.update trivial)).bind
    rintro preference ⟨userId, hread, preferenceId, hpreference, hreadPreference, howner⟩
    apply (validatePermission_confined "update" agent user).bind
    intro _ hallowed
    have hsame := hasked (UuidSource.ne_empty_of_read hread)
    obtain rfl : userId = other := Option.some.inj (hread.symm.trans hsame)
    rw [clientId_of_allowed hclientId huser hallowed] at hclientId
    refine (Program.Only.confined (writeUser_only _ _ ?_ (Finds.update trivial))).bind fun _ _ => ?_
    · rintro text htext entity password hentity
      cases huser.symm.trans htext
      cases hentity
      exact ⟨Or.inr ⟨userId, hread, hclientId, updateUser_manages _ hreadUser rfl⟩, rfl, rfl⟩
    refine (Program.Only.confined (writePreference_only _ _ ?_ (Finds.update trivial))).bind fun _ _ => ?_
    · rintro text htext entity
      cases hpreference.symm.trans htext
      exact ⟨Or.inr ⟨userId, hread, hclientId, updatePreference_manages _ hreadPreference howner rfl rfl⟩, rfl⟩
    exact Program.Only.confined (reread_only _ (Finds.update trivial) (Finds.update trivial))
  · trivial

theorem deleteUser_confined (owners : List (String × Option String)) (clock : Clock) (id : String)
    (agentUser : Option UserAuthInterface) :
    (deleteUser clock id agentUser).Confined (Possible ids owners) (OwnCall ids owners id agentUser) fun _ => True := by
  unfold deleteUser
  split
  · next agent clientId hclientId =>
    apply (getById_confined clock (Finds.own trivial)).bind
    intro user h
    obtain ⟨other, huser, hreadUser, hasked⟩ := h
    apply (getByUserId_confined _ (Finds.own trivial)).bind
    rintro preference ⟨userId, hread, preferenceId, hpreference, hreadPreference, howner⟩
    apply (validatePermission_confined "delete" agent user).bind
    intro _ hallowed
    have hsame := hasked (UuidSource.ne_empty_of_read hread)
    obtain rfl : userId = other := Option.some.inj (hread.symm.trans hsame)
    rw [clientId_of_allowed hclientId huser hallowed] at hclientId
    refine (Program.Only.confined (preference_delete_only ?_)).bind fun _ _ => ?_
    · rintro text htext
      cases hpreference.symm.trans htext
      exact Or.inr ⟨userId, hread, hclientId, softDeletePreference_manages hreadPreference howner⟩
    refine (Program.Only.confined (delete_only ?_ ?_)).bind fun deleted _ => ?_
    · rintro text htext
      cases huser.symm.trans htext
      exact Or.inr ⟨userId, hread, hclientId, updateUser_manages _ hreadUser rfl⟩
    · rintro text htext
      cases huser.symm.trans htext
      exact Or.inr ⟨userId, hread, hclientId, softDeleteUser_manages hreadUser⟩
    split <;> trivial
  · trivial

/-- The calls that a request may make. -/
def RequestCall (ids : UuidSource) (owners : List (String × Option String)) (request : Request) (call : Call) : Prop :=
  ∃ id, request.action.target = some id ∧ OwnCall ids owners id request.agentUser call ∧
    (request.action ≠ .delete id → Edits call)

theorem execute_confined (owners : List (String × Option String)) {request : Request}
    (htarget : request.action.target.isSome = true) :
    request.execute.Confined (Possible ids owners) (RequestCall ids owners request) fun _ => True := by
  obtain ⟨clock, cryptography, agentUser, action⟩ := request
  cases action with
  | create data => cases htarget
  | update id data =>
    refine ((updateUser_confined owners clock cryptography id data agentUser).mono (fun call h => ?_) fun _ h => h).bind
      fun _ _ => trivial
    exact ⟨id, rfl, h.1, fun _ => h.2⟩
  | delete id =>
    exact (deleteUser_confined owners clock id agentUser).mono (fun call h => ⟨id, rfl, h, fun hnot => (hnot rfl).elim⟩)
      fun _ h => h

/-- Requests that take turns on one database, with how many turns were taken. -/
abbrev Pool (ids : UuidSource) : Type :=
  program.Pool Call Call.Reply Failure Unit (Nat × Database ids)

def Pool.db (pool : Pool ids) : Database ids :=
  pool.state.2

def Pool.turn (world : World) (pool : Pool ids) (thread : Nat) : Pool ids :=
  program.Pool.turn world.exec pool thread

/-- The requests after some turns, each of which is one call to the database. -/
def afterTurns (world : World) (requests : List Request) (db : Database ids) (turns : List Nat) : Pool ids :=
  program.Pool.afterTurns world.exec (requests.map Request.execute) db turns

/-- The calls that each of the requests may make. -/
def ManagesAs (ids : UuidSource) (requests : List Request) (owners : List (String × Option String)) (thread : Nat)
    (call : Call) : Prop :=
  ∃ request, requests[thread]? = some request ∧ RequestCall ids owners request call

theorem numbered_step (world : World) (call : Call) (s : Nat × Database ids) :
    step (¬ world.Sound) call s.2 (numbered world.exec call s).1 (numbered world.exec call s).2.2 :=
  world.exec_step s.1 call s.2

/-- Preferences stay whose they are, so all requests keep to their calls. -/
theorem orderly_numbered {requests : List Request} {owners : List (String × Option String)} (world : World)
    (thread : Nat) (call : Call) (s : Nat × Database ids) (hcall : ManagesAs ids requests owners thread call)
    (hs : s.2.owners = owners) :
    Possible ids owners call (numbered world.exec call s).1 ∧ (numbered world.exec call s).2.2.owners = owners := by
  obtain ⟨request, _, id, _, hown, _⟩ := hcall
  have hstep := numbered_step world call s
  subst hs
  refine ⟨⟨s.2, (numbered world.exec call s).2.2, rfl, hstep.imp_left fun h => ⟨trivial, h.2⟩⟩, ?_⟩
  exact (hown.manages.changesOnly hstep).owners_eq

theorem start_orderly {requests : List Request} (htarget : ∀ request ∈ requests, request.action.target.isSome = true)
    (db : Database ids) :
    (program.Pool.start (0, db) (requests.map Request.execute)).Orderly (Possible ids db.owners)
      (ManagesAs ids requests db.owners) fun s => s.2.owners = db.owners := by
  refine ⟨rfl, ?_⟩
  intro thread p hthread
  change (requests.map Request.execute)[thread]? = some p at hthread
  rw [List.getElem?_map] at hthread
  obtain ⟨request, hrequest, rfl⟩ := Option.map_eq_some_iff.mp hthread
  exact (execute_confined db.owners (htarget request (List.mem_of_getElem? hrequest))).mono
    (fun _ h => ⟨request, hrequest, h⟩) fun _ h => h

theorem afterTurns_orderly {requests : List Request}
    (htarget : ∀ request ∈ requests, request.action.target.isSome = true)
    (world : World) (db : Database ids) (turns : List Nat) :
    (afterTurns world requests db turns).Orderly (Possible ids db.owners) (ManagesAs ids requests db.owners)
      fun s => s.2.owners = db.owners := by
  exact program.Pool.afterTurns_invariant (start_orderly htarget db)
    (fun pool thread call next h hthread => h.advance (orderly_numbered world) hthread) turns

/-- However updates and deletions take turns, each of them writes only rows of the
user that its agent is, and leaves all other rows as they are. -/
theorem turn_changesOnly {requests : List Request} (htarget : ∀ request ∈ requests, request.action.target.isSome = true)
    (world : World) (db : Database ids) (turns : List Nat) {thread : Nat} {request : Request}
    (hrequest : requests[thread]? = some request) :
    (∀ call next, (afterTurns world requests db turns).threads[thread]? = some (.await call next) →
      WritesOnly request.clientId (afterTurns world requests db turns).db call) ∧
    ChangesOnly request.clientId (afterTurns world requests db turns).db
      ((afterTurns world requests db turns).turn world thread).db := by
  have horderly := afterTurns_orderly htarget world db turns
  have howners : (afterTurns world requests db turns).db.owners = db.owners := horderly.state
  have hmanages : ∀ call next, (afterTurns world requests db turns).threads[thread]? = some (.await call next) →
      Manages ids (afterTurns world requests db turns).db.owners request.clientId call := by
    intro call next hthread
    obtain ⟨other, hother, id, _, hown, _⟩ := horderly.kind hthread
    cases hrequest.symm.trans hother
    rw [howners]
    exact hown.manages
  refine ⟨fun call next hthread => (hmanages call next hthread).writesOnly, ?_⟩
  obtain hsame | ⟨call, next, hthread, heq⟩ :=
    program.Pool.turn_cases world.exec (afterTurns world requests db turns) thread
  · rw [Pool.turn, hsame]
    exact ChangesOnly.refl _ _
  · rw [Pool.turn, heq]
    exact (hmanages call next hthread).changesOnly (numbered_step world call _)

/-- The newcomer changes its name, and leaves. -/
def rename : Request where
  clock := newcomer.clock
  cryptography := newcomer.cryptography
  agentUser := some ⟨some "a", some "0"⟩
  action := .update "0" { fullName := some "c" }

def departure : Request :=
  { rename with action := .delete "0" }

theorem turn_changesOnly_departure :
    ChangesOnly (some "0")
      (afterTurns faultless [rename, departure] (serveAll [newcomerTurn] : Database UuidSource.counting)
        [0, 0, 1, 1]).db
      ((afterTurns faultless [rename, departure] (serveAll [newcomerTurn]) [0, 0, 1, 1]).turn faultless 1).db :=
  (turn_changesOnly (by decide) faultless _ _ (rfl : [rename, departure][1]? = some departure)).2

end node_backend.user_requests
