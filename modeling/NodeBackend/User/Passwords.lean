import NodeBackend.User.Login
import NodeBackend.User.Update

namespace node_backend.user_requests

open js store program
open node_backend.exceptions node_backend.user_database node_backend.user_models node_backend.user_query
open node_backend.user_entity node_backend.user_outline node_backend.user_repository node_backend.user_schemas
open node_backend.user_service node_backend.user_specs node_backend.user_strategy node_backend.user_usecases

variable {ids : UuidSource} {db db' : Database ids}

/-- The user whose password a request sets, with that password: at the creation, and
by an update that returns and carries one. The update names the user in some spelling. -/
def accepted (db : Database ids) (turn : Turn) : Option (String × String) :=
  match turn.request.action with
  | .create data =>
    (run turn.world (createUser turn.request.clock turn.request.cryptography data turn.request.agentUser)
      db).1.toOption.bind fun user => user.id.bind fun id => data.password.map fun password => (id, password)
  | .update id data =>
    (run turn.world (updateUser turn.request.clock turn.request.cryptography id data turn.request.agentUser)
      db).1.toOption.bind fun _ => (ids.read id).bind fun userId => data.password.map fun password =>
        (userId, password)
  | .delete _ => none

def serveAndRecord (state : Database ids × List (String × String)) (turn : Turn) :
    Database ids × List (String × String) :=
  (serve state.1 turn, (accepted state.1 turn).toList ++ state.2)

/-- The passwords that requests set, the last one first. -/
def passwords (ids : UuidSource) (turns : List Turn) : List (String × String) :=
  (turns.foldl serveAndRecord ((Database.empty : Database ids), [])).2

/-- The action comes with an input that its schema accepts. -/
def Action.Accepted : Action → Prop
  | create data => user_schemas.Accepted data
  | update _ data => user_schemas.Accepted data
  | delete _ => True

/-- A request with an accepted input, served with a good salt. -/
structure Turn.Secured (security : Security) (turn : Turn) : Prop where
  accepted : turn.request.action.Accepted
  salt : ∃ salt, turn.request.cryptography = security.cryptography salt ∧ salt ≠ "" ∧ '|' ∉ salt.toList

/-- The last password that was set for a user is the one that is stored. -/
def Recorded (security : Security) (db : Database ids) (passwords : List (String × String)) : Prop :=
  ∀ user ∈ db.users.rows, ∃ password, passwords.lookup user.id = some password ∧ Stored security password user.password

theorem newUserWrite_password {clock : Clock} {cryptography : Cryptography} {data : UserInput} {columns : UserColumns}
    (h : newUserWrite clock cryptography data = some (.insertUser columns)) :
    ∃ plainText password, data.password = some plainText ∧ protectPassword cryptography plainText = .ok password ∧
      columns.password = some password := by
  change (do let userPassword ← given data.password; _) = _ at h
  obtain ⟨plainText, hplain, h⟩ := Option.bind_eq_some_iff.mp h
  obtain ⟨password, hpassword, hcall⟩ := Option.bind_eq_some_iff.mp h
  cases hcall
  exact ⟨plainText, password, (Option.filter_eq_some_iff.mp hplain).1, eq_ok_of_toOption hpassword, rfl⟩

/-- A creation appends a row with a protected form of the password. -/
theorem createWrites_rows {clock : Clock} {cryptography : Cryptography} {data : UserInput}
    (hfirst : (newUserWrite clock cryptography data).isSome = true)
    (hsecond : (newPreferenceWrite clock data db.users.nextId).isSome = true)
    (h : Wrote (createWrites clock cryptography data db.users.nextId) db db') :
    ∃ row plainText, db'.users.rows = db.users.rows ++ [row] ∧ row.id = db.users.nextId ∧
      data.password = some plainText ∧ protectPassword cryptography plainText = .ok row.password := by
  obtain ⟨first, hfirst⟩ := Option.isSome_iff_exists.mp hfirst
  obtain ⟨second, hsecond⟩ := Option.isSome_iff_exists.mp hsecond
  unfold createWrites at h
  rw [hfirst, hsecond] at h
  obtain ⟨columns, rfl, _⟩ := newUserWrite_some hfirst
  obtain ⟨preferenceColumns, rfl, _, _⟩ := newPreferenceWrite_some (ids.nonempty _) hsecond
  obtain ⟨plainText, password, hplain, hprotected, hcolumns⟩ := newUserWrite_password hfirst
  cases h with
  | cons reply hstep hrest =>
    cases hrest with
    | cons reply' hstep' hrest' =>
      cases hrest'
      obtain ⟨now, hrows, _, _⟩ := insertUser_effect hstep
      obtain ⟨_, _, husers, _⟩ := insertPreference_effect hstep'
      rw [husers]
      refine ⟨_, plainText, hrows, rfl, hplain, ?_⟩
      rw [hprotected]
      unfold UserColumns.row
      rw [hcolumns]
      rfl

/-- A deletion sets no password. -/
theorem deleteWrites_rows {clock : Clock} {id clientId : String} {writes : List Call}
    (hwrites : DeleteWrites clock id clientId db writes) (h : Wrote writes db db') :
    ∀ user ∈ db'.users.rows, ∃ old ∈ db.users.rows, old.id = user.id ∧ old.password = user.password := by
  obtain ⟨preference, preferenceId, _, _, rfl⟩ := hwrites
  cases h with
  | cons reply hstep hrest =>
    cases hrest with
    | cons reply' hstep' hrest' =>
      cases hrest' with
      | cons reply'' hstep'' hrest'' =>
        cases hrest''
        obtain ⟨_, _, _, _, husers⟩ := softDeletePreference_effect hstep
        obtain ⟨userId, _, hread, hrows, _⟩ := updateUser_effect hstep'
        obtain ⟨other, _, hread', hrows', _⟩ := softDeleteUser_effect hstep''
        obtain rfl : userId = other := Option.some.inj (hread.symm.trans hread')
        intro user huser
        rw [hrows', hrows, husers, List.map_map] at huser
        obtain ⟨old, hold, rfl⟩ := List.mem_map.mp huser
        refine ⟨old, hold, ?_⟩
        rw [Function.comp_apply]
        split
        · split
          · exact ⟨rfl, rfl⟩
          · exact ⟨rfl, rfl⟩
        · exact ⟨rfl, rfl⟩

section recorded

variable {security : Security} {known : List (String × String)}

/-- A new user comes with the password. -/
theorem Recorded.create (h : Recorded security db known) {row : UsersModel} {password : String}
    (hrows : db'.users.rows = db.users.rows ++ [row]) (hid : row.id = db.users.nextId)
    (hstored : Stored security password row.password) :
    Recorded security db' ((db.users.nextId, password) :: known) := by
  intro user huser
  rw [hrows] at huser
  obtain hold | hnew := List.mem_append.mp huser
  · obtain ⟨other, hlookup, hother⟩ := h user hold
    have hne : user.id ≠ db.users.nextId := db.users.id_ne_nextId hold
    refine ⟨other, ?_, hother⟩
    rw [List.lookup_cons, beq_eq_false_iff_ne.mpr hne]
    exact hlookup
  · rw [List.mem_singleton.mp hnew, hid, List.lookup_cons_self]
    exact ⟨password, rfl, hstored⟩

/-- An update replaces the password of its user, if it carries one. -/
theorem Recorded.update (h : Recorded security db known) {cryptography : Cryptography} {data : UserInput} {id : String}
    {password : Option String} {time : Time}
    (hpassword : data.password.mapM (protectPassword cryptography) = .ok password)
    (hprotects : ∀ plainText stored, protectPassword cryptography plainText = .ok stored →
      Stored security plainText stored)
    (hrows : db'.users.rows = db.users.rows.map fun row =>
      if row.id = id then updatedUser data password time row else row) :
    Recorded security db' ((data.password.map fun plainText => (id, plainText)).toList ++ known) := by
  intro user huser
  rw [hrows] at huser
  obtain ⟨row, hrow, rfl⟩ := List.mem_map.mp huser
  obtain ⟨other, hlookup, hother⟩ := h row hrow
  cases hplain : data.password with
  | none =>
    rw [hplain] at hpassword
    cases hpassword
    refine ⟨other, ?_, ?_⟩
    · split
      · exact hlookup
      · exact hlookup
    · split
      · exact hother
      · exact hother
  | some plainText =>
    rw [hplain, Option.mapM_some] at hpassword
    cases hprotected : protectPassword cryptography plainText with
    | error e =>
      rw [hprotected] at hpassword
      cases hpassword
    | ok stored =>
      rw [hprotected] at hpassword
      cases hpassword
      rw [Option.map_some, Option.toList_some, List.singleton_append]
      by_cases hsame : row.id = id
      · rw [if_pos hsame]
        refine ⟨plainText, ?_, hprotects plainText stored hprotected⟩
        change List.lookup row.id _ = _
        rw [hsame, List.lookup_cons_self]
      · rw [if_neg hsame, List.lookup_cons, beq_eq_false_iff_ne.mpr hsame]
        exact ⟨other, hlookup, hother⟩

end recorded

/-- A run of a use case whose result is dropped. -/
theorem serve_eq {A : Type} {turn : Turn} {promise : Promise A}
    (h : turn.request.execute = promise >>= fun _ => Program.done ()) :
    serve db turn = (run turn.world promise db).2 := by
  unfold serve run
  rw [h, Program.runFrom_bind_done]

/-- A request that throws changed nothing. -/
theorem eq_of_thrown {action : Action} (hallowed : action.ThemeAllowed) {P : Prop}
    (h : db' = db ∨ (False ∨ ¬ action.ThemeAllowed) ∧ P) : db' = db := by
  obtain hsame | ⟨hfail | hnone, _⟩ := h
  · exact hsame
  · exact hfail.elim
  · exact absurd hallowed hnone

/-- Serving a request keeps the passwords recorded. -/
theorem Recorded.serve {security : Security} {turn : Turn} (hturn : turn.Secured security)
    {known : List (String × String)} (h : Recorded security db known) :
    Recorded security (serve db turn) ((accepted db turn).toList ++ known) := by
  obtain ⟨⟨clock, cryptography, agentUser, action⟩, world, hallowed, hsound⟩ := turn
  obtain ⟨hinput, salt, rfl, _, hsalt⟩ := hturn
  cases action with
  | create data =>
    rw [serve_eq rfl]
    simp only [accepted]
    obtain ⟨user, hok, hread, hfirst, hsecond, hwrote⟩ | ⟨_, herror, hunchanged⟩ :=
      run_sound hsound (createUser_ensures clock (security.cryptography salt) data agentUser db)
    · obtain ⟨row, plainText, hrows, hrowId, hplain, hprotected⟩ := createWrites_rows hfirst hsecond hwrote
      rw [hok, hplain]
      change Recorded security _ ((user.id.bind fun id => some (id, plainText)).toList ++ known)
      rw [hread.live.1]
      exact h.create hrows hrowId (stored_of_protectPassword hsalt hprotected)
    · rw [herror, eq_of_thrown hallowed hunchanged]
      exact h
  | update id data =>
    rw [serve_eq rfl]
    simp only [accepted]
    obtain ⟨_, hok, userId, hread, hupdated, _⟩ | ⟨_, herror, hunchanged⟩ :=
      run_sound hsound (updateUser_ensures clock (security.cryptography salt) id data agentUser db)
    · obtain ⟨row, hrow, _, rfl⟩ := updated_live hupdated
      obtain ⟨_, _, _, _, password, _, time, _, hpassword, _, hrows, _⟩ :=
        updated_rows (fun text htext => ne_empty_of_passwordPattern (hinput.password text htext)) hrow hupdated
      rw [hok, hread]
      exact h.update hpassword (fun _ _ hprotected => stored_of_protectPassword hsalt hprotected) hrows
    · rw [herror, eq_of_thrown hallowed hunchanged]
      exact h
  | delete id =>
    obtain ⟨_, _, clientId, _, writes, _, _, hwrites, hwrote⟩ | ⟨_, _, hunchanged⟩ :=
      run_sound hsound (deleteUser_ensures clock id agentUser db)
    · intro user huser
      obtain ⟨old, hold, hid, hpassword⟩ := deleteWrites_rows hwrites hwrote user huser
      rw [← hid, ← hpassword]
      exact h old hold
    · have hsame := eq_of_thrown hallowed (hunchanged.imp_right fun hthrown => ⟨Or.inl hthrown.1, hthrown.2⟩)
      change Recorded security (run world (deleteUser clock id agentUser) db).2 known
      rw [hsame]
      exact h

/-- In every state that requests lead to, the passwords are recorded. -/
theorem serveAll_recorded {security : Security} {turns : List Turn} (hturns : ∀ turn ∈ turns, turn.Secured security) :
    Recorded security (serveAll turns : Database ids) (passwords ids turns) := by
  suffices h : ∀ (db : Database ids) (known : List (String × String)), Recorded security db known →
      Recorded security (turns.foldl user_requests.serve db) (turns.foldl serveAndRecord (db, known)).2 from
    h Database.empty [] (by simp [Recorded, Database.empty, Table.empty])
  induction turns with
  | nil => exact fun _ _ h => h
  | cons turn turns ih =>
    intro db known h
    exact ih (fun other hother => hturns other (List.mem_cons_of_mem _ hother)) _ _
      (h.serve (hturns turn List.mem_cons_self))

/-- Login accepts exactly the last password that was set: after requests with accepted
inputs that are served one after another, it returns for the e-mail of a live user
with the password that was set last, and throws one and the same error for all
others. No login changes the tables. -/
theorem login_iff {security : Security} (hinjective : Function.Injective security.hashing)
    (hplain : ∀ text, '|' ∉ (security.hashing text).toList)
    (hsign : ∀ auth, ∃ token, security.sign auth = .ok token) {turns : List Turn}
    (hturns : ∀ turn ∈ turns, turn.Secured security) (world : World) (clock : Clock) (data : LoginInput) :
    (world.Sound →
      ((∃ result, (run world (loginUser clock security data) (serveAll turns : Database ids)).1 = .ok result) ↔
        ∃ user ∈ (serveAll turns : Database ids).users.rows, user.live = true ∧ user.email = data.email ∧
          (passwords ids turns).lookup user.id = some data.password)) ∧
    (∀ failure, (run world (loginUser clock security data) (serveAll turns : Database ids)).1 = .error failure →
      failure = invalidCredentials) ∧
    (run world (loginUser clock security data) (serveAll turns : Database ids)).2 = serveAll turns := by
  have hrecorded : Recorded security (serveAll turns : Database ids) (passwords ids turns) := serveAll_recorded hturns
  have hvalid : Valid security data (serveAll turns : Database ids) ↔
      ∃ user ∈ (serveAll turns : Database ids).users.rows, user.live = true ∧ user.email = data.email ∧
        (passwords ids turns).lookup user.id = some data.password := by
    refine exists_congr fun user => and_congr_right fun huser => and_congr_right fun _ => and_congr_right fun _ => ?_
    obtain ⟨password, hlookup, hstored⟩ := hrecorded user huser
    rw [validatePassword_iff hinjective hplain hstored, hlookup]
    exact ⟨fun heq => congrArg some heq.symm, fun heq => (Option.some.inj heq).symm⟩
  obtain ⟨result, hok, hsame, haccepted⟩ | ⟨failure, herror, hinvalid, hsame, hrefused⟩ :=
    (loginUser_ensures clock hsign data (serveAll turns : Database ids)).runFrom world.exec_step 0
  · refine ⟨fun _ => iff_of_true ⟨result, hok⟩ (hvalid.mp haccepted), fun failure herror => ?_, hsame⟩
    cases hok.symm.trans herror
  · refine ⟨fun hsound => iff_of_false ?_ ?_, fun other hother => ?_, hsame⟩
    · intro h
      obtain ⟨result, hok⟩ := h
      cases herror.symm.trans hok
    · obtain hunsound | hnone := hrefused
      · exact absurd hsound hunsound
      · exact fun hmatching => hnone (hvalid.mpr hmatching)
    · cases herror.symm.trans hother
      exact hinvalid

/-- A text with its bars replaced, so that no other text becomes the same. -/
def replaceBars (text : String) : String :=
  String.ofList (text.toList.flatMap fun c => if c = '|' then ['p', 'p'] else [c, 'q'])

theorem replaceBars_injective : Function.Injective replaceBars := by
  intro first second h
  have hlists : ∀ a b : List Char, (a.flatMap fun c => if c = '|' then ['p', 'p'] else [c, 'q']) =
      (b.flatMap fun c => if c = '|' then ['p', 'p'] else [c, 'q']) → a = b := by
    intro a
    induction a with
    | nil =>
      intro b hnil
      cases b with
      | nil => rfl
      | cons d b => by_cases hd : d = '|' <;> simp [hd] at hnil
    | cons c a ih =>
      intro b hcons
      cases b with
      | nil => by_cases hc : c = '|' <;> simp [hc] at hcons
      | cons d b =>
        by_cases hc : c = '|' <;> by_cases hd : d = '|' <;> simp [hc, hd] at hcons
        · rw [hc, hd, ih b hcons]
        · rw [hcons.1, ih b hcons.2]
  exact String.toList_inj.mp (hlists _ _ (String.ofList_inj.mp h))

theorem replaceBars_plain (text : String) : '|' ∉ (replaceBars text).toList := by
  unfold replaceBars
  rw [String.toList_ofList, List.mem_flatMap]
  intro h
  obtain ⟨c, _, hc⟩ := h
  by_cases hbar : c = '|' <;> simp [hbar] at hc
  exact hbar hc.symm

def replacing : Security where
  secret := "secret"
  hashing := replaceBars
  sign := fun _ => .ok "token"

theorem themeAllowed_secured : ThemeAllowed { email := some "a", password := some "cGFzczEyMw==" } := by
  simp [ThemeAllowed]

/-- The newcomer with a password that the schema accepts. -/
def securedTurn : Turn where
  request :=
    { newcomer with
      cryptography := replacing.cryptography "salt"
      action := .create { email := some "a", password := some "cGFzczEyMw==" } }
  world := faultless
  allowed := themeAllowed_secured
  sound := faultless_sound

theorem securedTurn_secured : securedTurn.Secured replacing where
  accepted := by
    refine ⟨?_, themeAllowed_secured⟩
    rintro text (_ | _)
    decide
  salt := ⟨"salt", rfl, by simp, by simp⟩

theorem login_iff_newcomer :
    (∃ result, (run faultless (loginUser (fun _ => Time.epoch) replacing ⟨"a", "cGFzczEyMw=="⟩)
      (serveAll [securedTurn] : Database UuidSource.counting)).1 = .ok result) ↔
      ∃ user ∈ (serveAll [securedTurn] : Database UuidSource.counting).users.rows, user.live = true ∧ user.email = "a" ∧
        (passwords UuidSource.counting [securedTurn]).lookup user.id = some "cGFzczEyMw==" := by
  have hturns : ∀ turn ∈ [securedTurn], turn.Secured replacing := by
    rintro turn hturn
    cases List.mem_singleton.mp hturn
    exact securedTurn_secured
  have hlogin := @login_iff UuidSource.counting replacing replaceBars_injective replaceBars_plain
    (fun _ => ⟨"token", rfl⟩) _ hturns faultless (fun _ => Time.epoch) ⟨"a", "cGFzczEyMw=="⟩
  exact hlogin.1 fun _ => rfl

end node_backend.user_requests
