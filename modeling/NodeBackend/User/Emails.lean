import NodeBackend.User.Passwords

namespace node_backend.user_requests

open js store program
open node_backend.exceptions node_backend.user_database node_backend.user_models node_backend.user_query
open node_backend.user_entity node_backend.user_preference_entity node_backend.abstract_repository
open node_backend.user_repository node_backend.user_service node_backend.user_specs node_backend.user_strategy
open node_backend.user_usecases node_backend.user_schemas

variable {ids : UuidSource} {mayFail : Prop} {db db' : Database ids}

/-- An e-mail that some row has, a deleted one or not, is refused. -/
theorem exec_insertUser_taken {columns : UserColumns} {row : UsersModel} {email : String} (hrow : row ∈ db.users.rows)
    (hold : row.email = email) (hnew : columns.email = some email) (engine : Engine) (now : Time) :
    exec engine now (.insertUser columns) db = (.error emailKey, db) := by
  have hunique : (columns.row now db.users.nextId).email = email := by
    change columns.email.getD "" = email
    rw [hnew, Option.getD_some]
  have hnone : db.users.insert (columns.row now) (fun _ => rfl) = none :=
    Table.insert_eq_none hrow (congrArg some hold) (congrArg some hunique)
  change db.changeUsers (db.users.insert (columns.row now) fun _ => rfl) _ = _
  rw [hnone]
  rfl

/-- An e-mail that no row has is accepted. -/
theorem exec_insertUser_fresh {columns : UserColumns} {email : String} (hnew : columns.email = some email)
    (hfresh : ∀ row ∈ db.users.rows, row.email ≠ email) (engine : Engine) (now : Time) :
    ∃ reply db', exec engine now (.insertUser columns) db = (.ok reply, db') := by
  obtain ⟨users, husers⟩ := db.users.exists_insert (columns.row now) (fun _ => rfl) (by
    intro row hrow value hvalue hsame
    have hemail : (columns.row now db.users.nextId).email = email := by
      change columns.email.getD "" = email
      rw [hnew, Option.getD_some]
    apply hfresh row hrow
    rw [← hemail]
    exact Option.some.inj (hvalue.trans hsame.symm))
  have hrefers : Refers users db.preferences := by
    intro preference hpreference userId huserId
    obtain ⟨user, huser, hid⟩ := db.refers preference hpreference userId huserId
    refine ⟨user, ?_, hid⟩
    rw [(Table.insert_eq_some husers).1]
    exact List.mem_append_left _ huser
  refine ⟨(columns.row now db.users.nextId).load UserSelect.all none, ⟨users, db.preferences, hrefers⟩, ?_⟩
  change db.changeUsers (db.users.insert (columns.row now) fun _ => rfl) _ = _
  rw [husers]
  exact change_of_refers hrefers

theorem mayFail_of_insertUser {columns : UserColumns} {email : String} {failure : Failure}
    (hnew : columns.email = some email) (hfresh : ∀ row ∈ db.users.rows, row.email ≠ email)
    (h : step mayFail (.insertUser columns) db (.error failure) db') : mayFail := by
  obtain ⟨hfail, _⟩ | ⟨engine, now, herror⟩ := step_error h
  · exact hfail
  · obtain ⟨reply, after, hok⟩ := exec_insertUser_fresh hnew hfresh engine now
    cases herror.symm.trans hok

/-- Nobody is found by an e-mail that no row has. -/
theorem getByEmail_fresh (clock : Clock) {email : String} (hfresh : ∀ row ∈ db.users.rows, row.email ≠ email) :
    (getByEmail clock (some email)).Ensures (step mayFail) db (fun found db' => db' = db ∧ found = none)
      fun _ db' => db' = db ∧ mayFail := by
  refine (getByEmail_reads clock email db).mono ?_ fun _ _ h => h
  intro found db' ⟨hsame, hfound⟩
  obtain ⟨user, huser, _, hemail, _⟩ | ⟨hnone, _⟩ := hfound
  · exact absurd hemail (hfresh user huser)
  · exact ⟨hsame, hnone⟩

/-- A service that creates a user with an e-mail that no row has. -/
theorem create_fresh (clock : Clock) {cryptography : Cryptography} {entity : UserEntity} {email password : String}
    (hemail : entity.email = some email) (hpassword : Protected cryptography entity password)
    (hfresh : ∀ row ∈ db.users.rows, row.email ≠ email) :
    (user_service.create clock cryptography entity).Ensures (step mayFail) db
      (fun created db' => created.id = some db.users.nextId ∧
        Wrote [.insertUser (user_repository.toDatabaseEntity (entity.setPassword password))] db db')
      fun _ _ => mayFail := by
  obtain ⟨plainText, hplain, hprotected⟩ := hpassword
  unfold user_service.create
  rw [hplain]
  apply Program.Ensures.rethrow
  change (Program.ofExcept (protectPassword cryptography plainText) >>= _).Ensures _ _ _ _
  rw [hprotected, Program.ofExcept_ok, Program.done_bind]
  have hsearch : (getByEmail clock (some email)).Ensures (step mayFail) db (fun found db' => db' = db ∧ found = none)
      fun _ db' => db' = db ∧ mayFail := getByEmail_fresh clock hfresh
  rw [← hemail] at hsearch
  apply Program.Ensures.bind (hsearch.mono (fun _ _ h => h) fun _ _ h => h.2)
  intro found db' ⟨hsame, hnone⟩
  subst hsame hnone
  unfold user_repository.create abstract_repository.create
  refine Program.Ensures.bind (R := fun created db'' => created.id = some db'.users.nextId ∧
    Wrote [.insertUser (user_repository.toDatabaseEntity (entity.setPassword password))] db' db'')
    (Program.Ensures.rethrow ?_) fun created db'' h => h
  refine Program.Ensures.bind (Program.ensures_perform (fun reply db'' hstep => hstep) fun failure db'' hstep => ?_) ?_
  · exact mayFail_of_insertUser hemail hfresh hstep
  · intro reply db'' hstep
    obtain ⟨now, _, _, rfl⟩ := insertUser_effect hstep
    obtain ⟨created, hcreated, hid, _⟩ := exists_toDomainEntity (clock 1)
      ((user_repository.toDatabaseEntity (entity.setPassword password)).row now db'.users.nextId) UserSelect.all none
    rw [built_ok hcreated]
    exact ⟨hid, wrote_of_step hstep⟩

/-- A creation by somebody, with an e-mail that no row has and a password that can be
protected, returns unless requests fail. -/
theorem createUser_fresh (clock : Clock) {cryptography : Cryptography} {data : UserInput} {email password : String}
    {agentUser : Option UserAuthInterface} (hagent : clientId? agentUser ≠ none) (hemail : data.email = some email)
    (hpassword : ∃ plainText, given data.password = some plainText ∧
      protectPassword cryptography plainText = .ok password)
    (htheme : ThemeAllowed data) (hfresh : ∀ row ∈ db.users.rows, row.email ≠ email) :
    (createUser clock cryptography data agentUser).Ensures (step mayFail) db (fun _ _ => True) fun _ _ => mayFail := by
  unfold createUser
  obtain ⟨clientId, hclientId⟩ := Option.ne_none_iff_exists'.mp hagent
  rw [hclientId]
  obtain ⟨newUser, hnewUser, _⟩ := construct_eq_ok (clock 0) data.userValues rfl
  have hnamed : newUser.email = some email := by
    cases hnewUser
    exact hemail
  have hprotected : Protected cryptography newUser password := by
    cases hnewUser
    exact hpassword
  have hdeleted : newUser.deletedAt = none := by
    cases hnewUser
    rfl
  change (built (user_entity.construct (clock 0) data.userValues) >>= _).Ensures _ _ _ _
  rw [built_ok hnewUser, Program.done_bind, hnamed]
  apply Program.Ensures.bind ((getByEmail_fresh _ hfresh).mono (fun _ _ h => h) fun _ _ h => h.2)
  intro found db' ⟨hsame, hnone⟩
  subst hsame hnone
  apply Program.Ensures.bind (create_fresh _ hnamed hprotected hfresh)
  intro created db'' ⟨hid, hwrote⟩
  obtain ⟨hlive, hnoPreference⟩ := newUser_inserted hdeleted hwrote
  rw [hid]
  apply (addPreference_ensures clock data hlive hnoPreference).mono (fun _ _ _ => trivial)
  intro _ _ ⟨hthrown, _⟩
  obtain hfail | htheme' := hthrown
  · exact hfail
  · exact absurd htheme htheme'

/-- The check of a creation finds nobody exactly where no live user has the e-mail. -/
theorem getByEmail_none_iff {world : World} (hsound : world.Sound) (clock : Clock) (email : String)
    (db : Database ids) : (run world (getByEmail clock (some email)) db).1 = .ok none ↔
      ∀ user ∈ db.users.rows, user.live = true → user.email ≠ email := by
  obtain ⟨found, hok, _, hfound⟩ | ⟨_, _, _, hfail⟩ := run_sound hsound (getByEmail_reads clock email db)
  · rw [hok]
    obtain ⟨user, huser, hlive, hemail, entity, rfl, _⟩ | ⟨rfl, hnone⟩ := hfound
    · apply iff_of_false (by simp)
      intro hnone
      exact hnone user huser hlive hemail
    · exact iff_of_true rfl hnone
  · exact hfail.elim

/-- Where the check of a creation finds nobody, its insert does not violate the unique
index of the e-mails, and it returns. -/
def CheckSuffices (world : World) (clock : Clock) (cryptography : Cryptography) (data : UserInput)
    (agentUser : Option UserAuthInterface) (db : Database ids) : Prop :=
  (run world (getByEmail (fun n => clock (n + 1)) data.email) db).1 = .ok none →
    (∀ call, newUserWrite clock cryptography data = some call → ∀ engine now,
      (exec engine now call db).1 ≠ .error emailKey) ∧
    ∃ user, (run world (createUser clock cryptography data agentUser) db).1 = .ok user

theorem newUserWrite_eq_some (clock : Clock) {cryptography : Cryptography} {data : UserInput}
    {plainText password : String} (hplain : given data.password = some plainText)
    (hpassword : protectPassword cryptography plainText = .ok password) :
    ∃ columns : UserColumns, newUserWrite clock cryptography data = some (.insertUser columns) ∧
      columns.email = data.email := by
  obtain ⟨newUser, hnewUser, _⟩ := construct_eq_ok (clock 0) data.userValues rfl
  have hprotected : Protected cryptography newUser password := by
    cases hnewUser
    exact ⟨plainText, hplain, hpassword⟩
  refine ⟨_, newUserWrite_eq hnewUser hprotected, ?_⟩
  cases hnewUser
  rfl

theorem checkSuffices_iff {world : World} (hsound : world.Sound) (clock : Clock) {cryptography : Cryptography}
    {data : UserInput} {email plainText password : String} {agentUser : Option UserAuthInterface}
    (hagent : clientId? agentUser ≠ none) (hemail : data.email = some email)
    (hplain : given data.password = some plainText) (hpassword : protectPassword cryptography plainText = .ok password)
    (htheme : ThemeAllowed data) (db : Database ids) :
    CheckSuffices world clock cryptography data agentUser db ↔
      ∀ user ∈ db.users.rows, user.live = false → user.email ≠ email := by
  obtain ⟨columns, hwrite, hcolumns⟩ := newUserWrite_eq_some clock hplain hpassword
  unfold CheckSuffices
  rw [hemail, getByEmail_none_iff hsound]
  constructor
  · intro hsuffices user huser hdeleted hsame
    have hnobody : ∀ other ∈ db.users.rows, other.live = true → other.email ≠ email := by
      intro other hother hlive hotherSame
      cases db.users.eq_of_unique_eq huser hother (congrArg some hsame) (congrArg some hotherSame)
      rw [hlive] at hdeleted
      cases hdeleted
    apply (hsuffices hnobody).1 _ hwrite Engine.stable Time.epoch
    rw [exec_insertUser_taken huser hsame (hcolumns.trans hemail)]
  · intro hdeleted hnobody
    have hfresh : ∀ user ∈ db.users.rows, user.email ≠ email := by
      intro user huser
      cases hlive : user.live with
      | true => exact hnobody user huser hlive
      | false => exact hdeleted user huser hlive
    constructor
    · intro call hcall engine now hviolated
      cases hwrite.symm.trans hcall
      obtain ⟨reply, db', hok⟩ := exec_insertUser_fresh (hcolumns.trans hemail) hfresh engine now
      rw [hok] at hviolated
      cases hviolated
    · obtain ⟨user, hok, _⟩ | ⟨_, _, hfail⟩ := run_sound hsound
        (createUser_fresh clock hagent hemail ⟨plainText, hplain, hpassword⟩ htheme hfresh)
      · exact ⟨user, hok⟩
      · exact hfail.elim

/-- After requests that are served one after another, the check of a creation agrees
with the unique index exactly where no deleted user has the e-mail. -/
theorem serveAll_checkSuffices_iff (turns : List Turn) {world : World} (hsound : world.Sound) (clock : Clock)
    {cryptography : Cryptography} {data : UserInput} (hdata : Accepted data) {email plainText password : String}
    {agentUser : Option UserAuthInterface} (hagent : clientId? agentUser ≠ none) (hemail : data.email = some email)
    (hplain : data.password = some plainText) (hpassword : protectPassword cryptography plainText = .ok password) :
    CheckSuffices world clock cryptography data agentUser (serveAll turns : Database ids) ↔
      ∀ user ∈ (serveAll turns : Database ids).users.rows, user.live = false → user.email ≠ email := by
  have hgiven : given data.password = some plainText := by
    rw [hplain]
    exact given_of_ne (ne_empty_of_passwordPattern (hdata.password plainText hplain))
  exact checkSuffices_iff hsound clock hagent hemail hgiven hpassword hdata.theme _

/-- What somebody signs up with. -/
def account (email : String) : UserInput where
  fullName := some "Tester"
  email := some email
  password := some "cGFzczEyMw=="

theorem account_accepted (email : String) : Accepted (account email) := by
  refine ⟨?_, by simp [account, ThemeAllowed]⟩
  intro text htext
  cases htext
  rw [regex_constants.test_passwordPattern]
  decide

def signUp : Turn where
  request := { newcomer with action := .create (account "user@example.com") }
  world := faultless
  allowed := (account_accepted "user@example.com").theme
  sound := faultless_sound

/-- The user that signed up deletes the account. -/
def signOff : Turn where
  request := { newcomer with agentUser := some ⟨some "user@example.com", some "0"⟩, action := .delete "0" }
  world := faultless
  allowed := trivial
  sound := faultless_sound

theorem serveAll_checkSuffices_other : CheckSuffices faultless newcomer.clock newcomer.cryptography
    (account "other@example.com") newcomer.agentUser
    (serveAll [signUp, signOff] : Database UuidSource.counting) := by
  apply (serveAll_checkSuffices_iff [signUp, signOff] faultless_sound newcomer.clock
    (account_accepted "other@example.com") (by decide) rfl rfl rfl).mpr
  intro user huser _
  cases List.mem_singleton.mp huser
  decide

/-- Nobody can sign up again with the e-mail of an account that was deleted, though
the check finds no user. -/
theorem not_checkSuffices_signOff : ¬ CheckSuffices faultless newcomer.clock newcomer.cryptography
    (account "user@example.com") newcomer.agentUser (serveAll [signUp, signOff] : Database UuidSource.counting) := by
  rw [checkSuffices_iff faultless_sound newcomer.clock (by decide) rfl rfl rfl
    (account_accepted "user@example.com").theme]
  intro hdeleted
  exact hdeleted _ (List.mem_singleton.mpr rfl) rfl rfl

end node_backend.user_requests
