import NodeBackend.User.Specs
import NodeBackend.User.Usecases

namespace node_backend.user_service

open js program
open node_backend.exceptions node_backend.user_database node_backend.user_query node_backend.user_entity

/-- What CryptographyService is built from: its secret, its hash, and the signing of a
token. -/
structure Security where
  secret : String
  hashing : String → String
  sign : user_strategy.UserAuthInterface → Except ErrorInterface String

namespace Security

variable (security : Security)

def hashWithSecret (data salt : String) : Option String :=
  some (security.hashing (data ++ (security.secret ++ salt)))

/-- The same with a fresh salt, as one creation or update has it. -/
def cryptography (salt : String) : Cryptography where
  salt := salt
  hashWithSecret := security.hashWithSecret

end Security

/-- crypto.timingSafeEqual of the bytes of two texts. -/
def compareBuffer (b1 b2 : String) : Except Failure Bool :=
  if b1.utf8ByteSize = b2.utf8ByteSize then .ok (b1 == b2)
  else
    .error (.plain
      { name := some "RangeError"
        message := "Input buffers must have the same byte length"
        code := some "ERR_CRYPTO_TIMING_SAFE_EQUAL_LENGTH" })

/-- The parts of a text between separators. -/
def split (text : String) (separator : Char) : List String :=
  (text.toList.splitOn separator).map String.ofList

def validatePassword (security : Security) (userPassword : Option String) (passwordToValidate : String) :
    Except Failure Unit :=
  match given userPassword with
  | none => .error (thrown .unauthorized "Invalid password")
  | some userPassword =>
    let parts := split userPassword '|'
    match given parts[0]?, given parts[1]? with
    | some salt, some hash => do
      let newHash := security.hashWithSecret passwordToValidate salt
      let isSameHash ← compareBuffer hash (newHash.getD "")
      if isSameHash then .ok ()
      else
        .error (.http (buildException .unauthorized
          { message := "Incorrect password", details := some "Password hash is different from database" }))
    | _, _ =>
      .error (.http (buildException .internal
        { message := "Error to get password", details := some "Invalid salt or hash" }))

/-- UserService.getById with the password. -/
def getByIdWithPassword (clock : Clock) (id : Option String) : Promise UserEntity :=
  guarded do
    let user ← user_repository.getById (clock 0) id false
    match user with
    | some user => return user
    | none => Program.throw (thrown .notFound "User not founded by ID!")

end node_backend.user_service

namespace node_backend.user_usecases

open js program
open node_backend.exceptions node_backend.user_database node_backend.user_entity
open node_backend.user_preference_entity node_backend.abstract_repository node_backend.user_service

structure LoginInput where
  email : String
  password : String

/-- The preference that a login adds to its user, if it can be read. -/
def addFoundPreference (clock : Clock) (user : UserEntity) (id : Option String) : Promise UserEntity := do
  let preference ← (some <$> user_preference_service.getByUserId clock id).tryCatch fun _ => pure none
  return (preference.map user.setPreference).getD user

/-- The body of a login, which may throw anything. -/
def checkCredentials (clock : Clock) (security : Security) (data : LoginInput) : Promise (UserEntity × String) := do
  let foundedUser ← getByEmail clock (some data.email)
  match foundedUser with
  | none => Program.throw (thrown .notFound "User not founded by e-mail!")
  | some foundedUser => do
    let user ← getByIdWithPassword (fun n => clock (n + 1)) foundedUser.id
    Program.ofExcept (validatePassword security user.password data.password)
    let user := user.setPassword ""
    let user ← addFoundPreference (fun n => clock (n + 2)) user foundedUser.id
    let token ← built (security.sign ⟨user.email, user.id⟩)
    return (user, token)

def invalidCredentials : Failure :=
  thrown .unauthorized "Invalid Credentials"

/-- LoginUserUseCase.execute. The delays before its errors take no part. -/
def loginUser (clock : Clock) (security : Security) (data : LoginInput) : Promise (UserEntity × String) :=
  (checkCredentials clock security data).tryCatch fun _ => Program.throw invalidCredentials

end node_backend.user_usecases

namespace node_backend.user_service

open node_backend.exceptions node_backend.user_query node_backend.user_specs

/-- What is stored for a password: a salt and the hash that goes with it. -/
def Stored (security : Security) (password stored : String) : Prop :=
  ∃ salt hash, salt ≠ "" ∧ '|' ∉ salt.toList ∧ hash ≠ "" ∧ security.hashWithSecret password salt = some hash ∧
    stored = salt ++ ("|" ++ hash)

theorem stored_of_protectPassword {security : Security} {salt password stored : String} (hsalt : '|' ∉ salt.toList)
    (h : protectPassword (security.cryptography salt) password = .ok stored) : Stored security password stored := by
  unfold protectPassword at h
  by_cases hempty : (security.cryptography salt).salt = ""
  · rw [if_pos hempty] at h
    cases h
  rw [if_neg hempty] at h
  cases hhash : given ((security.cryptography salt).hashWithSecret password (security.cryptography salt).salt) with
  | none =>
    rw [hhash] at h
    cases h
  | some hash =>
    rw [hhash] at h
    cases h
    obtain ⟨hcomputed, hne⟩ := Option.filter_eq_some_iff.mp hhash
    exact ⟨salt, hash, hempty, hsalt, bne_iff_ne.mp hne, hcomputed, rfl⟩

theorem split_stored {salt hash : String} (hsalt : '|' ∉ salt.toList) (hhash : '|' ∉ hash.toList) :
    split (salt ++ ("|" ++ hash)) '|' = [salt, hash] := by
  have htext : (salt ++ ("|" ++ hash)).toList = salt.toList ++ '|' :: hash.toList := by simp
  unfold split
  rw [htext, List.splitOn_append_cons_self_of_not_mem hsalt, List.splitOn_eq_singleton hhash]
  simp

/-- Exactly the password that is stored is valid. -/
theorem validatePassword_iff {security : Security} (hinjective : Function.Injective security.hashing)
    (hplain : ∀ text, '|' ∉ (security.hashing text).toList) {password stored : String}
    (h : Stored security password stored) (passwordToValidate : String) :
    validatePassword security (some stored) passwordToValidate = .ok () ↔ passwordToValidate = password := by
  obtain ⟨salt, hash, hsalt, hsaltPlain, hhash, hcomputed, rfl⟩ := h
  cases hcomputed
  have hne : salt ++ ("|" ++ security.hashing (password ++ (security.secret ++ salt))) ≠ "" := by
    intro hempty
    exact hsalt (String.append_eq_empty_iff.mp hempty).1
  unfold validatePassword
  rw [given_of_ne hne]
  simp only [split_stored hsaltPlain (hplain _), List.getElem?_cons_zero, List.getElem?_cons_succ, given_of_ne hsalt,
    given_of_ne hhash]
  by_cases hsame : passwordToValidate = password
  · subst hsame
    refine iff_of_true ?_ rfl
    simp [compareBuffer, Security.hashWithSecret, bind, Except.bind]
  · refine iff_of_false ?_ hsame
    have hother : security.hashing (password ++ (security.secret ++ salt)) ≠
        security.hashing (passwordToValidate ++ (security.secret ++ salt)) := by
      intro heq
      exact hsame ((String.append_left_inj _).mp (hinjective heq)).symm
    unfold compareBuffer
    split
    · simp [Security.hashWithSecret, hother, bind, Except.bind]
    · simp [bind, Except.bind]

end node_backend.user_service

namespace node_backend.user_usecases

open js store program
open node_backend.exceptions node_backend.user_database node_backend.user_models node_backend.user_query
open node_backend.user_entity node_backend.user_preference_entity node_backend.abstract_repository
open node_backend.user_repository node_backend.user_service node_backend.user_specs

variable {ids : UuidSource} {mayFail : Prop}

theorem holds_email {email : String} {user : UsersModel} {preference : Option UserPreferencesModel} :
    UserWhere.holds { email := some email } ids user preference = true ↔ user.email = email := by
  simp [UserWhere.holds, equals, Option.all]

/-- A live user is found by the e-mail. -/
theorem getByEmail_reads (clock : Clock) (email : String) (db : Database ids) :
    (getByEmail clock (some email)).Ensures (step mayFail) db
      (fun found db' => db' = db ∧
        ((∃ user ∈ db.users.rows, user.live = true ∧ user.email = email ∧
            ∃ entity, found = some entity ∧ entity.id = some user.id) ∨
          found = none ∧ ∀ user ∈ db.users.rows, user.live = true → user.email ≠ email))
      fun _ db' => db' = db ∧ mayFail := by
  unfold getByEmail user_repository.findOne abstract_repository.findOne
  refine Program.Ensures.rethrow (Program.Ensures.rethrow
    ((findUser_readable_ensures _ (by simp [findOptions]) db).bind fun found db' hfound => ?_))
  obtain ⟨rfl, ⟨user, huser, rfl⟩ | ⟨hnone, rfl⟩⟩ := hfound
  · obtain ⟨entity, hentity, hid⟩ := exists_load_toDomainEntity (clock 0) (findOptions { email := some email }) db' user
    rw [built_ok (mapM_some_ok hentity)]
    obtain ⟨hmem, hlive, hholds⟩ := (mem_matching rfl).mp huser
    exact ⟨rfl, Or.inl ⟨user, hmem, hlive, holds_email.mp hholds, entity, rfl, hid⟩⟩
  · refine ⟨rfl, Or.inr ⟨rfl, fun user hmem hlive hemail => ?_⟩⟩
    have hfound : user ∈ (findOptions { email := some email }).matching db'.users db'.preferences :=
      (mem_matching rfl).mpr ⟨hmem, hlive, holds_email.mpr hemail⟩
    rw [hnone] at hfound
    cases hfound

/-- A live user is found with the password. -/
theorem getByIdWithPassword_ensures (clock : Clock) {db : Database ids} {row : UsersModel} (hrow : row ∈ db.users.rows)
    (hlive : row.live = true) :
    (getByIdWithPassword clock (some row.id)).Ensures (step mayFail) db
      (fun user db' => db' = db ∧ ∃ preference, user = shownUser row UserSelect.all preference)
      fun _ db' => db' = db ∧ mayFail := by
  have hid : row.id ≠ "" := db.users.id_nonempty hrow
  unfold getByIdWithPassword
  refine Program.Ensures.rethrow (Program.Ensures.bind
    (R := fun found db' => db' = db ∧ ∃ preference, found = some (shownUser row UserSelect.all preference)) ?_ ?_)
  · change (abstract_repository.guarded (user_database.perform (.findUser (queryById row.id false)) >>=
      fun result => built (result.mapM (toDomainEntity (clock 0))))).Ensures _ _ _ _
    have hread : ids.read row.id = some row.id := db.users.read_id hrow
    have hasked : ∀ text ∈ (queryById row.id false).filters.filterMap UserWhere.id, ∃ id, ids.read text = some id := by
      rw [queryById_filters hid]
      exact exists_read_of_mem hread
    refine Program.Ensures.rethrow ((findUser_readable_ensures _ hasked db).bind fun found db' hfound => ?_)
    obtain ⟨rfl, ⟨user, huser, rfl⟩ | ⟨hnone, _⟩⟩ := hfound
    · obtain ⟨hmem, _, hsame⟩ := (mem_queryById hid).mp huser
      cases db'.users.eq_of_id_eq hmem hrow (Option.some.inj (hsame.symm.trans hread))
      have hloaded : toDomainEntity (clock 0) ((queryById row.id false).load db'.preferences row) = .ok _ :=
        toDomainEntity_load (clock 0) row UserSelect.all (joined db'.preferences row.id)
      rw [built_ok (mapM_some_ok hloaded)]
      exact ⟨rfl, _, rfl⟩
    · have hmem : row ∈ (queryById row.id false).matching db'.users db'.preferences :=
        (mem_queryById hid).mpr ⟨hrow, hlive, hread⟩
      rw [hnone] at hmem
      cases hmem
  · intro found db' h
    obtain ⟨rfl, preference, rfl⟩ := h
    exact ⟨rfl, preference, rfl⟩

/-- The search for the preference never fails. -/
theorem addFoundPreference_ensures (clock : Clock) (user : UserEntity) (id : String) (db : Database ids)
    {thrown : Failure → Database ids → Prop} :
    (addFoundPreference clock user (some id)).Ensures (step mayFail) db (fun _ db' => db' = db) thrown := by
  unfold addFoundPreference
  refine Program.Ensures.bind (R := fun _ db' => db' = db)
    (Program.Ensures.tryCatch (R := fun _ db' => db' = db) ?_ fun _ _ h => h) fun _ _ h => h
  rw [Program.map_eq]
  refine Program.Ensures.bind ((user_specs.getByUserId_ensures clock id db).mono (fun _ _ h => h) ?_) ?_
  · exact fun _ _ h => h.1
  · exact fun _ _ h => h.1

/-- The credentials are those of a live user. -/
def Valid (security : Security) (data : LoginInput) (db : Database ids) : Prop :=
  ∃ user ∈ db.users.rows, user.live = true ∧ user.email = data.email ∧
    validatePassword security (some user.password) data.password = .ok ()

/-- A login returns for valid credentials, and throws the one error for all others,
unless requests fail. It changes nothing. -/
theorem loginUser_ensures (clock : Clock) {security : Security}
    (hsign : ∀ auth, ∃ token, security.sign auth = .ok token) (data : LoginInput) (db : Database ids) :
    (loginUser clock security data).Ensures (step mayFail) db (fun _ db' => db' = db ∧ Valid security data db)
      fun failure db' => failure = invalidCredentials ∧ db' = db ∧ (mayFail ∨ ¬ Valid security data db) := by
  unfold loginUser
  refine Program.Ensures.tryCatch (R := fun _ db' => db' = db ∧ (mayFail ∨ ¬ Valid security data db)) ?_
    fun _ _ h => ⟨rfl, h⟩
  have hfails : ∀ (failure : Failure) (db' : Database ids), db' = db ∧ mayFail →
      db' = db ∧ (mayFail ∨ ¬ Valid security data db) := fun _ _ h => ⟨h.1, Or.inl h.2⟩
  unfold checkCredentials
  apply Program.Ensures.bind ((getByEmail_reads clock data.email db).mono (fun _ _ h => h) hfails)
  rintro found db' ⟨rfl, ⟨row, hrow, hlive, hemail, entity, rfl, hid⟩ | ⟨rfl, hnone⟩⟩
  · change (getByIdWithPassword (fun n => clock (n + 1)) entity.id >>= _).Ensures _ _ _ _
    rw [hid]
    apply Program.Ensures.bind ((getByIdWithPassword_ensures _ hrow hlive).mono (fun _ _ h => h) hfails)
    rintro user db'' ⟨rfl, preference, rfl⟩
    change (Program.ofExcept (validatePassword security (some row.password) data.password) >>= _).Ensures _ _ _ _
    refine Program.Ensures.bind (R := fun _ db' => db' = db'' ∧
      validatePassword security (some row.password) data.password = .ok ())
      (Program.ensures_ofExcept (fun _ hok => ⟨rfl, hok⟩) fun error herror => ⟨rfl, Or.inr ?_⟩) ?_
    · rintro ⟨other, hother, _, hotherEmail, hvalid⟩
      cases db''.users.eq_of_unique_eq hother hrow (congrArg some hotherEmail) (congrArg some hemail)
      cases herror.symm.trans hvalid
    · rintro _ db₁ ⟨rfl, hvalid⟩
      apply Program.Ensures.bind (addFoundPreference_ensures _ _ row.id db₁)
      rintro user db₂ rfl
      obtain ⟨token, htoken⟩ := hsign ⟨user.email, user.id⟩
      rw [built_ok htoken]
      exact ⟨rfl, row, hrow, hlive, hemail, hvalid⟩
  · refine ⟨rfl, Or.inr ?_⟩
    rintro ⟨user, hmem, hlive, hemail, _⟩
    exact hnone user hmem hlive hemail

end node_backend.user_usecases
