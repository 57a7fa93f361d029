import NodeBackend.Api.AuthGuard
import NodeBackend.Queue.Features
import NodeBackend.User.Passwords
import NodeBackend.User.Refinement

namespace node_backend.user_usecases

open js store program
open node_backend.exceptions node_backend.user_database node_backend.user_models node_backend.user_query
open node_backend.user_entity node_backend.user_preference_entity node_backend.user_repository
open node_backend.user_service node_backend.user_specs

variable {ids : UuidSource} {mayFail : Prop}

/-- The preference that is added shows neither in the e-mail nor in the identifier. -/
theorem addFoundPreference_shows (clock : Clock) (user : UserEntity) (id : String) (db : Database ids)
    {thrown : Failure → Database ids → Prop} :
    (addFoundPreference clock user (some id)).Ensures (step mayFail) db
      (fun found db' => db' = db ∧ found.email = user.email ∧ found.id = user.id) thrown := by
  unfold addFoundPreference
  refine Program.Ensures.bind (R := fun _ db' => db' = db)
    (Program.Ensures.tryCatch (R := fun _ db' => db' = db) ?_ fun _ _ h => h) ?_
  · rw [Program.map_eq]
    refine Program.Ensures.bind ((user_specs.getByUserId_ensures clock id db).mono (fun _ _ h => h) ?_) ?_
    · exact fun _ _ h => h.1
    · exact fun _ _ h => h.1
  · rintro preference _ rfl
    cases preference with
    | none => exact ⟨rfl, rfl, rfl⟩
    | some preference => exact ⟨rfl, rfl, rfl⟩

/-- The token of a login is signed for the user whose credentials they are. -/
theorem loginUser_token (clock : Clock) (security : Security) (data : LoginInput) (db : Database ids) :
    (loginUser clock security data).Ensures (step mayFail) db
      (fun result _ => ∃ row ∈ db.users.rows, row.live = true ∧ row.email = data.email ∧
        validatePassword security (some row.password) data.password = .ok () ∧
        security.sign ⟨some row.email, some row.id⟩ = .ok result.2) fun _ _ => True := by
  unfold loginUser
  refine Program.Ensures.tryCatch (R := fun _ _ => True) ?_ fun _ _ _ => trivial
  unfold checkCredentials
  apply Program.Ensures.bind ((getByEmail_reads clock data.email db).mono (fun _ _ h => h) fun _ _ _ => trivial)
  rintro found db' ⟨rfl, ⟨row, hrow, hlive, hemail, entity, rfl, hid⟩ | ⟨rfl, _⟩⟩
  · change (getByIdWithPassword (fun n => clock (n + 1)) entity.id >>= _).Ensures _ _ _ _
    rw [hid]
    apply Program.Ensures.bind
      ((getByIdWithPassword_ensures _ hrow hlive).mono (fun _ _ h => h) fun _ _ _ => trivial)
    rintro user db'' ⟨rfl, preference, rfl⟩
    change (Program.ofExcept (validatePassword security (some row.password) data.password) >>= _).Ensures _ _ _ _
    refine Program.Ensures.bind (R := fun _ db' => db' = db'' ∧
      validatePassword security (some row.password) data.password = .ok ())
      (Program.ensures_ofExcept (fun _ hok => ⟨rfl, hok⟩) fun _ _ => trivial) ?_
    rintro _ db₁ ⟨rfl, hvalid⟩
    apply Program.Ensures.bind (addFoundPreference_shows _ _ row.id db₁)
    rintro user db₂ ⟨rfl, hshownEmail, hshownId⟩
    have hauth : (⟨user.email, user.id⟩ : user_strategy.UserAuthInterface) = ⟨some row.email, some row.id⟩ := by
      rw [hshownEmail, hshownId]
      rfl
    rw [hauth]
    cases hsign : security.sign ⟨some row.email, some row.id⟩ with
    | error failure => trivial
    | ok token =>
      rw [built_ok rfl]
      exact ⟨row, hrow, hlive, hemail, hvalid, hsign⟩
  · trivial

end node_backend.user_usecases

namespace node_backend.sessions

open js store program
open node_backend.exceptions node_backend.user_database node_backend.user_service node_backend.user_usecases
open node_backend.user_strategy node_backend.user_requests node_backend.accounts
open node_backend.cryptography_service node_backend.auth_guard
open node_backend.events_queue_handler (EmitterEventsEnum)
open node_backend.feature_flags (Features)

/-- What the users' routes are built on: the secret, the hash and the tokens. -/
structure Keys where
  secret : String
  hashing : String → String
  jwt : JsonWebToken

/-- CryptographyService as a login at a time has it. -/
def Keys.security (keys : Keys) (now : Time) : Security where
  secret := keys.secret
  hashing := keys.hashing
  sign := fun auth => keys.jwt.sign auth now

/-- What arrives at the users' module: a login, a request behind AuthGuard, or an event
of the emitter. -/
inductive Event
  | login (world : World) (clock : Clock) (data : LoginInput)
  | guarded (authorization : Option String) (turn : Turn)
  | send (event : EmitterEventsEnum) (args : List Value)

structure Arrival where
  now : Time
  event : Event

/-- The tables, the flags, and the tokens that were handed out, which nothing reads. -/
structure State (ids : UuidSource) where
  db : Database ids
  features : Features
  tokens : List String

/-- The state that earlier requests leave, before any token. -/
def State.initial {ids : UuidSource} (seed : List Turn) : State ids :=
  ⟨serveAll seed, Features.initial, []⟩

/-- UserController.loginUser, up to what it shows of the user. -/
def loginRoute (features : Features) (clock : Clock) (security : Security) (data : LoginInput) :
    Promise String :=
  if features.loginDisabled then
    Program.throw (thrown .integration "Resource temporarily under maintenance. Please, try again later")
  else do
    let result ← loginUser clock security data
    return result.2

/-- A request with the user that AuthGuard puts into it. -/
def actAs (turn : Turn) (user : UserAuthInterface) : Turn :=
  { turn with request := { turn.request with agentUser := some user } }

variable {ids : UuidSource}

/-- What an arrival is answered, a login with its token. -/
def answer (keys : Keys) (s : State ids) (arrival : Arrival) : Except Failure (Option String) :=
  match arrival.event with
  | .login world clock data =>
    (run world (loginRoute s.features clock (keys.security arrival.now) data) s.db).1.map some
  | .guarded authorization turn => do
    let user ← canActivate keys.jwt arrival.now authorization
    (run turn.world (actAs turn user).request.execute s.db).1.map fun _ => none
  | .send _ _ => .ok none

/-- The request that AuthGuard lets through. -/
def letThrough (keys : Keys) (arrival : Arrival) : Option Turn :=
  match arrival.event with
  | .guarded authorization turn =>
    (canActivate keys.jwt arrival.now authorization).toOption.map (actAs turn)
  | _ => none

/-- The state after an arrival. -/
def handle (keys : Keys) (s : State ids) (arrival : Arrival) : State ids where
  db := match arrival.event with
    | .login world clock data => (run world (loginRoute s.features clock (keys.security arrival.now) data) s.db).2
    | _ => (letThrough keys arrival).elim s.db (serve s.db)
  features := match arrival.event with
    | .send event args => feature_flags.send event args s.features
    | _ => s.features
  tokens := s.tokens ++ (answer keys s arrival).toOption.join.toList

/-- The state after arrivals, one after another. -/
def handleAll (ids : UuidSource) (keys : Keys) (seed : List Turn) (arrivals : List Arrival) : State ids :=
  arrivals.foldl (handle keys) (State.initial seed)

/-- The requests that are served: the earlier ones, and those that AuthGuard lets through. -/
def turns (keys : Keys) (seed : List Turn) (arrivals : List Arrival) : List Turn :=
  seed ++ arrivals.filterMap (letThrough keys)

/-- A user that is called by the e-mail of an open account and brings its last password. -/
def Known (s : State ids) (passwords : List (String × String)) (data : LoginInput) (user : UserAuthInterface) : Prop :=
  ∃ id profile, (id, Account.opened profile) ∈ register s.db ∧ profile.email = data.email ∧
    passwords.lookup id = some data.password ∧ user = ⟨some profile.email, some id⟩

/-- A run in which a login handed out a token for a user. -/
def LoggedIn (ids : UuidSource) (keys : Keys) (seed : List Turn) (arrivals : List Arrival) (token : String)
    (user : UserAuthInterface) (since : Time) : Prop :=
  ∃ earlier later world clock data, arrivals = earlier ++ ⟨since, .login world clock data⟩ :: later ∧
    answer keys (handleAll ids keys seed earlier) ⟨since, .login world clock data⟩ = .ok (some token) ∧
    Known (handleAll ids keys seed earlier) (passwords ids (turns keys seed earlier)) data user

/-- A token that can be verified is one that was handed out. -/
def Unforged (keys : Keys) (s : State ids) (arrival : Arrival) : Prop :=
  match arrival.event with
  | .guarded (some authorization) _ => ∀ content,
    keys.jwt.verify (bearerToken authorization) arrival.now = .ok content → bearerToken authorization ∈ s.tokens
  | _ => True

/-- What the schemas promise of the inputs, with a good salt for every password. -/
def WellFormed (keys : Keys) (arrival : Arrival) : Prop :=
  match arrival.event with
  | .guarded _ turn => Registrable turn.request.action ∧ turn.Secured (keys.security arrival.now)
  | _ => True

/-- A run of well formed arrivals without a forged token. -/
structure Admissible (ids : UuidSource) (keys : Keys) (seed : List Turn) (arrivals : List Arrival) : Prop where
  seeded : ∀ turn ∈ seed, Registrable turn.request.action ∧ turn.Secured (keys.security Time.epoch)
  wellFormed : ∀ arrival ∈ arrivals, WellFormed keys arrival
  unforged : ∀ earlier arrival later, arrivals = earlier ++ arrival :: later →
    Unforged keys (handleAll ids keys seed earlier) arrival

/-- The documented behaviour of the hash and of the tokens. -/
structure Keys.Lawful (keys : Keys) : Prop where
  injective : Function.Injective keys.hashing
  plain : ∀ text, '|' ∉ (keys.hashing text).toList
  tokens : keys.jwt.Lawful

theorem Admissible.init {keys : Keys} {seed : List Turn} {arrivals : List Arrival} {arrival : Arrival}
    (h : Admissible ids keys seed (arrivals ++ [arrival])) : Admissible ids keys seed arrivals := by
  refine ⟨h.seeded, fun other hother => h.wellFormed other (List.mem_append_left _ hother), ?_⟩
  rintro earlier other later rfl
  exact h.unforged earlier other (later ++ [arrival]) (by simp)

theorem handleAll_concat (keys : Keys) (seed : List Turn) (arrivals : List Arrival) (arrival : Arrival) :
    handleAll ids keys seed (arrivals ++ [arrival]) = handle keys (handleAll ids keys seed arrivals) arrival :=
  List.foldl_concat ..

section runs

variable {keys : Keys} {seed : List Turn} {s : State ids} {now : Time} {world : World} {clock : Clock}
  {data : LoginInput}

theorem loginRoute_ensures (hkeys : keys.Lawful) (features : Features) (clock : Clock) (now : Time)
    (data : LoginInput) {mayFail : Prop} (db : Database ids) :
    (loginRoute features clock (keys.security now) data).Ensures (step mayFail) db
      (fun token db' => db' = db ∧ features.loginDisabled = false ∧
        ∃ row ∈ db.users.rows, row.live = true ∧ row.email = data.email ∧
          validatePassword (keys.security now) (some row.password) data.password = .ok () ∧
          keys.jwt.sign ⟨some row.email, some row.id⟩ now = .ok token)
      fun _ db' => db' = db ∧
        (mayFail ∨ features.loginDisabled = true ∨ ¬ Valid (keys.security now) data db) := by
  unfold loginRoute
  cases hdisabled : features.loginDisabled with
  | true => exact ⟨rfl, Or.inr (Or.inl rfl)⟩
  | false =>
    refine Program.Ensures.bind (((@loginUser_ensures ids mayFail clock (keys.security now)
      (fun auth => hkeys.tokens.signs auth now) data db).and (loginUser_token clock _ data db)).mono
        (fun _ _ h => h) ?_) ?_
    · rintro failure db' ⟨⟨_, rfl, hfail | hnone⟩, _⟩
      · exact ⟨rfl, Or.inl hfail⟩
      · exact ⟨rfl, Or.inr (Or.inr hnone)⟩
    · rintro result db' ⟨⟨rfl, _⟩, htoken⟩
      exact ⟨rfl, rfl, htoken⟩

/-- Logins change no table, and what is let through is served. -/
theorem handle_db (hkeys : keys.Lawful) (s : State ids) (arrival : Arrival) :
    (handle keys s arrival).db = (letThrough keys arrival).elim s.db (serve s.db) := by
  obtain ⟨now, event⟩ := arrival
  cases event with
  | login world clock data =>
    obtain ⟨_, _, hsame, _⟩ | ⟨_, _, hsame, _⟩ :=
      (loginRoute_ensures hkeys s.features clock now data s.db).runFrom world.exec_step 0
    · exact hsame
    · exact hsame
  | guarded authorization turn => rfl
  | send event args => rfl

theorem handleAll_db (hkeys : keys.Lawful) (seed : List Turn) (arrivals : List Arrival) :
    (handleAll ids keys seed arrivals).db = serveAll (turns keys seed arrivals) := by
  induction arrivals using List.reverseRecOn with
  | nil =>
    unfold turns
    rw [List.filterMap_nil, List.append_nil]
    rfl
  | append_singleton arrivals arrival ih =>
    have hlast : turns keys seed (arrivals ++ [arrival]) =
        turns keys seed arrivals ++ (letThrough keys arrival).toList := by
      unfold turns
      rw [List.filterMap_append, ← List.append_assoc]
      cases h : letThrough keys arrival <;> simp [h]
    rw [handleAll_concat, handle_db hkeys, ih, hlast]
    cases letThrough keys arrival with
    | none => rw [Option.toList_none, List.append_nil, Option.elim_none]
    | some turn =>
      change serve (serveAll (turns keys seed arrivals)) turn = serveAll (turns keys seed arrivals ++ [turn])
      exact (List.foldl_concat ..).symm

/-- Whatever is let through was well formed. -/
theorem letThrough_wellFormed {arrival : Arrival} {turn : Turn} (harrival : WellFormed keys arrival)
    (h : letThrough keys arrival = some turn) :
    Registrable turn.request.action ∧ turn.Secured (keys.security Time.epoch) := by
  obtain ⟨now, event⟩ := arrival
  cases event with
  | login world clock data => cases h
  | guarded authorization other =>
    obtain ⟨user, _, rfl⟩ := Option.map_eq_some_iff.mp h
    exact ⟨harrival.1, harrival.2.accepted, harrival.2.salt⟩
  | send event args => cases h

theorem turns_wellFormed {arrivals : List Arrival} (h : Admissible ids keys seed arrivals) {turn : Turn}
    (hturn : turn ∈ turns keys seed arrivals) :
    Registrable turn.request.action ∧ turn.Secured (keys.security Time.epoch) := by
  obtain hearlier | hguarded := List.mem_append.mp hturn
  · exact h.seeded turn hearlier
  · obtain ⟨arrival, harrival, hlet⟩ := List.mem_filterMap.mp hguarded
    exact letThrough_wellFormed (h.wellFormed arrival harrival) hlet

theorem handleAll_recorded (hkeys : keys.Lawful) {arrivals : List Arrival} (h : Admissible ids keys seed arrivals)
    (now : Time) : Recorded (keys.security now) (handleAll ids keys seed arrivals).db
      (passwords ids (turns keys seed arrivals)) := by
  rw [handleAll_db hkeys]
  refine serveAll_recorded fun turn hturn => ?_
  obtain ⟨_, haccepted, hsalt⟩ := turns_wellFormed h hturn
  exact ⟨haccepted, hsalt⟩

/-- Who a login is for, if it is answered with a token. -/
theorem login_token (hkeys : keys.Lawful) {known : List (String × String)}
    (hrecorded : Recorded (keys.security now) s.db known) {token : String}
    (h : answer keys s ⟨now, .login world clock data⟩ = .ok (some token)) :
    s.features.loginDisabled = false ∧ ∃ user, Known s known data user ∧ keys.jwt.sign user now = .ok token := by
  obtain ⟨other, hok, _, henabled, row, hrow, hlive, hemail, hvalid, hsign⟩ | ⟨_, herror, _⟩ :=
    (loginRoute_ensures hkeys s.features clock now data s.db).runFrom world.exec_step 0
  · have htoken : Except.map some (run world (loginRoute s.features clock (keys.security now) data) s.db).1 =
        .ok (some token) := h
    unfold run at htoken
    rw [hok] at htoken
    cases htoken
    obtain ⟨password, hlookup, hstored⟩ := hrecorded row hrow
    have hpassword := (validatePassword_iff hkeys.injective hkeys.plain hstored _).mp hvalid
    have hmem := mem_register_opened.mpr ⟨row, hrow, hlive, rfl, rfl⟩
    refine ⟨henabled, _, ⟨row.id, _, hmem, hemail, ?_, rfl⟩, hsign⟩
    rw [hlookup, hpassword]
  · have htoken : Except.map some (run world (loginRoute s.features clock (keys.security now) data) s.db).1 =
        .ok (some token) := h
    unfold run at htoken
    rw [herror] at htoken
    cases htoken

/-- A login with the last password of an open account is answered with a token. -/
theorem login_succeeds (hkeys : keys.Lawful) {known : List (String × String)}
    (hrecorded : Recorded (keys.security now) s.db known) (hsound : world.Sound)
    (henabled : s.features.loginDisabled = false) {user : UserAuthInterface} (hknown : Known s known data user) :
    ∃ token, answer keys s ⟨now, .login world clock data⟩ = .ok (some token) := by
  obtain ⟨token, hok, _⟩ | ⟨_, _, _, hfail | hdisabled | hnone⟩ :=
    run_sound hsound (loginRoute_ensures hkeys s.features clock now data s.db)
  · refine ⟨token, ?_⟩
    change Except.map some (run world (loginRoute s.features clock (keys.security now) data) s.db).1 = _
    rw [hok]
    rfl
  · exact hfail.elim
  · rw [henabled] at hdisabled
    cases hdisabled
  · obtain ⟨id, profile, hmem, hemail, hlookup, _⟩ := hknown
    obtain ⟨row, hrow, hlive, rfl, hprofile⟩ := mem_register_opened.mp hmem
    obtain ⟨password, hlookup', hstored⟩ := hrecorded row hrow
    refine absurd ⟨row, hrow, hlive, ?_, ?_⟩ hnone
    · rw [← hemail, ← hprofile]
      rfl
    · exact (validatePassword_iff hkeys.injective hkeys.plain hstored _).mpr
        (Option.some.inj (hlookup.symm.trans hlookup'))

/-- A token is signed for the user that logged in with it. -/
theorem LoggedIn.sign (hkeys : keys.Lawful) {arrivals : List Arrival} (hadmissible : Admissible ids keys seed arrivals)
    {token : String} {user : UserAuthInterface} {since : Time} (h : LoggedIn ids keys seed arrivals token user since) :
    keys.jwt.sign user since = .ok token := by
  obtain ⟨earlier, later, world, clock, data, rfl, hanswer, hknown⟩ := h
  have hearlier : Admissible ids keys seed earlier := by
    refine ⟨hadmissible.seeded, fun other hother => ?_, ?_⟩
    · exact hadmissible.wellFormed other (List.mem_append_left _ hother)
    rintro before arrival after rfl
    exact hadmissible.unforged before arrival (after ++ ⟨since, .login world clock data⟩ :: later) (by simp)
  have hrecorded := handleAll_recorded hkeys hearlier since
  obtain ⟨_, other, hother, hsign⟩ := login_token hkeys hrecorded hanswer
  obtain ⟨id, profile, hmem, hemail, _, rfl⟩ := hknown
  obtain ⟨id', profile', hmem', hemail', _, rfl⟩ := hother
  obtain ⟨row, hrow, _, rfl, hprofile⟩ := mem_register_opened.mp hmem
  obtain ⟨row', hrow', _, rfl, hprofile'⟩ := mem_register_opened.mp hmem'
  have hsame : row.email = row'.email := by
    have hfirst : row.email = profile.email := congrArg Profile.email hprofile
    have hsecond : row'.email = profile'.email := congrArg Profile.email hprofile'
    rw [hfirst, hsecond, hemail, hemail']
  cases (handleAll ids keys seed earlier).db.users.eq_of_unique_eq hrow hrow' (congrArg some hsame) rfl
  cases hprofile.symm.trans hprofile'
  exact hsign

/-- The tokens that were handed out are those of the logins. -/
theorem mem_tokens (hkeys : keys.Lawful) {arrivals : List Arrival} (hadmissible : Admissible ids keys seed arrivals)
    {token : String} (h : token ∈ (handleAll ids keys seed arrivals).tokens) :
    ∃ user since, LoggedIn ids keys seed arrivals token user since := by
  induction arrivals using List.reverseRecOn with
  | nil => cases h
  | append_singleton arrivals arrival ih =>
    rw [handleAll_concat] at h
    obtain hold | hnew := List.mem_append.mp h
    · obtain ⟨user, since, earlier, later, world, clock, data, rfl, hlogin⟩ := ih hadmissible.init hold
      exact ⟨user, since, earlier, later ++ [arrival], world, clock, data, by simp, hlogin⟩
    · have hanswer : answer keys (handleAll ids keys seed arrivals) arrival = .ok (some token) := by
        cases hgiven : answer keys (handleAll ids keys seed arrivals) arrival with
        | error failure => simp [hgiven, Except.toOption] at hnew
        | ok result => simpa [hgiven, Except.toOption, eq_comm] using hnew
      obtain ⟨now, event⟩ := arrival
      cases event with
      | login world clock data =>
        obtain ⟨_, user, hknown, _⟩ :=
          login_token hkeys (handleAll_recorded hkeys hadmissible.init now) hanswer
        exact ⟨user, now, arrivals, [], world, clock, data, rfl, hanswer, hknown⟩
      | guarded authorization turn =>
        unfold answer at hanswer
        cases hguard : canActivate keys.jwt now authorization with
        | error failure => simp [hguard, bind, Except.bind] at hanswer
        | ok user =>
          simp only [hguard, bind, Except.bind] at hanswer
          cases hrun : (run turn.world (actAs turn user).request.execute (handleAll ids keys seed arrivals).db).1
          · simp [hrun, Except.map] at hanswer
          · simp [hrun, Except.map] at hanswer
      | send event args => cases hanswer

/-- Whoever gets past the guard logged in during the run, less than a day ago. -/
theorem activated_iff (hkeys : keys.Lawful) {arrivals : List Arrival} (hadmissible : Admissible ids keys seed arrivals)
    {authorization : Option String} {turn : Turn} {user : UserAuthInterface}
    (hunforged : Unforged keys (handleAll ids keys seed arrivals) ⟨now, .guarded authorization turn⟩) :
    canActivate keys.jwt now authorization = .ok user ↔
      ∃ text since, authorization = some text ∧ LoggedIn ids keys seed arrivals (bearerToken text) user since ∧
        Fresh since now := by
  constructor
  · intro h
    obtain ⟨text, claims, hgiven, hverify, _⟩ := canActivate_eq_ok.mp h
    obtain rfl := (Option.filter_eq_some_iff.mp hgiven).1
    obtain ⟨other, since, hlogin⟩ := mem_tokens hkeys hadmissible (hunforged _ hverify)
    obtain ⟨hfresh, rfl⟩ := (canActivate_signed hkeys.tokens (hlogin.sign hkeys hadmissible)).mp h
    exact ⟨text, since, rfl, hlogin, hfresh⟩
  · rintro ⟨text, since, rfl, hlogin, hfresh⟩
    exact (canActivate_signed hkeys.tokens (hlogin.sign hkeys hadmissible)).mpr ⟨hfresh, rfl⟩

/-- A request behind the guard is served as the register grants it. -/
theorem guarded_iff (hkeys : keys.Lawful) {arrivals : List Arrival} (hadmissible : Admissible ids keys seed arrivals)
    {authorization : Option String} {turn : Turn} (hformed : WellFormed keys ⟨now, .guarded authorization turn⟩) :
    answer keys (handleAll ids keys seed arrivals) ⟨now, .guarded authorization turn⟩ = .ok none ↔
      ∃ user, canActivate keys.jwt now authorization = .ok user ∧
        Succeeds ids (register (handleAll ids keys seed arrivals).db) (actAs turn user).request := by
  unfold answer
  cases hguard : canActivate keys.jwt now authorization with
  | error failure => simp [hguard, bind, Except.bind]
  | ok user =>
    have hserves : Serves (handleAll ids keys seed arrivals).db (actAs turn user) := by
      have hnumbered : Numbered (serveAll (turns keys seed arrivals) : Database ids) :=
        (register_serveAll fun turn hturn => (turns_wellFormed hadmissible hturn).1).2
      rw [handleAll_db hkeys]
      exact serve_serves hformed.1 (serveAll_paired _) hnumbered
    have hsucceeds := hserves.succeeds_iff
    simp only [hguard, bind, Except.bind, Except.ok.injEq, exists_eq_left']
    rw [← hsucceeds]
    change Except.map _ (run turn.world (actAs turn user).request.execute (handleAll ids keys seed arrivals).db).1 =
      _ ↔ (run turn.world (actAs turn user).request.execute (handleAll ids keys seed arrivals).db).1 = _
    cases (run turn.world (actAs turn user).request.execute (handleAll ids keys seed arrivals).db).1 with
    | error failure => simp [Except.map]
    | ok result => simp [Except.map]

end runs

/-- Access follows logins: after any run of logins, requests and events, a login is
answered with a token exactly where logins are enabled and it brings the e-mail and the
last password of an open account, and a request behind AuthGuard succeeds exactly where
it carries a token that a login of the run was answered with, less than a day ago, and
the register grants the action to that login's user as it was called then. -/
theorem access_iff {keys : Keys} (hkeys : keys.Lawful) {seed : List Turn} {arrivals : List Arrival}
    (hadmissible : Admissible ids keys seed arrivals) :
    (∀ (now : Time) (world : World) (clock : Clock) (data : LoginInput), world.Sound →
      ((∃ token, answer keys (handleAll ids keys seed arrivals) ⟨now, .login world clock data⟩ =
        .ok (some token)) ↔
        (handleAll ids keys seed arrivals).features.loginDisabled = false ∧
          ∃ user, Known (handleAll ids keys seed arrivals) (passwords ids (turns keys seed arrivals)) data user)) ∧
    ∀ (now : Time) (authorization : Option String) (turn : Turn),
      WellFormed keys ⟨now, .guarded authorization turn⟩ →
      Unforged keys (handleAll ids keys seed arrivals) ⟨now, .guarded authorization turn⟩ →
      (answer keys (handleAll ids keys seed arrivals) ⟨now, .guarded authorization turn⟩ = .ok none ↔
        ∃ text user since, authorization = some text ∧
          LoggedIn ids keys seed arrivals (bearerToken text) user since ∧ Fresh since now ∧
          Succeeds ids (register (handleAll ids keys seed arrivals).db) (actAs turn user).request) := by
  constructor
  · intro now world clock data hsound
    have hrecorded := handleAll_recorded hkeys hadmissible now
    constructor
    · rintro ⟨token, hanswer⟩
      obtain ⟨henabled, user, hknown, _⟩ := login_token hkeys hrecorded hanswer
      exact ⟨henabled, user, hknown⟩
    · rintro ⟨henabled, user, hknown⟩
      exact login_succeeds hkeys hrecorded hsound henabled hknown
  · intro now authorization turn hformed hunforged
    rw [guarded_iff hkeys hadmissible hformed]
    constructor
    · rintro ⟨user, hactivated, hsucceeds⟩
      obtain ⟨text, since, rfl, hlogin, hfresh⟩ := (activated_iff hkeys hadmissible hunforged).mp hactivated
      exact ⟨text, user, since, rfl, hlogin, hfresh, hsucceeds⟩
    · rintro ⟨text, user, since, rfl, hlogin, hfresh, hsucceeds⟩
      refine ⟨user, ?_, hsucceeds⟩
      exact (activated_iff hkeys hadmissible hunforged).mpr ⟨text, since, rfl, hlogin, hfresh⟩

/-- The characters of a text, or of none, without a bar. -/
def escape : Option String → List Char
  | none => []
  | some text => '+' :: (replaceBars text).toList

/-- The converse of `replaceBars`, pair by pair. -/
def restoreBars : List Char → List Char
  | c :: mark :: rest => (if mark = 'q' then c else '|') :: restoreBars rest
  | _ => []

def unescape : List Char → Option String
  | [] => none
  | _ :: text => some (String.ofList (restoreBars text))

theorem restoreBars_replaceBars (text : String) : restoreBars (replaceBars text).toList = text.toList := by
  unfold replaceBars
  rw [String.toList_ofList]
  induction text.toList with
  | nil => rfl
  | cons c rest ih =>
    rw [List.flatMap_cons]
    by_cases hbar : c = '|'
    · subst hbar
      simpa [restoreBars] using ih
    · simpa [restoreBars, hbar] using ih

theorem unescape_escape (text : Option String) : unescape (escape text) = text := by
  cases text with
  | none => rfl
  | some text => simp [escape, unescape, restoreBars_replaceBars]

theorem escape_plain (text : Option String) : '|' ∉ escape text := by
  cases text with
  | none => simp [escape]
  | some text => simp [escape, replaceBars_plain]

/-- The seconds of a time from the first one that a Date can hold. -/
def count (time : Time) : ℕ :=
  (seconds time + 8640000000000).toNat

/-- A token that is not signed, but says the same: who it is for, and since when. -/
def writeToken (auth : UserAuthInterface) (since : Time) : String :=
  String.ofList (escape auth.username ++ '|' :: (escape auth.clientId ++ '|' :: Nat.toDigits 10 (count since)))

def readToken (token : String) (now : Time) : Except VerifyError Content :=
  match token.toList.splitOn '|' with
  | [username, clientId, since] =>
    if count now < Nat.ofDigitChars 10 since 0 + 86400 then
      .ok (.object (claims ⟨unescape username, unescape clientId⟩))
    else .error (.tokenExpired "jwt expired")
  | _ => .error (.jsonWebToken "jwt malformed")

theorem count_lt_iff (since now : Time) : count now < count since + 86400 ↔ Fresh since now := by
  obtain ⟨since, hsince⟩ := since
  obtain ⟨now, hnow⟩ := now
  simp only [count, Fresh, seconds, secondsOfDay]
  omega

theorem readToken_writeToken (auth : UserAuthInterface) (since now : Time) :
    readToken (writeToken auth since) now =
      if Fresh since now then .ok (.object (claims auth)) else .error (.tokenExpired "jwt expired") := by
  have hdigits : '|' ∉ Nat.toDigits 10 (count since) := by
    intro h
    have hdigit := Nat.isDigit_of_mem_toDigits (by decide) (by decide) h
    revert hdigit
    decide
  unfold readToken writeToken
  rw [String.toList_ofList, List.splitOn_append_cons_self_of_not_mem (escape_plain _),
    List.splitOn_append_cons_self_of_not_mem (escape_plain _), List.splitOn_eq_singleton hdigits]
  simp only [unescape_escape, Nat.ofDigitChars_toDigits (b := 10) (by decide) (by decide), count_lt_iff]

def plainKeys : Keys where
  secret := "secret"
  hashing := replaceBars
  jwt := { sign := fun auth since => .ok (writeToken auth since), verify := readToken }

theorem plainKeys_lawful : plainKeys.Lawful where
  injective := replaceBars_injective
  plain := replaceBars_plain
  tokens :=
    { signs := fun auth since => ⟨_, rfl⟩
      nonempty := by
        rintro auth since _ ⟨⟩ hempty
        have hlist := congrArg String.toList hempty
        simp [writeToken] at hlist
      verify_fresh := by
        rintro auth since _ now ⟨⟩ hfresh
        exact (readToken_writeToken auth since now).trans (if_pos hfresh)
      verify_expired := by
        rintro auth since _ now ⟨⟩ hexpired
        exact (readToken_writeToken auth since now).trans (if_neg hexpired) }

theorem founding_allowed : Action.ThemeAllowed (.create (account "user@example.com")) :=
  (account_accepted "user@example.com").theme

/-- The first user of the tables. -/
def founding : Turn where
  request :=
    { newcomer with
      cryptography := (plainKeys.security Time.epoch).cryptography "salt"
      action := .create (account "user@example.com") }
  world := faultless
  allowed := founding_allowed
  sound := faultless_sound

theorem founding_wellFormed :
    Registrable founding.request.action ∧ founding.Secured (plainKeys.security Time.epoch) :=
  ⟨account_registrable _, account_accepted _, "salt", rfl, by simp, by simp⟩

/-- The same user, who closes the account. -/
def leaving : Turn where
  request := { founding.request with action := .delete "0" }
  world := faultless
  allowed := trivial
  sound := faultless_sound

theorem leaving_wellFormed : Registrable leaving.request.action ∧ leaving.Secured (plainKeys.security Time.epoch) :=
  ⟨trivial, trivial, "salt", rfl, by simp, by simp⟩

def credentials : LoginInput :=
  ⟨"user@example.com", "cGFzczEyMw=="⟩

def founder : UserAuthInterface :=
  ⟨some "user@example.com", some "0"⟩

theorem registerAfter_founding : registerAfter UuidSource.counting [founding] =
    [("0", .opened (.new (account "user@example.com")))] := by
  have hsucceeds : Succeeds UuidSource.counting [] founding.request := by
    refine ⟨⟨by decide, ?_⟩, "cGFzczEyMw==", rfl, _, rfl⟩
    intro email _ entry hentry
    cases hentry
  change Register.serve UuidSource.counting [] founding.request = _
  rw [Register.serve, if_pos hsucceeds]
  rfl

theorem register_founding : register (serveAll [founding] : Database UuidSource.counting) =
    [("0", .opened (.new (account "user@example.com")))] := by
  rw [(register_serveAll fun turn hturn => ?_).1, registerAfter_founding]
  rw [List.mem_singleton.mp hturn]
  exact founding_wellFormed.1

theorem known_founder : Known (handleAll UuidSource.counting plainKeys [founding] [])
    (passwords UuidSource.counting (turns plainKeys [founding] [])) credentials founder := by
  refine ⟨"0", .new (account "user@example.com"), ?_, rfl, rfl, rfl⟩
  change _ ∈ register (serveAll [founding] : Database UuidSource.counting)
  rw [register_founding]
  exact List.mem_singleton.mpr rfl

/-- The first user logs in and deletes the account with the token that it got. -/
theorem access_iff_founder : ∃ token,
    answer plainKeys (handleAll UuidSource.counting plainKeys [founding]
      [⟨Time.epoch, .login faultless (fun _ => Time.epoch) credentials⟩])
      ⟨Time.epoch, .guarded (some ("Bearer " ++ token)) leaving⟩ = .ok none := by
  have hseeded : ∀ turn ∈ [founding],
      Registrable turn.request.action ∧ turn.Secured (plainKeys.security Time.epoch) := by
    intro turn hturn
    rw [List.mem_singleton.mp hturn]
    exact founding_wellFormed
  have hempty : Admissible UuidSource.counting plainKeys [founding] [] := by
    refine ⟨hseeded, by simp, ?_⟩
    rintro earlier arrival later hsplit
    simp at hsplit
  obtain ⟨token, hanswer⟩ := ((access_iff plainKeys_lawful hempty).1 Time.epoch faultless (fun _ => Time.epoch)
    credentials faultless_sound).mpr ⟨rfl, founder, known_founder⟩
  have hlogin : Admissible UuidSource.counting plainKeys [founding]
      [⟨Time.epoch, .login faultless (fun _ => Time.epoch) credentials⟩] := by
    refine ⟨hseeded, fun arrival harrival => ?_, ?_⟩
    · rw [List.mem_singleton.mp harrival]
      trivial
    · rintro earlier arrival later hsplit
      cases earlier with
      | nil =>
        cases hsplit
        trivial
      | cons first earlier =>
        have hlength := congrArg List.length hsplit
        simp at hlength
  refine ⟨token, ((access_iff plainKeys_lawful hlogin).2 Time.epoch _ leaving leaving_wellFormed ?_).mpr
    ⟨_, founder, Time.epoch, rfl, ⟨[], [], _, _, _, rfl, ?_, known_founder⟩, by decide, ?_⟩⟩
  · intro content _
    rw [bearerToken_bearer]
    change token ∈ [] ++
      (answer plainKeys (handleAll UuidSource.counting plainKeys [founding] []) _).toOption.join.toList
    rw [hanswer]
    exact List.mem_singleton.mpr rfl
  · rw [bearerToken_bearer]
    exact hanswer
  · refine ⟨⟨"0", rfl, .new (account "user@example.com"), ?_, rfl⟩, trivial⟩
    rw [handleAll_db plainKeys_lawful]
    change _ ∈ register (serveAll [founding] : Database UuidSource.counting)
    rw [register_founding]
    exact List.mem_singleton.mpr rfl

end node_backend.sessions
