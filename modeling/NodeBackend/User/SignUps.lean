import NodeBackend.Program.Relies
import NodeBackend.User.Emails
import NodeBackend.User.Turns

namespace node_backend.sign_ups

open js store program
open node_backend.exceptions node_backend.user_database node_backend.user_models node_backend.user_query
open node_backend.user_entity node_backend.user_preference_entity node_backend.abstract_repository
open node_backend.user_repository node_backend.user_service node_backend.user_specs node_backend.user_strategy
open node_backend.user_usecases node_backend.user_schemas node_backend.user_requests

variable {ids : UuidSource} {db db' : Database ids} {own : Option String}

/-- What a creation relies on: nothing goes away, and nobody else gives a preference to
the user that it inserted. -/
structure Spares (own : Option String) (db db' : Database ids) : Prop where
  users : db.users.rows <+: db'.users.rows
  preferences : db.preferences.rows <+: db'.preferences.rows
  own : ∀ id ∈ own, ∀ row ∈ db'.preferences.rows, row.userId = some id → row ∈ db.preferences.rows

/-- A creation reads, inserts one user, and gives a preference to that one. -/
def Allowed (own : Option String) : Call → Prop
  | .findUser _ => True
  | .findUsers _ => True
  | .findPreference _ => True
  | .insertUser _ => own = none
  | .insertPreference columns => own ≠ none ∧ columns.user = own
  | _ => False

/-- The user that a creation inserted, once it knows. -/
def inserted : (call : Call) → Except Failure call.Reply → Option String → Option String
  | .insertUser _, .ok reply, _ => reply.id
  | _, _, own => own

theorem Spares.refl (own : Option String) (db : Database ids) : Spares own db db where
  users := List.prefix_refl _
  preferences := List.prefix_refl _
  own := fun _ _ _ hrow _ => hrow

theorem Spares.trans {db'' : Database ids} (h : Spares own db db') (h' : Spares own db' db'') :
    Spares own db db'' where
  users := h.users.trans h'.users
  preferences := h.preferences.trans h'.preferences
  own := fun id hid row hrow huserId => h.own id hid row (h'.own id hid row hrow huserId) huserId

def rules (ids : UuidSource) : Rules Call Call.Reply Failure (Database ids) (Option String) where
  step := step False
  rely := Spares
  allowed := Allowed
  note := inserted
  refl := Spares.refl
  trans := Spares.trans

/-- The users that so many creations have inserted, beside those that were there. -/
structure Inserted (start : Database ids) (count : Nat) (own : Nat → Option String) (db : Database ids) : Prop where
  grown : start.users.rows <+: db.users.rows
  owner : ∀ row ∈ db.users.rows, row ∈ start.users.rows ∨ ∃ i < count, own i = some row.id
  apart : ∀ i j id, own i = some id → own j = some id → i = j
  new : ∀ i id, own i = some id → (∃ row ∈ db.users.rows, row.id = id) ∧ ∀ row ∈ start.users.rows, row.id ≠ id

theorem Inserted.refl (db : Database ids) (count : Nat) : Inserted db count (fun _ => none) db where
  grown := List.prefix_refl _
  owner := fun _ hrow => Or.inl hrow
  apart := fun _ _ _ h => by cases h
  new := fun _ _ h => by cases h

/-- The insert of one more user. -/
theorem Inserted.insertUser {start : Database ids} {count i : Nat} {own : Nat → Option String} (hi : i < count)
    (h : Inserted start count own db) (hown : own i = none) {row : UsersModel}
    (hrows : db'.users.rows = db.users.rows ++ [row]) (hid : row.id = db.users.nextId) :
    Inserted start count (Function.update own i (some db.users.nextId)) db' := by
  have hfresh : ∀ j, own j ≠ some db.users.nextId := by
    intro j hj
    obtain ⟨⟨old, hold, heq⟩, _⟩ := h.new j _ hj
    exact db.users.id_ne_nextId hold heq
  refine ⟨?_, ?_, ?_, ?_⟩
  · rw [hrows]
    exact h.grown.trans (List.prefix_append _ _)
  · intro other hother
    rw [hrows] at hother
    obtain hold | hnew := List.mem_append.mp hother
    · obtain hstart | ⟨j, hj, howner⟩ := h.owner other hold
      · exact Or.inl hstart
      · refine Or.inr ⟨j, hj, ?_⟩
        rw [Function.update_of_ne, howner]
        rintro rfl
        cases hown.symm.trans howner
    · refine Or.inr ⟨i, hi, ?_⟩
      rw [Function.update_self, List.mem_singleton.mp hnew, hid]
  · intro j k id hj hk
    by_cases hji : j = i
    · by_cases hki : k = i
      · rw [hji, hki]
      · rw [hji, Function.update_self] at hj
        rw [Function.update_of_ne hki, ← hj] at hk
        exact absurd hk (hfresh k)
    · rw [Function.update_of_ne hji] at hj
      by_cases hki : k = i
      · rw [hki, Function.update_self] at hk
        rw [← hk] at hj
        exact absurd hj (hfresh j)
      · rw [Function.update_of_ne hki] at hk
        exact h.apart j k id hj hk
  · intro j id hj
    by_cases hji : j = i
    · rw [hji, Function.update_self] at hj
      obtain rfl := Option.some.inj hj
      refine ⟨⟨row, ?_, hid⟩, fun old hold => ?_⟩
      · rw [hrows]
        exact List.mem_append_right _ (List.mem_singleton.mpr rfl)
      · exact db.users.id_ne_nextId (h.grown.subset hold)
    · rw [Function.update_of_ne hji] at hj
      obtain ⟨⟨old, hold, heq⟩, hstart⟩ := h.new j id hj
      refine ⟨⟨old, ?_, heq⟩, hstart⟩
      rw [hrows]
      exact List.mem_append_left _ hold

theorem Inserted.congr {start : Database ids} {count : Nat} {own : Nat → Option String}
    (h : Inserted start count own db) (husers : db'.users = db.users) : Inserted start count own db' where
  grown := by rw [husers]; exact h.grown
  owner := by rw [husers]; exact h.owner
  apart := h.apart
  new := by rw [husers]; exact h.new

/-- A creation takes no user away either. -/
theorem users_extended {call : Call} {reply : Except Failure call.Reply} (hallowed : Allowed own call)
    (hstep : step False call db reply db') : db.users.rows <+: db'.users.rows := by
  cases reply with
  | error failure => rw [unchanged_of_error hstep]
  | ok reply =>
    cases call with
    | insertUser columns =>
      obtain ⟨now, hrows, _, _⟩ := insertUser_effect hstep
      rw [hrows]
      exact List.prefix_append _ _
    | insertPreference columns =>
      obtain ⟨now, _, husers, _⟩ := insertPreference_effect hstep
      rw [husers]
    | findUser options =>
      have hfinds : Finds (.findUser options) := trivial
      rw [hfinds.unchanged hstep]
    | findUsers options =>
      have hfinds : Finds (.findUsers options) := trivial
      rw [hfinds.unchanged hstep]
    | findPreference condition =>
      have hfinds : Finds (.findPreference condition) := trivial
      rw [hfinds.unchanged hstep]
    | _ => exact hallowed.elim

/-- Creations do no harm to each other. -/
theorem fair (start : Database ids) (count : Nat) : Pool.Fair (rules ids) count (Inserted start count) := by
  intro own db i call reply db' hi h hcreates hstep
  have hallowed : Allowed (own i) call := hcreates
  have hunchanged : db' = db → inserted call reply (own i) = own i →
      Inserted start count (Function.update own i (inserted call reply (own i))) db' ∧
        ∀ j, j ≠ i → Spares (own j) db db' := by
    rintro rfl hsame
    rw [hsame, Function.update_eq_self]
    exact ⟨h, fun j _ => Spares.refl _ _⟩
  cases reply with
  | error failure => exact hunchanged (unchanged_of_error hstep) (by cases call <;> rfl)
  | ok reply =>
    cases call with
    | insertUser columns =>
      obtain ⟨now, hrows, hpreferences, rfl⟩ := insertUser_effect hstep
      refine ⟨h.insertUser hi hallowed hrows rfl, fun j _ => ⟨users_extended hallowed hstep, ?_, ?_⟩⟩
      · rw [hpreferences]
      · intro _ _ row hrow _
        rwa [hpreferences] at hrow
    | insertPreference columns =>
      obtain ⟨now, hrows, husers, _⟩ := insertPreference_effect hstep
      obtain ⟨hsome, hcolumns⟩ := id hallowed
      obtain ⟨id, hid⟩ := Option.ne_none_iff_exists'.mp hsome
      have hread : ids.read id = some id := by
        obtain ⟨⟨owned, hmem, rfl⟩, _⟩ := h.new i id hid
        exact db.users.read_id hmem
      rw [PreferenceColumns.stored_of_own (hcolumns.trans hid) hread] at hrows
      refine ⟨?_, fun j hj => ⟨users_extended hallowed hstep, ?_, ?_⟩⟩
      · change Inserted start count (Function.update own i (own i)) db'
        rw [Function.update_eq_self]
        exact h.congr husers
      · rw [hrows]
        exact List.prefix_append _ _
      · intro id hid row hrow huserId
        rw [hrows] at hrow
        obtain hold | hnew := List.mem_append.mp hrow
        · exact hold
        · rw [List.mem_singleton.mp hnew] at huserId
          have hown : own i = some id := hcolumns.symm.trans huserId
          exact absurd (h.apart j i id hid hown) hj
    | findUser options =>
      have hfinds : Finds (.findUser options) := trivial
      exact hunchanged (hfinds.unchanged hstep) rfl
    | findUsers options =>
      have hfinds : Finds (.findUsers options) := trivial
      exact hunchanged (hfinds.unchanged hstep) rfl
    | findPreference condition =>
      have hfinds : Finds (.findPreference condition) := trivial
      exact hunchanged (hfinds.unchanged hstep) rfl
    | _ => exact hallowed.elim

/-- Some row has the e-mail. -/
def Taken (email : String) (db : Database ids) : Prop :=
  ∃ row ∈ db.users.rows, row.email = email

theorem Spares.taken {email : String} (h : Spares own db db') (htaken : Taken email db) : Taken email db' := by
  obtain ⟨row, hrow, hemail⟩ := htaken
  exact ⟨row, h.users.subset hrow, hemail⟩

theorem Spares.liveUser {id : String} (h : Spares own db db') (hlive : LiveUser db id) : LiveUser db' id := by
  obtain ⟨row, hrow, hlive, hid⟩ := mem_outline_users.mp hlive
  exact mem_outline_users.mpr ⟨row, h.users.subset hrow, hlive, hid⟩

theorem Spares.livePreference {id : String} (h : Spares own db db') (hlive : LivePreference db id) :
    LivePreference db' id := by
  obtain ⟨huser, preferenceId, hmem⟩ := hlive
  obtain ⟨row, hrow, hlive, huserId, hid⟩ := mem_outline_preferences.mp hmem
  exact ⟨h.liveUser huser, preferenceId,
    mem_outline_preferences.mpr ⟨row, h.preferences.subset hrow, hlive, huserId, hid⟩⟩

theorem Spares.noPreference {id : String} (h : Spares (some id) db db') (hnone : NoPreference db id) :
    NoPreference db' id := by
  intro row hrow huserId
  exact hnone row (h.own id rfl row hrow huserId) huserId

section relies

variable {email : String}

/-- The search for an e-mail tells whether it is taken by a live user. -/
theorem getByEmail_relies (clock : Clock) (email : String) (own : Option String) (db : Database ids)
    {thrown : Failure → Option String → Database ids → Prop} :
    (getByEmail clock (some email)).Relies (rules ids) own db
      (fun found own' db' => own' = own ∧ (found.isSome = true → Taken email db')) thrown := by
  have hread : (getByEmail clock (some email)).Relies (rules ids) own db
      (fun found own' db' => own' = own ∧ (found.isSome = true → Taken email db'))
      fun _ own' _ => own' = own ∧ False := by
    refine Program.Ensures.relies trivial (fun reply => ?_) (fun _ => rfl) fun db₁ _ =>
      (getByEmail_reads clock email db₁).mono ?_ fun _ _ h => h.2
    · exact Program.Ended.tryCatch (Program.Ended.tryCatch (Program.Ended.bind (Program.ended_ofExcept reply)
        fun _ => Program.ended_ofExcept _) fun _ => trivial) fun _ => trivial
    · rintro found db' ⟨rfl, ⟨row, hrow, _, hemail, _⟩ | ⟨rfl, _⟩⟩
      · exact fun _ => ⟨row, hrow, hemail⟩
      · rintro ⟨⟩
  exact hread.mono (fun _ _ _ h => h) fun _ _ _ h => h.2.elim

/-- A user that was inserted has no preference, and one that was not has its e-mail taken. -/
theorem insert_relies (now : Time) {entity : UserEntity} (hemail : entity.email = some email)
    (hdeleted : entity.deletedAt = none) (db : Database ids) :
    (user_repository.create now entity).Relies (rules ids) none db
      (fun created own db' => ∃ row ∈ db'.users.rows, own = some row.id ∧ created.id = some row.id ∧
        row.email = email ∧ row.live = true ∧ NoPreference db' row.id)
      fun _ own db' => own = none ∧ Taken email db' := by
  unfold user_repository.create abstract_repository.create
  refine Program.Relies.rethrow (Program.Relies.bind (R := fun reply own db' =>
    ∃ row ∈ db'.users.rows, own = some row.id ∧ reply = row.load UserSelect.all none ∧ row.email = email ∧
      row.live = true ∧ NoPreference db' row.id) ⟨rfl, fun db₁ reply db' _ hstep => ?_⟩ ?_)
  · cases reply with
    | error failure =>
      refine ⟨rfl, ?_⟩
      rw [unchanged_of_error hstep]
      by_contra hfree
      exact mayFail_of_insertUser hemail (fun row hrow hsame => hfree ⟨row, hrow, hsame⟩) hstep
    | ok reply =>
      obtain ⟨hlive, hnone⟩ := newUser_inserted hdeleted (wrote_of_step hstep)
      obtain ⟨now, hrows, _, rfl⟩ := insertUser_effect hstep
      refine ⟨_, ?_, rfl, rfl, ?_, ?_, hnone⟩
      · rw [hrows]
        exact List.mem_append_right _ (List.mem_singleton.mpr rfl)
      · change entity.email.getD "" = email
        rw [hemail, Option.getD_some]
      · change entity.deletedAt.isNone = true
        rw [hdeleted, Option.isNone_none]
  · rintro _ own db' ⟨row, hrow, hown, rfl, hrest⟩
    obtain ⟨created, hcreated, hid, _⟩ := exists_toDomainEntity now row UserSelect.all none
    rw [built_ok hcreated]
    exact ⟨row, hrow, hown, hid, hrest⟩

/-- The service inserts a user, unless the e-mail is taken or the password cannot be
protected. -/
theorem create_relies (clock : Clock) {cryptography : Cryptography} {entity : UserEntity}
    (hemail : entity.email = some email) (hdeleted : entity.deletedAt = none) (db : Database ids) :
    (user_service.create clock cryptography entity).Relies (rules ids) none db
      (fun created own db' => ∃ row ∈ db'.users.rows, own = some row.id ∧ created.id = some row.id ∧
        row.email = email ∧ row.live = true ∧ NoPreference db' row.id)
      fun _ own db' => own = none ∧ (Taken email db' ∨ ∀ password, ¬ Protected cryptography entity password) := by
  unfold user_service.create
  apply Program.Relies.rethrow
  cases hplain : given entity.password with
  | none =>
    refine ⟨rfl, Or.inr ?_⟩
    rintro password ⟨plainText, hsome, _⟩
    cases hplain.symm.trans hsome
  | some plainText =>
    refine Program.Relies.bind (R := fun password own _ => own = none ∧
      protectPassword cryptography plainText = .ok password)
      (Program.relies_ofExcept (fun _ hok => ⟨rfl, hok⟩) fun error herror => ⟨rfl, Or.inr ?_⟩) ?_
    · rintro password ⟨other, hother, hprotected⟩
      cases hplain.symm.trans hother
      cases herror.symm.trans hprotected
    rintro password own db₁ ⟨rfl, _⟩
    change (getByEmail clock entity.email >>= _).Relies _ _ _ _ _
    rw [hemail]
    apply (getByEmail_relies clock email none db₁).bind
    rintro found own db₂ ⟨rfl, hfound⟩
    by_cases hsome : found.isSome = true
    · rw [if_pos hsome]
      exact ⟨rfl, Or.inl (hfound hsome)⟩
    · rw [if_neg hsome]
      have hstored : (entity.setPassword password).email = some email := hemail
      refine Program.Relies.bind (((insert_relies (clock 1) hstored hdeleted db₂).mono (fun _ _ _ h => h) ?_)) ?_
      · exact fun _ _ _ h => ⟨h.1, Or.inl h.2⟩
      · rintro created own db₃ ⟨row, hrow, hown, hid, hrest⟩
        exact ⟨row, hrow, hown, hid, hrest⟩

/-- The user that a creation inserted is still read, whatever others do. -/
theorem getById_relies (clock : Clock) {id : String} (hlive : LivePreference db id)
    {thrown : Failure → Option String → Database ids → Prop} :
    (user_service.getById clock (some id)).Relies (rules ids) own db
      (fun user own' db' => user.id = some id ∧ own' = own ∧ LivePreference db' id) thrown := by
  have hread : (user_service.getById clock (some id)).Relies (rules ids) own db
      (fun user own' db' => own' = own ∧ (user.id = some id ∧ LivePreference db' id))
      fun _ own' _ => own' = own ∧ False := by
    refine Program.Ensures.relies trivial (fun reply => ended_of_reply reply (fun _ => Program.ended_ofExcept _)
      fun user => ?_) (fun _ => rfl) fun db₁ hspares => (getById_ensures clock id db₁).mono ?_ ?_
    · cases user <;> trivial
    · rintro user db' ⟨rfl, userId, hasked, huser⟩
      have hread := hasked (ne_empty_of_liveUser hlive.1)
      obtain rfl : id = userId := Option.some.inj ((read_of_liveUser hlive.1).symm.trans hread)
      exact ⟨huser.live.1, hspares.livePreference hlive⟩
    · rintro _ db' ⟨rfl, hfail | hnobody⟩
      · exact hfail
      · exact hnobody id (read_of_liveUser hlive.1) (hspares.livePreference hlive).1
  exact hread.mono (fun _ _ _ h => ⟨h.2.1, h.1, h.2.2⟩) fun _ _ _ h => h.2.elim

theorem getByUserId_relies (clock : Clock) {id : String} (hlive : LivePreference db id)
    {thrown : Failure → Option String → Database ids → Prop} :
    (user_preference_service.getByUserId clock (some id)).Relies (rules ids) own db
      (fun _ own' db' => True ∧ own' = own ∧ LivePreference db' id) thrown := by
  have hread : (user_preference_service.getByUserId clock (some id)).Relies (rules ids) own db
      (fun _ own' db' => own' = own ∧ LivePreference db' id) fun _ own' _ => own' = own ∧ False := by
    refine Program.Ensures.relies trivial (fun reply => ended_of_reply reply (fun _ => Program.ended_ofExcept _)
      fun preference => ?_) (fun _ => rfl) fun db₁ hspares => (getByUserId_ensures clock id db₁).mono ?_ ?_
    · cases preference <;> trivial
    · rintro _ db' ⟨rfl, _⟩
      exact hspares.livePreference hlive
    · rintro _ db' ⟨rfl, hfail | hlacks⟩
      · exact hfail
      · exact hlacks id (read_of_liveUser hlive.1) (hspares.livePreference hlive)
  exact hread.mono (fun _ _ _ h => ⟨trivial, h⟩) fun _ _ _ h => h.2.elim

/-- The preference of a user that a creation inserted is refused to nobody. -/
theorem preference_create_relies (clock : Clock) {entity : UserPreferenceEntity} {id : String}
    (hentity : entity.userId = some id) (hdeleted : entity.deletedAt = none) (hlive : LiveUser db id)
    (hnone : NoPreference db id) {thrown : Failure → Option String → Database ids → Prop} :
    (user_preference_service.create clock entity).Relies (rules ids) (some id) db
      (fun _ own db' => own = some id ∧ LivePreference db' id) thrown := by
  have hinsert : (user_preference_service.create clock entity).Relies (rules ids) (some id) db
      (fun _ own db' => own = some id ∧ LivePreference db' id) fun _ _ _ => False := by
    unfold user_preference_service.create user_preference_repository.create abstract_repository.create
    refine Program.Relies.rethrow (Program.Relies.rethrow (Program.Relies.bind (R := fun reply own db' =>
      (∃ created, user_preference_repository.toDomainEntity (clock 0) reply = .ok created) ∧ own = some id ∧
        LivePreference db' id) ⟨⟨Option.some_ne_none id, hentity⟩, fun db₁ reply db' hspares hstep => ?_⟩ ?_))
    · have hlive₁ := hspares.liveUser hlive
      cases reply with
      | error failure =>
        obtain ⟨row, hrow, _, rfl⟩ := mem_outline_users.mp hlive₁
        exact mayFail_of_insertPreference hentity hrow (hspares.noPreference hnone) hstep
      | ok reply =>
        refine ⟨?_, rfl, newPreference_inserted hdeleted hlive₁ hentity (wrote_of_step hstep)⟩
        obtain ⟨now, _, _, rfl⟩ := insertPreference_effect hstep
        obtain ⟨created, hcreated, _⟩ := exists_preference_toDomainEntity (clock 0)
          ((user_preference_repository.toDatabaseEntity entity).row now db₁.preferences.nextId)
          (user_preference_repository.toDatabaseEntity entity).user
        exact ⟨created, hcreated⟩
    · rintro reply own db' ⟨⟨created, hcreated⟩, hrest⟩
      rw [built_ok hcreated]
      exact hrest
  exact hinsert.mono (fun _ _ _ h => h) fun _ _ _ h => h.elim

/-- A user that was just inserted gets its preference, and is read with it. -/
theorem addPreference_relies (clock : Clock) {data : UserInput} (htheme : ThemeAllowed data) {id : String}
    (hlive : LiveUser db id) (hnone : NoPreference db id) {thrown : Failure → Option String → Database ids → Prop} :
    (addPreference clock data (some id)).Relies (rules ids) (some id) db
      (fun user own db' => user.id = some id ∧ own = some id ∧ LivePreference db' id) thrown := by
  obtain ⟨newPreference, hnewPreference⟩ := exists_construct (clock 4) _ (newPreferenceValues_isTheme htheme)
  have hdeleted : newPreference.deletedAt = none :=
    (construct_deletedAt hnewPreference).trans (newPreferenceValues_deletedAt data)
  have hnamed := newPreference.setUserId_of_ne (ne_empty_of_liveUser hlive)
  have hwith : withUserId newPreference (some id) = .ok { newPreference with userId := some id } :=
    congrArg Except.ok hnamed
  have hown : ({ newPreference with userId := some id } : UserPreferenceEntity).userId = some id := rfl
  unfold addPreference
  rw [built_ok hnewPreference, Program.done_bind, hwith, Program.ofExcept_ok, Program.done_bind]
  refine (preference_create_relies _ hown hdeleted hlive hnone).bind ?_
  rintro _ own db₁ ⟨rfl, hstill⟩
  have hboth : (readBoth (fun n => clock (n + 6)) (some id)).Relies (rules ids) (some id) db₁
      (fun both own db' => both.1.id = some id ∧ True ∧ own = some id ∧ LivePreference db' id) thrown := by
    refine Program.Relies.all (P := fun user : UserEntity => user.id = some id) (Q := fun _ => True)
      (I := fun own db' => own = some id ∧ LivePreference db' id) (getById_relies _ hstill) ?_
    rintro own db₂ ⟨rfl, hstill⟩
    exact getByUserId_relies _ hstill
  apply hboth.bind
  rintro ⟨user, preference⟩ own db₂ ⟨hid, _, hrest⟩
  exact ⟨hid, hrest⟩

end relies

/-- A creation, as it is asked for. -/
structure SignUp where
  clock : Clock
  cryptography : Cryptography
  data : UserInput
  agentUser : Option UserAuthInterface

def SignUp.promise (signUp : SignUp) : Promise UserEntity :=
  createUser signUp.clock signUp.cryptography signUp.data signUp.agentUser

/-- Somebody asks, with a password that can be protected. -/
def SignUp.Usable (signUp : SignUp) : Prop :=
  clientId? signUp.agentUser ≠ none ∧ ∃ plainText password, given signUp.data.password = some plainText ∧
    protectPassword signUp.cryptography plainText = .ok password

/-- Whatever other creations do in between, a creation returns with its user and the
preference of that user in the tables, or throws with nothing inserted, since its e-mail
is taken or it is not usable. -/
theorem createUser_relies {signUp : SignUp} (haccepted : Accepted signUp.data) {email : String}
    (hemail : signUp.data.email = some email) (db : Database ids) :
    signUp.promise.Relies (rules ids) none db
      (fun user own db' => ∃ row ∈ db'.users.rows, own = some row.id ∧ user.id = some row.id ∧ row.email = email ∧
        LivePreference db' row.id)
      fun _ own db' => own = none ∧ (Taken email db' ∨ ¬ signUp.Usable) := by
  obtain ⟨clock, cryptography, data, agentUser⟩ := signUp
  unfold SignUp.promise createUser
  cases hagent : clientId? agentUser with
  | none => exact ⟨rfl, Or.inr fun husable => husable.1 hagent⟩
  | some clientId =>
    obtain ⟨newUser, hnewUser, _⟩ := construct_eq_ok (clock 0) data.userValues rfl
    have hnamed : newUser.email = some email := by
      cases hnewUser
      exact hemail
    have hdeleted : newUser.deletedAt = none := by
      cases hnewUser
      rfl
    have hpassword : newUser.password = data.password := by
      cases hnewUser
      rfl
    change (built (user_entity.construct (clock 0) data.userValues) >>= _).Relies _ _ _ _ _
    rw [built_ok hnewUser, Program.done_bind, hnamed]
    apply (getByEmail_relies _ email none db).bind
    rintro existentUser own db₁ ⟨rfl, hexistent⟩
    by_cases hsome : existentUser.isSome = true
    · rw [if_pos hsome]
      exact ⟨rfl, Or.inl (hexistent hsome)⟩
    rw [if_neg hsome]
    refine Program.Relies.bind ((create_relies _ hnamed hdeleted db₁).mono (fun _ _ _ h => h) ?_) ?_
    · rintro _ own db₂ ⟨rfl, htaken | hnone⟩
      · exact ⟨rfl, Or.inl htaken⟩
      · refine ⟨rfl, Or.inr ?_⟩
        rintro ⟨_, plainText, password, hplain, hprotected⟩
        exact hnone password ⟨plainText, hpassword ▸ hplain, hprotected⟩
    · rintro created own db₂ ⟨row, hrow, rfl, hid, hrowEmail, hlive, hnone⟩
      rw [hid]
      have hadded : (addPreference clock data (some row.id)).Relies (rules ids) (some row.id) db₂
          (fun user own db' => user.id = some row.id ∧ own = some row.id ∧ LivePreference db' row.id)
          fun _ _ _ => False :=
        addPreference_relies clock haccepted.theme (mem_outline_users.mpr ⟨row, hrow, hlive, rfl⟩) hnone
      have hstays := hadded.frame (F := fun db' => row ∈ db'.users.rows)
        (fun _ _ _ (hspares : Spares _ _ _) hmem => hspares.users.subset hmem)
        (fun _ _ _ _ _ hallowed hstep hmem => (users_extended hallowed hstep).subset hmem) hrow
      apply hstays.mono
      · rintro user own db₃ ⟨⟨huser, rfl, hpreference⟩, hmem⟩
        exact ⟨row, hmem, rfl, huser, hrowEmail, hpreference⟩
      · rintro _ _ _ ⟨hfalse, _⟩
        exact hfalse.elim

/-- Creations that take turns with their requests to the database. -/
def together (world : World) (signUps : List SignUp) (db : Database ids) (turns : List Nat) :
    Pool Call Call.Reply Failure UserEntity (Nat × Database ids) :=
  Pool.afterTurns world.exec (signUps.map SignUp.promise) db turns

/-- A creation for an e-mail has returned a user. -/
def Answered (signUps : List SignUp) (pool : Pool Call Call.Reply Failure UserEntity (Nat × Database ids))
    (email : String) (i : Nat) (user : UserEntity) : Prop :=
  ∃ signUp, signUps[i]? = some signUp ∧ signUp.data.email = some email ∧ pool.threads[i]? = some (.done user)

/-- A creation has returned the user whose row has the e-mail. -/
def Registered (signUps : List SignUp) (pool : Pool Call Call.Reply Failure UserEntity (Nat × Database ids))
    (email : String) (i : Nat) : Prop :=
  ∃ user, Answered signUps pool email i user ∧
    ∃ row ∈ pool.state.2.users.rows, row.email = email ∧ user.id = some row.id

/-- What a creation that returned has left. -/
def Returned (signUps : List SignUp) (i : Nat) (user : UserEntity) (own : Option String) (db : Database ids) : Prop :=
  ∃ signUp ∈ signUps[i]?, ∃ row ∈ db.users.rows, own = some row.id ∧ user.id = some row.id ∧
    signUp.data.email = some row.email ∧ LivePreference db row.id

/-- Why a creation threw. -/
def Threw (signUps : List SignUp) (i : Nat) (own : Option String) (db : Database ids) : Prop :=
  own = none ∧ ∃ signUp ∈ signUps[i]?, ∃ email ∈ signUp.data.email, Taken email db ∨ ¬ signUp.Usable

theorem exec_sound {world : World} (hsound : world.Sound) (n : Nat) (call : Call) (db : Database ids) :
    step False call db (world.exec n call db).1 (world.exec n call db).2 := by
  unfold World.exec
  rw [hsound n]
  exact Or.inr ⟨_, _, rfl⟩

/-- After any turns, every creation ends as it has to. -/
theorem together_keeps {world : World} (hsound : world.Sound) {signUps : List SignUp}
    (haccepted : ∀ signUp ∈ signUps, Accepted signUp.data ∧ signUp.data.email.isSome = true) (db : Database ids)
    (turns : List Nat) : ∃ own, Pool.Keeps (rules ids) (Inserted db signUps.length) (Returned signUps)
      (fun i _ => Threw signUps i) own (together world signUps db turns) ∧
        (together world signUps db turns).threads.length = signUps.length := by
  have hlength : (signUps.map SignUp.promise).length = signUps.length := List.length_map _
  rw [← hlength]
  refine Pool.afterTurns_keeps (exec_sound hsound) (fair db _) ?_ ?_ (Inserted.refl db _) ?_ turns
  · rintro i user own db₁ db₂ hspares ⟨signUp, hsignUp, row, hrow, hown, hid, hemail, hpreference⟩
    exact ⟨signUp, hsignUp, row, hspares.users.subset hrow, hown, hid, hemail, hspares.livePreference hpreference⟩
  · rintro i _ own db₁ db₂ hspares ⟨hown, signUp, hsignUp, email, hemail, hreason⟩
    exact ⟨hown, signUp, hsignUp, email, hemail, hreason.imp_left hspares.taken⟩
  · intro i p hp
    rw [List.getElem?_map] at hp
    obtain ⟨signUp, hsignUp, rfl⟩ := Option.map_eq_some_iff.mp hp
    obtain ⟨hdata, hsome⟩ := haccepted signUp (List.mem_of_getElem? hsignUp)
    obtain ⟨email, hemail⟩ := Option.isSome_iff_exists.mp hsome
    apply (createUser_relies hdata hemail db).mono
    · rintro user own db' ⟨row, hrow, hown, hid, rfl, hpreference⟩
      exact ⟨signUp, hsignUp, row, hrow, hown, hid, hemail, hpreference⟩
    · rintro _ own db' ⟨hown, hreason⟩
      exact ⟨hown, signUp, hsignUp, email, hemail, hreason⟩

section ended

variable {signUps : List SignUp} {db : Database ids} {own : Nat → Option String}
  {pool : Pool Call Call.Reply Failure UserEntity (Nat × Database ids)}
  (hkeeps : Pool.Keeps (rules ids) (Inserted db signUps.length) (Returned signUps) (fun i _ => Threw signUps i) own
    pool) (hlength : pool.threads.length = signUps.length) (hfinished : pool.Finished) {i : Nat}

include hkeeps

/-- Whoever has returned owns the row with its e-mail. -/
theorem owner_of_answered {email : String} {user : UserEntity} (hanswered : Answered signUps pool email i user) :
    ∃ row ∈ pool.state.2.users.rows, row.email = email ∧ own i = some row.id := by
  obtain ⟨signUp, hsignUp, hemail, hp⟩ := hanswered
  obtain ⟨other, hother, row, hrow, hown, _, hrowEmail, _⟩ := hkeeps.threads i _ hp
  cases hsignUp.symm.trans hother
  exact ⟨row, hrow, Option.some.inj (hrowEmail.symm.trans hemail), hown⟩

include hlength hfinished

/-- Whoever owns a row has returned with it. -/
theorem registered_of_owner {row : UsersModel} (hi : i < signUps.length) (hrow : row ∈ pool.state.2.users.rows)
    (hown : own i = some row.id) : LivePreference pool.state.2 row.id ∧ Registered signUps pool row.email i := by
  obtain ⟨p, hp⟩ : ∃ p, pool.threads[i]? = some p := ⟨_, List.getElem?_eq_getElem (hlength ▸ hi)⟩
  have hends := hkeeps.threads i p hp
  cases p with
  | done user =>
    obtain ⟨signUp, hsignUp, other, hother, hown', huser, hemail, hpreference⟩ := hends
    obtain hid := Option.some.inj (hown.symm.trans hown')
    cases pool.state.2.users.eq_of_id_eq hrow hother hid
    exact ⟨hpreference, user, ⟨signUp, hsignUp, hemail, hp⟩, row, hrow, rfl, huser⟩
  | throw error => cases hends.1.symm.trans hown
  | await call next => exact (hfinished _ (List.mem_of_getElem? hp)).elim

/-- A usable creation ends with its e-mail taken, by itself or by another. -/
theorem taken_of_usable {signUp : SignUp} (hsignUp : signUp ∈ signUps) {email : String}
    (hemail : signUp.data.email = some email) (husable : signUp.Usable) : Taken email pool.state.2 := by
  obtain ⟨i, hi⟩ := List.mem_iff_getElem?.mp hsignUp
  have hlt := (List.getElem?_eq_some_iff.mp hi).1
  obtain ⟨p, hp⟩ : ∃ p, pool.threads[i]? = some p := ⟨_, List.getElem?_eq_getElem (hlength ▸ hlt)⟩
  have hends := hkeeps.threads i p hp
  cases p with
  | done user =>
    obtain ⟨row, hrow, hrowEmail, _⟩ := owner_of_answered hkeeps ⟨signUp, hi, hemail, hp⟩
    exact ⟨row, hrow, hrowEmail⟩
  | throw error =>
    obtain ⟨_, other, hother, email', hemail', hreason⟩ := hends
    cases hi.symm.trans hother
    cases hemail.symm.trans hemail'
    exact hreason.resolve_right fun hnot => hnot husable
  | await call next => exact (hfinished _ (List.mem_of_getElem? hp)).elim

end ended

/-- However creations take turns, once all have ended every e-mail that was free and was
asked for with a usable creation is registered by one of them, and no other one is
answered with a user. Nor is any for an e-mail that was taken. All rows that were added
are those of creations that returned them, each with its preference. -/
theorem registered_once {world : World} (hsound : world.Sound) {signUps : List SignUp}
    (haccepted : ∀ signUp ∈ signUps, Accepted signUp.data ∧ signUp.data.email.isSome = true) (db : Database ids)
    (turns : List Nat) (hfinished : (together world signUps db turns).Finished) :
    (∀ email, Taken email db → ∀ i user, ¬ Answered signUps (together world signUps db turns) email i user) ∧
    (∀ email, ¬ Taken email db → (∃ signUp ∈ signUps, signUp.data.email = some email ∧ signUp.Usable) →
      ∃ i, Registered signUps (together world signUps db turns) email i ∧
        ∀ j user, Answered signUps (together world signUps db turns) email j user → j = i) ∧
    ∀ row ∈ (together world signUps db turns).state.2.users.rows, row ∈ db.users.rows ∨
      LivePreference (together world signUps db turns).state.2 row.id ∧
        ∃ i, Registered signUps (together world signUps db turns) row.email i := by
  obtain ⟨own, hkeeps, hlength⟩ := together_keeps hsound haccepted db turns
  generalize together world signUps db turns = pool at *
  have hsame : ∀ {row other : UsersModel}, row ∈ pool.state.2.users.rows → other ∈ pool.state.2.users.rows →
      row.email = other.email → row = other := fun hrow hother heq =>
    pool.state.2.users.eq_of_unique_eq hrow hother (congrArg some heq) rfl
  refine ⟨?_, ?_, ?_⟩
  · intro email htaken i user hi
    obtain ⟨old, hold, holdEmail⟩ := htaken
    obtain ⟨row, hrow, hemail, hown⟩ := owner_of_answered hkeeps hi
    have hstill := hkeeps.state.grown.subset hold
    cases hsame hstill hrow (holdEmail.trans hemail.symm)
    exact (hkeeps.state.new i _ hown).2 old hold rfl
  · intro email hfree hasked
    obtain ⟨signUp, hsignUp, hemail, husable⟩ := hasked
    obtain ⟨row, hrow, rfl⟩ := taken_of_usable hkeeps hlength hfinished hsignUp hemail husable
    obtain hold | ⟨i, hi, hown⟩ := hkeeps.state.owner row hrow
    · exact absurd ⟨row, hold, rfl⟩ hfree
    · refine ⟨i, (registered_of_owner hkeeps hlength hfinished hi hrow hown).2, fun j user hj => ?_⟩
      obtain ⟨other, hother, hotherEmail, hown'⟩ := owner_of_answered hkeeps hj
      cases hsame hother hrow hotherEmail
      exact hkeeps.state.apart j i _ hown' hown
  · intro row hrow
    obtain hold | ⟨i, hi, hown⟩ := hkeeps.state.owner row hrow
    · exact Or.inl hold
    · obtain ⟨hpreference, hi'⟩ := registered_of_owner hkeeps hlength hfinished hi hrow hown
      exact Or.inr ⟨hpreference, i, hi'⟩

def signUpOf (email : String) : SignUp :=
  ⟨newcomer.clock, newcomer.cryptography, account email, newcomer.agentUser⟩

/-- Two creations with one e-mail, whose requests alternate. -/
theorem registered_once_twice : ∃ i, Registered [signUpOf "a@example.com", signUpOf "a@example.com"]
    (together faultless [signUpOf "a@example.com", signUpOf "a@example.com"]
      (Database.empty : Database UuidSource.counting) [0, 1, 0, 1, 0, 1, 0, 1, 0, 1, 0, 1]) "a@example.com" i ∧
    ∀ j user, Answered [signUpOf "a@example.com", signUpOf "a@example.com"]
      (together faultless [signUpOf "a@example.com", signUpOf "a@example.com"]
        (Database.empty : Database UuidSource.counting) [0, 1, 0, 1, 0, 1, 0, 1, 0, 1, 0, 1]) "a@example.com" j user →
      j = i := by
  have hends : ∃ user failure, (together faultless [signUpOf "a@example.com", signUpOf "a@example.com"]
      (Database.empty : Database UuidSource.counting) [0, 1, 0, 1, 0, 1, 0, 1, 0, 1, 0, 1]).threads =
        [.done user, .throw failure] := ⟨_, _, rfl⟩
  obtain ⟨user, failure, hthreads⟩ := hends
  refine (registered_once faultless_sound ?_ Database.empty _ ?_).2.1 _ ?_ ⟨_, List.mem_cons_self, rfl, ?_⟩
  · intro signUp hsignUp
    obtain rfl : signUp = signUpOf "a@example.com" := by simpa using hsignUp
    exact ⟨account_accepted _, rfl⟩
  · intro p hp
    rw [hthreads] at hp
    obtain rfl | rfl : p = _ ∨ p = _ := by simpa using hp
    · trivial
    · trivial
  · rintro ⟨row, hrow, _⟩
    cases hrow
  · exact ⟨by decide, "cGFzczEyMw==", _, rfl, rfl⟩

end node_backend.sign_ups
