import NodeBackend.User.Emails

namespace node_backend.user_requests

open js store program
open node_backend.exceptions node_backend.user_database node_backend.user_models node_backend.user_query
open node_backend.user_entity node_backend.user_preference_entity node_backend.abstract_repository
open node_backend.user_repository node_backend.user_service node_backend.user_specs node_backend.user_strategy
open node_backend.user_usecases

variable {ids : UuidSource} {mayFail : Prop} {db db' : Database ids}

/-- The agent is the live user with an identifier, by its e-mail and by its identifier. -/
def MayManage (db : Database ids) (agentUser : Option UserAuthInterface) (id : String) : Prop :=
  ∃ row ∈ db.users.rows, row.live = true ∧ row.id = id ∧ agentUser = some ⟨some row.email, some row.id⟩

/-- No row but the one with an identifier has the e-mail of an input. -/
def EmailFree (db : Database ids) (id : String) (data : UserInput) : Prop :=
  ∀ email ∈ data.email, ∀ row ∈ db.users.rows, row.id ≠ id → row.email ≠ email

/-- The password of an input, if it has one, can be protected. -/
def PasswordProtected (cryptography : Cryptography) (data : UserInput) : Prop :=
  ∃ password, protectGiven cryptography data.password = .ok password

theorem MayManage.live {agentUser : Option UserAuthInterface} {id : String} (h : MayManage db agentUser id) :
    LiveUser db id := by
  obtain ⟨row, hrow, hlive, hid, _⟩ := h
  exact mem_outline_users.mpr ⟨row, hrow, hlive, hid⟩

theorem MayManage.clientId {agentUser : Option UserAuthInterface} {id : String} (h : MayManage db agentUser id) :
    clientId? agentUser = some id := by
  obtain ⟨row, hrow, _, rfl, rfl⟩ := h
  exact given_of_ne (db.users.id_nonempty hrow)

theorem isAllowedToManageUser_iff {agent : UserAuthInterface} {row : UsersModel} {select : UserSelect}
    {preference : UserPreferenceEntity} :
    isAllowedToManageUser agent (shownUser row select preference) = true ↔ agent = ⟨some row.email, some row.id⟩ := by
  obtain ⟨username, clientId⟩ := agent
  simp [isAllowedToManageUser, shownUser]

/-- An update or a deletion gets past its checks exactly for the user itself. -/
theorem managed_cases {A : Type} {clock : Clock} {text action : String} {agent : UserAuthInterface}
    {next : UserEntity → UserPreferenceEntity → Promise A} {returned : A → Database ids → Prop}
    {thrown : Failure → Database ids → Prop}
    (hthrown : ∀ failure, (mayFail ∨ ∀ id, ids.read text = some id →
      ¬ (MayManage db (some agent) id ∧ LivePreference db id)) → thrown failure db)
    (hnext : ∀ id user preference preferenceId, ids.read text = some id → MayManage db (some agent) id →
      Managed clock db id user preference preferenceId →
        (next user preference).Ensures (step mayFail) db returned thrown) :
    (do
      let user ← user_service.getById clock (some text)
      let preference ← user_preference_service.getByUserId (fun n => clock (n + 1)) (some text)
      let _ ← validatePermission action agent user
      next user preference).Ensures (step mayFail) db returned thrown := by
  apply Program.Ensures.bind ((getById_ensures clock text db).mono (fun _ _ h => h) ?_)
  · rintro user db ⟨rfl, other, hasked, huser⟩
    apply Program.Ensures.bind ((getByUserId_ensures _ text _).mono (fun _ _ h => h) ?_)
    · rintro preference db ⟨rfl, id, hread, hpreference⟩
      have hsame := hasked (UuidSource.ne_empty_of_read hread)
      obtain rfl : id = other := Option.some.inj (hread.symm.trans hsame)
      obtain ⟨hlive, preferenceId, hid, hown⟩ := hpreference.live
      obtain ⟨row, hrow, hrowLive, rfl⟩ := mem_outline_users.mp hlive
      obtain ⟨joined, rfl⟩ := userRead_shown hrow huser
      unfold validatePermission
      by_cases hallowed : isAllowedToManageUser agent (shownUser row ⟨false, true, true⟩ joined) = true
      · rw [if_pos hallowed]
        refine hnext _ _ preference preferenceId hread ?_ ⟨huser, rfl, hlive, hpreference, hid, hown⟩
        exact ⟨row, hrow, hrowLive, rfl, congrArg some (isAllowedToManageUser_iff.mp hallowed)⟩
      · rw [if_neg hallowed]
        apply hthrown
        right
        rintro userId hreadAs ⟨⟨other, hother, _, hsame, hagent⟩, _⟩
        cases hread.symm.trans hreadAs
        cases db.users.eq_of_id_eq hother hrow hsame
        exact hallowed (isAllowedToManageUser_iff.mpr (Option.some.inj hagent))
    · rintro failure _ ⟨rfl, hfail | hlacks⟩
      · exact hthrown failure (Or.inl hfail)
      · exact hthrown failure (Or.inr fun id hread h => hlacks id hread h.2)
  · rintro failure _ ⟨rfl, hfail | hnobody⟩
    · exact hthrown failure (Or.inl hfail)
    · exact hthrown failure (Or.inr fun id hread h => hnobody id hread h.1.live)

/-- The unique index of the e-mails refuses no e-mail that is free. -/
theorem mayFail_of_updateUser {id : String} {columns : UserColumns} {failure : Failure}
    (hread : ids.read id = some id)
    (hfree : ∀ email ∈ columns.email, ∀ row ∈ db.users.rows, row.id ≠ id → row.email ≠ email)
    (h : step mayFail (.updateUser id columns) db (.error failure) db') : mayFail := by
  obtain ⟨hfail, _⟩ | ⟨engine, now, herror⟩ := step_error_of_readable h (exists_read_of_mem hread)
  · exact hfail
  · obtain ⟨users, husers⟩ := db.users.exists_modify_of_fresh hread (columns.change now) (fun _ => rfl) (by
      intro row hrow hid other hother hotherId value hvalue hnew
      have hemail : columns.email.getD row.email = other.email := Option.some.inj (hnew.trans hvalue.symm)
      cases hcolumn : columns.email with
      | none =>
        rw [hcolumn, Option.getD_none] at hemail
        have hsame := db.users.eq_of_unique_eq hrow hother (congrArg some hemail) rfl
        exact hotherId (hsame ▸ hid)
      | some email =>
        rw [hcolumn, Option.getD_some] at hemail
        exact hfree email hcolumn other hother hotherId hemail.symm)
    change db.changeUsers (db.users.modify id (columns.change now) fun _ => rfl) _ = _ at herror
    rw [husers] at herror
    unfold Database.changeUsers at herror
    rw [Option.map_some, change_of_refers (refers_of_modify (f := columns.change now) (fun _ => rfl)
      (Table.modify_eq_some husers).1)] at herror
    cases (Prod.mk.inj herror).1

theorem update_permitted (clock : Clock) {cryptography : Cryptography} {data : UserInput} {id : String}
    (hlive : LiveUser db id) (hpassword : PasswordProtected cryptography data) (hfree : EmailFree db id data) :
    (user_service.update clock cryptography (some id) data).Ensures (step mayFail) db (fun _ _ => True)
      fun _ _ => mayFail := by
  obtain ⟨password, hpassword⟩ := hpassword
  have hid : id ≠ "" := ne_empty_of_liveUser hlive
  unfold user_service.update
  obtain ⟨entity, hentity, _⟩ := construct_eq_ok (clock 0) data.userValues rfl
  have hprotected : protectGiven cryptography entity.password = .ok password := by
    cases hentity
    exact hpassword
  have hcolumns : (user_service.updatedColumns entity password).email = data.email := by
    cases hentity
    rfl
  rw [built_ok hentity]
  apply Program.Ensures.rethrow
  change (Program.ofExcept (protectGiven cryptography entity.password) >>= _).Ensures _ _ _ _
  rw [hprotected, Program.ofExcept_ok, Program.done_bind]
  refine Program.Ensures.bind (((abstract_update_ensures (W := fun db' => LiveUser db' id) (R := fun _ => mayFail) hid
    (Program.ensures_perform (fun _ _ hstep => liveUser_of_keeps (.user rfl) hstep hlive) fun _ _ hstep =>
      mayFail_of_updateUser (read_of_liveUser hlive) (hcolumns ▸ hfree) hstep)
    fun _ h => findUser_live_ensures (clock 1) h).mono (fun _ _ h => h) ?_)) ?_
  · rintro _ _ (hfail | ⟨hfail, _⟩)
    · exact hfail
    · exact hfail
  · rintro found db'' ⟨_, hsome⟩
    obtain ⟨updated, rfl⟩ := Option.isSome_iff_exists.mp hsome
    trivial

/-- An update by the user itself, with a password that can be protected and an e-mail
that nobody else has or had, returns unless requests fail. -/
theorem updateUser_permitted (clock : Clock) {cryptography : Cryptography} {text id : String} {data : UserInput}
    {agentUser : Option UserAuthInterface} (hread : ids.read text = some id) (hmanage : MayManage db agentUser id)
    (hpreference : LivePreference db id) (hpassword : PasswordProtected cryptography data)
    (hfree : EmailFree db id data) (htheme : ThemeAllowed data) :
    (updateUser clock cryptography text data agentUser).Ensures (step mayFail) db (fun _ _ => True)
      fun _ _ => mayFail := by
  obtain ⟨agent, rfl⟩ : ∃ agent, agentUser = some agent := by
    obtain ⟨_, _, _, _, hagent⟩ := hmanage
    exact ⟨_, hagent⟩
  unfold updateUser
  rw [hmanage.clientId]
  apply managed_cases
  · rintro _ (hfail | hnone)
    · exact hfail
    · exact absurd ⟨hmanage, hpreference⟩ (hnone id hread)
  intro userId user preference preferenceId hreadAs _ hmanaged
  obtain rfl : id = userId := Option.some.inj (hread.symm.trans hreadAs)
  have hwrites : (writeUser clock cryptography user data).Ensures (step mayFail) db
      (fun _ db' => db'.outline = db.outline) fun _ _ => mayFail := by
    have hmayFail : (writeUser clock cryptography user data).Ensures (step mayFail) db (fun _ _ => True)
        fun _ _ => mayFail := by
      unfold writeUser
      split
      · rw [hmanaged.user_id]
        exact (update_permitted _ hmanaged.live hpassword hfree).bind fun _ _ _ => trivial
      · trivial
    exact ((writeUser_ensures clock cryptography data hmanaged.user_id hmanaged.live).and hmayFail).mono
      (fun _ _ h => outline_eq_of_keeps h.1.2 userWrites_keeps) fun _ _ h => h.2
  apply hwrites.bind
  intro _ db₁ houtline
  have hrow : LiveRow db₁ preferenceId := by
    unfold LiveRow
    rw [houtline]
    exact ⟨some id, hmanaged.own⟩
  refine Program.Ensures.bind
    ((writePreference_ensures clock data.preference hmanaged.preference_id hrow).mono (fun _ _ h => h) ?_) ?_
  · rintro _ _ ⟨hfail | hnone, _⟩
    · exact hfail
    · exact absurd htheme hnone
  rintro _ db₂ ⟨_, hsecond⟩
  have hboth : LivePreference db₂ id := by
    unfold LivePreference LiveUser
    rw [outline_eq_of_keeps hsecond preferenceWrites_keeps, houtline]
    exact hpreference
  rw [hmanaged.user_id]
  exact (reread_own_ensures _ hboth).mono (fun _ _ _ => trivial) fun _ _ h => h.2

/-- An update returns only to the user itself. -/
theorem updateUser_allowed (clock : Clock) (cryptography : Cryptography) (id : String) (data : UserInput)
    (agentUser : Option UserAuthInterface) (db : Database ids) :
    (updateUser clock cryptography id data agentUser).Ensures (step mayFail) db
      (fun _ _ => ∃ userId, ids.read id = some userId ∧ MayManage db agentUser userId) fun _ _ => True := by
  unfold updateUser
  cases agentUser with
  | none => trivial
  | some agent =>
    cases clientId? (some agent) with
    | none => trivial
    | some clientId =>
      apply managed_cases (fun _ _ => trivial)
      intro userId user preference preferenceId hread hmanage _
      exact Program.Ensures.of_forall (fun _ _ => ⟨userId, hread, hmanage⟩) fun _ _ => trivial

/-- A deletion by the user itself returns unless requests fail. -/
theorem deleteUser_permitted (clock : Clock) {text id : String} {agentUser : Option UserAuthInterface}
    (hread : ids.read text = some id) (hmanage : MayManage db agentUser id) (hpreference : LivePreference db id) :
    (deleteUser clock text agentUser).Ensures (step mayFail) db (fun _ _ => True) fun _ _ => mayFail := by
  obtain ⟨agent, rfl⟩ : ∃ agent, agentUser = some agent := by
    obtain ⟨_, _, _, _, hagent⟩ := hmanage
    exact ⟨_, hagent⟩
  have hclientId := hmanage.clientId
  unfold deleteUser
  rw [hclientId]
  apply managed_cases
  · rintro _ (hfail | hnone)
    · exact hfail
    · exact absurd ⟨hmanage, hpreference⟩ (hnone id hread)
  intro userId user preference preferenceId hreadAs _ hmanaged
  obtain rfl : id = userId := Option.some.inj (hread.symm.trans hreadAs)
  obtain ⟨_, hagent, hagentId⟩ := clientId_eq_some hclientId
  cases hagent
  have hown := read_of_preference hmanaged.own
  rw [hmanaged.preference_id, hmanaged.user_id, hagentId]
  refine Program.Ensures.bind
    ((preference_delete_ensures hown db).mono (fun _ _ h => h) fun _ _ h => h.2) ?_
  intro _ db₁ hfirst
  have hstill : LiveUser db₁ id := by
    unfold LiveUser
    rw [softDeletePreference_outline hown hfirst]
    exact hmanaged.live
  refine Program.Ensures.bind ((delete_ensures hstill id).mono (fun _ _ h => h) fun _ _ h => h.1) ?_
  rintro _ _ ⟨rfl, _⟩
  trivial

theorem deleteUser_allowed (clock : Clock) (id : String) (agentUser : Option UserAuthInterface) (db : Database ids) :
    (deleteUser clock id agentUser).Ensures (step mayFail) db
      (fun _ _ => ∃ userId, ids.read id = some userId ∧ MayManage db agentUser userId) fun _ _ => True := by
  unfold deleteUser
  cases agentUser with
  | none => trivial
  | some agent =>
    cases clientId? (some agent) with
    | none => trivial
    | some clientId =>
      apply managed_cases (fun _ _ => trivial)
      intro userId user preference preferenceId hread hmanage _
      exact Program.Ensures.of_forall (fun _ _ => ⟨userId, hread, hmanage⟩) fun _ _ => trivial

end node_backend.user_requests
