import NodeBackend.User.Accounts

namespace node_backend.accounts

open js store program
open node_backend.exceptions node_backend.user_database node_backend.user_models node_backend.user_query
open node_backend.user_entity node_backend.user_preference_entity node_backend.user_repository
open node_backend.user_schemas node_backend.user_service node_backend.user_specs node_backend.user_strategy
open node_backend.user_usecases node_backend.user_requests

variable {ids : UuidSource} {mayFail : Prop} {db db' : Database ids}

/-- Every user that was inserted is still there. -/
def Numbered (db : Database ids) : Prop :=
  db.users.inserted = db.users.rows.length

/-- A call that removes no row of Users. -/
def RemovesNoUser : Call → Prop
  | .deleteUser _ => False
  | _ => True

theorem numbered_of_step {call : Call} {reply : call.Reply} (hcall : RemovesNoUser call) (h : Numbered db)
    (hstep : step mayFail call db (.ok reply) db') : Numbered db' := by
  obtain ⟨_, engine, now, hexec⟩ := step_ok hstep
  have hmodified : ∀ {text : String} {f : UsersModel → UsersModel} {hid : ∀ row, (f row).id = row.id},
      db.users.modify text f hid = some db'.users → Numbered db' := by
    intro text f hid hmodify
    obtain ⟨hrows, hinserted⟩ := Table.modify_eq_some hmodify
    unfold Numbered
    rw [hrows, hinserted, Table.changeNamed, List.length_map]
    exact h
  have hkept : db'.users = db.users → Numbered db' := by
    intro hsame
    unfold Numbered
    rw [hsame]
    exact h
  cases call with
  | findUser options => exact hkept (congrArg Database.users (Prod.mk.inj hexec).2.symm)
  | findUsers options => exact hkept (congrArg Database.users (Prod.mk.inj hexec).2.symm)
  | findPreference condition => exact hkept (congrArg Database.users (Prod.mk.inj hexec).2.symm)
  | insertUser columns =>
    obtain ⟨hrows, hinserted⟩ := Table.insert_eq_some (changeUsers_ok hexec).1
    unfold Numbered
    rw [hrows, hinserted, h]
    simp
  | updateUser id columns => exact hmodified (changeUsers_ok hexec).1
  | softDeleteUser id => exact hmodified (changeUsers_ok hexec).1
  | deleteUser id => exact hcall.elim
  | insertPreference columns => exact hkept (changePreferences_ok hexec).2.1
  | updatePreference id columns => exact hkept (changePreferences_ok hexec).2.1
  | softDeletePreference id => exact hkept (changePreferences_ok hexec).2.1
  | deletePreference id => exact hkept (changePreferences_ok hexec).2.1

theorem numbered_of_wrote {calls : List Call} (h : Wrote calls db db') (hcalls : ∀ call ∈ calls, RemovesNoUser call)
    (hnumbered : Numbered db) : Numbered db' := by
  induction h with
  | nil => exact hnumbered
  | cons reply hstep _ ih =>
    obtain ⟨hfirst, hrest⟩ := List.forall_mem_cons.mp hcalls
    exact ih hrest (numbered_of_step hfirst hnumbered hstep)

theorem Keeps.removesNoUser {call : Call} (h : Keeps call) : RemovesNoUser call := by
  cases h with
  | user => trivial
  | preference => trivial

theorem Numbered.nextId (h : Numbered db) : db.users.nextId = ids.hex (register db).length := by
  unfold Table.nextId register
  rw [h, List.length_map]

/-- A preference that was built has the image and the theme it was built from. -/
theorem construct_preference_eq {now : Time} {values : PreferenceValues} {entity : UserPreferenceEntity}
    (h : user_preference_entity.construct now values = .ok entity) :
    entity.imagePath = values.imagePath ∧ entity.defaultTheme.map ThemesEnum.text = values.defaultTheme ∧
      entity.deletedAt = values.deletedAt := by
  have htheme := isTheme_of_construct h
  unfold user_preference_entity.construct at h
  cases hvalue : values.defaultTheme with
  | none =>
    rw [hvalue] at h
    cases h
    exact ⟨rfl, rfl, rfl⟩
  | some text =>
    obtain ⟨theme, rfl⟩ := htheme text hvalue
    rw [hvalue, Option.mapM_some, setDefaultTheme_text] at h
    cases h
    exact ⟨rfl, rfl, rfl⟩

/-- The columns of a new user. -/
theorem newUserWrite_columns {clock : Clock} {cryptography : Cryptography} {data : UserInput} {call : Call}
    (h : newUserWrite clock cryptography data = some call) :
    ∃ plainText ∈ data.password, ∃ password, protectPassword cryptography plainText = .ok password ∧
      call = .insertUser
        { fullName := data.fullName, email := data.email, password := some password, phone := data.phone
          docType := data.docType, document := data.document, fu := data.fu, createdAt := some (clock 0) } := by
  change (do let userPassword ← given data.password; _) = _ at h
  obtain ⟨plainText, hplain, h⟩ := Option.bind_eq_some_iff.mp h
  obtain ⟨password, hpassword, hcall⟩ := Option.bind_eq_some_iff.mp h
  cases hcall
  exact ⟨plainText, (Option.filter_eq_some_iff.mp hplain).1, password, eq_ok_of_toOption hpassword, rfl⟩

/-- The columns of the preference that goes with it. -/
theorem newPreferenceWrite_columns {clock : Clock} {data : UserInput} {userId : String} {call : Call}
    (hid : userId ≠ "") (h : newPreferenceWrite clock data userId = some call) :
    ∃ columns : PreferenceColumns, call = .insertPreference columns ∧ columns.user = some userId ∧
      columns.deletedAt = none ∧ columns.imagePath = data.preference.bind PreferenceInput.imagePath ∧
      columns.defaultTheme.map ThemesEnum.text = data.preference.bind PreferenceInput.defaultTheme := by
  obtain ⟨entity, hentity, hcall⟩ := Option.bind_eq_some_iff.mp h
  obtain ⟨himagePath, htheme, hdeletedAt⟩ := construct_preference_eq (eq_ok_of_toOption hentity)
  have hvalues : (newPreferenceValues data).imagePath = data.preference.bind PreferenceInput.imagePath ∧
      (newPreferenceValues data).defaultTheme = data.preference.bind PreferenceInput.defaultTheme ∧
      (newPreferenceValues data).deletedAt = none := by
    unfold newPreferenceValues
    cases data.preference with
    | none => exact ⟨rfl, rfl, rfl⟩
    | some preference => exact ⟨rfl, rfl, rfl⟩
  rw [entity.setUserId_of_ne hid] at hcall
  cases hcall
  exact ⟨_, rfl, rfl, hdeletedAt.trans hvalues.2.2, himagePath.trans hvalues.1, htheme.trans hvalues.2.1⟩

/-- A creation opens an account, with an e-mail that no account takes. -/
theorem createWrites_register {clock : Clock} {cryptography : Cryptography} {data : UserInput} {email : String}
    (hemail : data.email = some email) (hfirst : (newUserWrite clock cryptography data).isSome = true)
    (hsecond : (newPreferenceWrite clock data db.users.nextId).isSome = true)
    (h : Wrote (createWrites clock cryptography data db.users.nextId) db db') :
    register db' = register db ++ [(db.users.nextId, .opened (.new data))] ∧
      (∀ row ∈ db.users.rows, row.email ≠ email) ∧ PasswordUsable cryptography (.create data) ∧
      (Numbered db → Numbered db') := by
  obtain ⟨first, hfirst⟩ := Option.isSome_iff_exists.mp hfirst
  obtain ⟨second, hsecond⟩ := Option.isSome_iff_exists.mp hsecond
  unfold createWrites at h
  rw [hfirst, hsecond] at h
  obtain ⟨plainText, hplain, password, hprotected, rfl⟩ := newUserWrite_columns hfirst
  have hnext : db.users.nextId ≠ "" := ids.nonempty _
  obtain ⟨columns, rfl, huser, hdeletedAt, himagePath, htheme⟩ := newPreferenceWrite_columns hnext hsecond
  have hnumbered : Numbered db → Numbered db' := by
    refine numbered_of_wrote h fun call hcall => ?_
    obtain rfl | rfl : call = _ ∨ call = _ := by simpa using hcall
    · trivial
    · trivial
  cases h with
  | cons reply hstep hrest =>
    cases hrest with
    | cons reply' hstep' hrest' =>
      cases hrest'
      obtain ⟨now, hrows, hpreferences, _⟩ := insertUser_effect hstep
      obtain ⟨now', hrows', husers, _⟩ := insertPreference_effect hstep'
      rw [hpreferences, PreferenceColumns.stored_of_own huser (ids.own _)] at hrows'
      rw [← husers] at hrows
      refine ⟨?_, fun row hrow hsame => ?_, ⟨plainText, hplain, password, hprotected⟩, hnumbered⟩
      · have hold : ∀ row ∈ db.users.rows, accountOf db'.preferences row = accountOf db.preferences row := by
          intro row hrow
          have hne : db.users.nextId ≠ row.id := (db.users.id_ne_nextId hrow).symm
          have hjoined : joined db'.preferences row.id = joined db.preferences row.id := by
            unfold joined
            rw [hrows', List.find?_append, List.find?_singleton, if_neg, Option.or_none]
            simpa [PreferenceColumns.row, huser] using fun _ => hne
          unfold accountOf
          rw [hjoined]
        have hjoined : joined db'.preferences db.users.nextId = some (columns.row now' _) :=
          joined_eq_some_iff.mpr ⟨hrows' ▸ List.mem_append_right _ List.mem_cons_self,
            by simp [UserPreferencesModel.live, PreferenceColumns.row, hdeletedAt], huser⟩
        unfold register
        rw [hrows, List.map_append, List.map_singleton, List.map_congr_left fun row hrow =>
          congrArg (Prod.mk row.id) (hold row hrow)]
        refine congrArg (_ ++ [·]) (Prod.ext rfl ?_)
        change Account.opened (profileOf _ (joined db'.preferences db.users.nextId)) = _
        rw [hjoined]
        simp [profileOf, Profile.new, UserColumns.row, PreferenceColumns.row, himagePath, htheme]
      · have hmem : row ∈ db'.users.rows := hrows ▸ List.mem_append_left _ hrow
        have hsameRow := db'.users.eq_of_unique_eq hmem (hrows ▸ List.mem_append_right _ List.mem_cons_self)
          (congrArg some hsame) (congrArg some (by simp [UserColumns.row, hemail]))
        exact db.users.id_ne_nextId hrow (congrArg UsersModel.id hsameRow)

theorem accountOf_joined {preferences : Table ids UserPreferencesModel} {row : UsersModel}
    {preference : UserPreferencesModel} (hlive : row.live = true) (hmem : preference ∈ preferences.rows)
    (hpreference : preference.live = true) (huserId : preference.userId = some row.id) :
    accountOf preferences row = .opened (profileOf row (some preference)) := by
  unfold accountOf
  rw [if_pos hlive, joined_eq_some_iff.mpr ⟨hmem, hpreference, huserId⟩]

/-- An update that returns edits the account, and gives it no e-mail that another one
takes. -/
theorem updated_register {clock : Clock} {cryptography : Cryptography} {data : UserInput} {text : String}
    {row : UsersModel} (hpassword : ∀ text ∈ data.password, text ≠ "") (hread : ids.read text = some row.id)
    (hrow : row ∈ db.users.rows) (hlive : row.live = true) (h : Updated clock cryptography row.id data db db') :
    register db' = (register db).apply ids (.update text data) ∧
      EmailFree db row.id data ∧ PasswordUsable cryptography (.update text data) ∧
      (Numbered db → Numbered db') := by
  have hnumbered : Numbered db → Numbered db' := by
    obtain ⟨writes, ⟨_, _, _, _, _, _, rfl⟩, hwrote⟩ := h.writes
    refine numbered_of_wrote hwrote fun call hcall => Keeps.removesNoUser ?_
    obtain huser | hpreference := List.mem_append.mp hcall
    · exact userWrites_keeps call huser
    · exact preferenceWrites_keeps call hpreference
  obtain ⟨preference, hmem, hpreferenceLive, huserId, password, theme, time, time', hprotected, htheme, husers,
    hpreferences⟩ := updated_rows hpassword hrow h
  have hrow' : updatedUser data password time row ∈ db'.users.rows :=
    husers ▸ List.mem_map.mpr ⟨row, hrow, if_pos rfl⟩
  have hmem' : updatedPreference data.preference theme time' preference ∈ db'.preferences.rows :=
    hpreferences ▸ List.mem_map.mpr ⟨preference, hmem, if_pos rfl⟩
  refine ⟨?_, ?_, ⟨password, (protectGiven_eq hpassword).trans hprotected⟩, hnumbered⟩
  · refine register_of_map (f := updatedUser data password time) hread hrow rfl husers ?_ fun other hother =>
      joined_of_other (f := updatedPreference data.preference theme time') hmem huserId (fun _ => rfl) hother
        hpreferences
    have hlive' : (updatedUser data password time row).live = true := hlive
    rw [accountOf_joined hlive hmem hpreferenceLive huserId, accountOf_joined hlive' hmem' hpreferenceLive huserId]
    refine congrArg Account.opened ?_
    have htext : (theme.or preference.defaultTheme).map ThemesEnum.text =
        (data.preference.bind PreferenceInput.defaultTheme).or (preference.defaultTheme.map ThemesEnum.text) := by
      rw [← htheme]
      cases theme <;> simp
    simp [profileOf, Profile.edit, updatedUser, updatedPreference, htext]
  · intro email hemail other hother hne hsame
    have hkept : other ∈ db'.users.rows := husers ▸ List.mem_map.mpr ⟨other, hother, if_neg hne⟩
    have hupdated : (updatedUser data password time row).email = email := by
      unfold updatedUser
      rw [Option.mem_def.mp hemail, Option.getD_some]
    have hsameRow := db'.users.eq_of_unique_eq hkept hrow' (congrArg some hsame) (congrArg some hupdated)
    have hid : other.id = (updatedUser data password time row).id := congrArg UsersModel.id hsameRow
    exact hne hid

/-- A deletion that returns closes the account. -/
theorem deleteWrites_register {clock : Clock} {clientId text : String} {writes : List Call} {row : UsersModel}
    (hread : ids.read text = some row.id) (hrow : row ∈ db.users.rows)
    (hwrites : DeleteWrites clock row.id clientId db writes) (h : Wrote writes db db') :
    register db' = (register db).apply ids (.delete text) ∧ (Numbered db → Numbered db') := by
  obtain ⟨entity, preferenceId, hpreference, hid, rfl⟩ := hwrites
  obtain ⟨preference, hmem, _, huserId, rfl⟩ := preferenceRead_shown hpreference
  cases hid
  have hnumbered : Numbered db → Numbered db' := by
    refine numbered_of_wrote h fun call hcall => ?_
    obtain rfl | rfl | rfl : call = _ ∨ call = _ ∨ call = _ := by simpa [userDeletion] using hcall
    · trivial
    · trivial
    · trivial
  refine ⟨?_, hnumbered⟩
  cases h with
  | cons reply hstep hrest =>
    cases hrest with
    | cons reply' hstep' hrest' =>
      cases hrest' with
      | cons reply'' hstep'' hrest'' =>
        cases hrest''
        obtain ⟨preferenceId, now, hreadPreference, hpreferences, husers⟩ := softDeletePreference_effect hstep
        obtain ⟨userId, now', hreadUser, hrows, hpreferences'⟩ := updateUser_effect hstep'
        obtain ⟨other, now'', hreadOther, hrows', hpreferences'', _⟩ := softDeleteUser_effect hstep''
        cases (db.preferences.read_id hmem).symm.trans hreadPreference
        obtain rfl : userId = row.id := Option.some.inj (hreadUser.symm.trans (db.users.read_id hrow))
        obtain rfl : other = row.id := Option.some.inj (hreadOther.symm.trans hreadUser)
        rw [← hpreferences', ← hpreferences''] at hpreferences
        have hboth : db'.users.rows = db.users.rows.map fun other => if other.id = row.id then
            (UserColumns.change { deletedBy := some (some clientId) } now' other).softDelete now'' else other := by
          rw [hrows', hrows, husers, List.map_map]
          refine List.map_congr_left fun other _ => ?_
          simp only [Function.comp_apply]
          by_cases hsame : other.id = row.id
          · rw [if_pos hsame, if_pos hsame]
            exact if_pos hsame
          · rw [if_neg hsame, if_neg hsame, if_neg hsame]
        refine register_of_map (g := Account.close) hread hrow rfl hboth ?_ fun other hother =>
          joined_of_other (f := UserPreferencesModel.softDelete now) hmem huserId (fun _ => rfl) hother hpreferences
        rw [Account.close, accountOf_email]
        rfl

/-- What the schemas promise of the inputs, with the e-mail that a creation needs. -/
def Registrable : Action → Prop
  | .create data => Accepted data ∧ data.email.isSome = true
  | .update _ data => Accepted data
  | .delete _ => True

/-- A request is served as the register serves it, and answered accordingly. -/
structure Serves (db : Database ids) (turn : Turn) : Prop where
  register_eq : register (serve db turn) = (register db).serve ids turn.request
  numbered : Numbered (serve db turn)
  succeeds_iff : (run turn.world turn.request.execute db).1 = .ok () ↔ Succeeds ids (register db) turn.request

theorem serves_of_ensures {A : Type} {turn : Turn} {p : Promise A} {returned : A → Database ids → Prop}
    (hrun : run turn.world turn.request.execute db =
      ((run turn.world p db).1.map fun _ => (), (run turn.world p db).2))
    (hpromise : p.Ensures (step False) db returned fun _ db' => db' = db)
    (hreturned : ∀ a db', returned a db' → Succeeds ids (register db) turn.request ∧
      register db' = (register db).apply ids turn.request.action ∧ Numbered db')
    (hpermitted : Succeeds ids (register db) turn.request →
      p.Ensures (step False) db (fun _ _ => True) fun _ _ => False)
    (hnumbered : Numbered db) : Serves db turn := by
  obtain ⟨a, hok, hdone⟩ | ⟨failure, herror, hsame⟩ := run_sound turn.sound hpromise
  · obtain ⟨hsucceeds, hregister, hstill⟩ := hreturned a _ hdone
    have hserve : serve db turn = (run turn.world p db).2 := congrArg Prod.snd hrun
    refine ⟨?_, by rwa [hserve], iff_of_true ?_ hsucceeds⟩
    · rw [hserve, hregister, Register.serve, if_pos hsucceeds]
    · rw [hrun, hok]
      rfl
  · have hrefused : ¬ Succeeds ids (register db) turn.request := by
      intro hsucceeds
      obtain ⟨a, hok, _⟩ | ⟨_, _, hfalse⟩ := run_sound turn.sound (hpermitted hsucceeds)
      · cases herror.symm.trans hok
      · exact hfalse
    have hserve : serve db turn = db := (congrArg Prod.snd hrun).trans hsame
    refine ⟨?_, by rwa [hserve], iff_of_false ?_ hrefused⟩
    · rw [hserve, Register.serve, if_neg hrefused]
    · rw [hrun, herror]
      rintro ⟨⟩

theorem createUser_allowed (clock : Clock) (cryptography : Cryptography) (data : UserInput)
    (agentUser : Option UserAuthInterface) (db : Database ids) :
    (createUser clock cryptography data agentUser).Ensures (step mayFail) db (fun _ _ => clientId? agentUser ≠ none)
      fun _ _ => True := by
  unfold createUser
  cases hagent : clientId? agentUser with
  | none => trivial
  | some clientId => exact Program.Ensures.of_forall (fun _ _ => by simp) fun _ _ => trivial

/-- One request: the tables stand for the register that it leaves. -/
theorem serve_serves {turn : Turn} (hturn : Registrable turn.request.action) (hpaired : db.outline.Paired)
    (hnumbered : Numbered db) : Serves db turn := by
  obtain ⟨⟨clock, cryptography, agentUser, action⟩, world, hallowed, hsound⟩ := turn
  have hpreference : ∀ {id : String}, MayManage db agentUser id → LivePreference db id := by
    rintro id ⟨row, hrow, hlive, hid, _⟩
    exact (livePreference_iff hpaired).mpr ⟨row, hrow, hlive, hid⟩
  cases action with
  | create data =>
    obtain ⟨haccepted, hsome⟩ := hturn
    obtain ⟨email, hemail⟩ := Option.isSome_iff_exists.mp hsome
    have hfree : ∀ register : Register, (∀ text ∈ data.email, ∀ entry ∈ register, entry.2.email ≠ text) ↔
        ∀ entry ∈ register, True → entry.2.email ≠ email := by
      simp [hemail]
    refine serves_of_ensures (p := createUser clock cryptography data agentUser)
      (Program.runFrom_bind_done ..) (((createUser_ensures clock cryptography data agentUser db).and
        (createUser_allowed clock cryptography data agentUser db)).mono (fun _ _ h => h)
        fun _ _ h => eq_of_thrown hallowed h.1) ?_ ?_ hnumbered
    · rintro user db' ⟨⟨_, hfirst, hsecond, hwrote⟩, hagent⟩
      obtain ⟨hregister, hfresh, husable, hstill⟩ := createWrites_register hemail hfirst hsecond hwrote
      refine ⟨⟨⟨hagent, (hfree _).mpr ((emails_iff fun _ => True).mpr fun row hrow _ => hfresh row hrow)⟩, husable⟩, ?_,
        hstill hnumbered⟩
      rw [hregister, hnumbered.nextId]
      rfl
    · rintro ⟨⟨hagent, hgranted⟩, plainText, hplain, password, hprotected⟩
      have hfresh := (emails_iff fun _ => True).mp ((hfree _).mp hgranted)
      refine createUser_fresh clock hagent hemail ⟨plainText, ?_, hprotected⟩ haccepted.theme fun row hrow =>
        hfresh row hrow trivial
      rw [Option.mem_def.mp hplain]
      exact given_of_ne (ne_empty_of_passwordPattern (haccepted.password plainText hplain))
  | update text data =>
    have hpassword : ∀ password ∈ data.password, password ≠ "" := fun password hgiven =>
      ne_empty_of_passwordPattern (hturn.password password hgiven)
    refine serves_of_ensures (p := updateUser clock cryptography text data agentUser)
      (Program.runFrom_bind_done ..) (((updateUser_ensures clock cryptography text data agentUser db).and
        (updateUser_allowed clock cryptography text data agentUser db)).mono (fun _ _ h => h)
        fun _ _ h => eq_of_thrown hallowed h.1) ?_ ?_ hnumbered
    · rintro user db' ⟨⟨userId, hread, hupdated, _⟩, other, hsame, hmanage⟩
      obtain rfl : userId = other := Option.some.inj (hread.symm.trans hsame)
      obtain ⟨row, hrow, hlive, rfl, _⟩ := id hmanage
      obtain ⟨hregister, hfree, husable, hstill⟩ := updated_register hpassword hread hrow hlive hupdated
      refine ⟨⟨⟨row.id, hread, holds_iff.mpr hmanage, fun email hemail => ?_⟩, husable⟩, hregister, hstill hnumbered⟩
      exact (emails_iff fun other => other ≠ row.id).mpr (hfree email hemail)
    · rintro ⟨⟨userId, hread, hholds, hgranted⟩, husable⟩
      have hmanage := holds_iff.mp hholds
      exact updateUser_permitted clock hread hmanage (hpreference hmanage) husable
        (fun email hemail => (emails_iff fun other => other ≠ userId).mp (hgranted email hemail)) hturn.theme
  | delete text =>
    refine serves_of_ensures (p := deleteUser clock text agentUser) ?_
      (((deleteUser_ensures clock text agentUser db).and (deleteUser_allowed clock text agentUser db)).mono
        (fun _ _ h => h) ?_) ?_ ?_ hnumbered
    · change run world (deleteUser clock text agentUser) db = _
      cases hrun : run world (deleteUser clock text agentUser) db with
      | mk outcome after => cases outcome <;> rfl
    · rintro _ db' ⟨hsame | ⟨hfail, _⟩, _⟩
      · exact hsame
      · exact hfail.elim
    · rintro _ db' ⟨⟨clientId, userId, writes, _, hread, hwrites, hwrote⟩, other, hsame, hmanage⟩
      obtain rfl : userId = other := Option.some.inj (hread.symm.trans hsame)
      obtain ⟨row, hrow, _, rfl, _⟩ := id hmanage
      obtain ⟨hregister, hstill⟩ := deleteWrites_register hread hrow hwrites hwrote
      exact ⟨⟨⟨row.id, hread, holds_iff.mpr hmanage⟩, trivial⟩, hregister, hstill hnumbered⟩
    · rintro ⟨⟨userId, hread, hholds⟩, _⟩
      have hmanage := holds_iff.mp hholds
      exact deleteUser_permitted clock hread hmanage (hpreference hmanage)

/-- The register after requests that are served one after another, from an empty one. -/
noncomputable def registerAfter (ids : UuidSource) (turns : List Turn) : Register :=
  turns.foldl (fun register turn => register.serve ids turn.request) []

theorem register_serveAll {turns : List Turn} (hturns : ∀ turn ∈ turns, Registrable turn.request.action) :
    register (serveAll turns : Database ids) = registerAfter ids turns ∧ Numbered (serveAll turns : Database ids) := by
  induction turns using List.reverseRecOn with
  | nil => exact ⟨rfl, rfl⟩
  | append_singleton turns turn ih =>
    obtain ⟨hregister, hnumbered⟩ := ih fun other hother => hturns other (List.mem_append_left _ hother)
    have hserves := serve_serves (hturns turn (List.mem_append_right _ List.mem_cons_self))
      (serveAll_paired turns) hnumbered
    have hlast : (serveAll (turns ++ [turn]) : Database ids) = serve (serveAll turns) turn := List.foldl_concat ..
    have hlast' : registerAfter ids (turns ++ [turn]) = (registerAfter ids turns).serve ids turn.request :=
      List.foldl_concat ..
    rw [hlast, hlast', ← hregister]
    exact ⟨hserves.register_eq, hserves.numbered⟩

/-- A user that is got shows the account. -/
theorem getUser_shown (clock : Clock) (text : String) {agentUser : Option UserAuthInterface} {clientId : String}
    (hclientId : clientId? agentUser = some clientId) (db : Database ids) :
    (getUser clock text agentUser).Ensures (step mayFail) db
      (fun entity db' => db' = db ∧
        ∃ id, ids.read text = some id ∧ (id, Account.opened (shownProfile entity)) ∈ register db)
      fun _ db' => db' = db ∧ (mayFail ∨ LacksPreference db text) := by
  unfold getUser
  rw [hclientId]
  apply Program.Ensures.bind (reread_ensures clock text db)
  rintro user db ⟨rfl, id, hread, hreread⟩
  obtain ⟨huser, _, hown⟩ := hreread.live.2
  obtain ⟨row, hrow, hlive, rfl⟩ := mem_outline_users.mp huser
  obtain ⟨preference, hmem, hpreference, huserId, _⟩ := mem_outline_preferences.mp hown
  have hshows := shows_of_reread hrow hmem huserId hreread
  obtain ⟨shown, hshown, _, himagePath, htheme⟩ := hshows.preference
  refine ⟨rfl, row.id, hread, mem_register_opened.mpr ⟨row, hrow, hlive, rfl, ?_⟩⟩
  rw [joined_eq_some_iff.mpr ⟨hmem, hpreference, huserId⟩]
  change _ = shownProfile user
  simp [profileOf, shownProfile, hshows.fullName, hshows.email, hshows.phone, hshows.docType, hshows.document,
    hshows.fu, hshown, himagePath, htheme]

theorem getUser_iff (hpaired : db.outline.Paired) {world : World} (hsound : world.Sound) (clock : Clock) (text : String)
    {agentUser : Option UserAuthInterface} (hagent : clientId? agentUser ≠ none) (profile : Profile) :
    (∃ entity, (run world (getUser clock text agentUser) db).1 = .ok entity ∧ shownProfile entity = profile) ↔
      ∃ id, ids.read text = some id ∧ (id, Account.opened profile) ∈ register db := by
  obtain ⟨clientId, hclientId⟩ := Option.ne_none_iff_exists'.mp hagent
  obtain ⟨entity, hok, _, id, hread, hmem⟩ | ⟨_, herror, _, hfail | hlacks⟩ :=
    run_sound hsound (getUser_shown clock text hclientId db)
  · constructor
    · rintro ⟨other, hother, rfl⟩
      cases hok.symm.trans hother
      exact ⟨id, hread, hmem⟩
    · rintro ⟨other, hsame, hprofile⟩
      cases hread.symm.trans hsame
      obtain ⟨row, hrow, _, rfl, hfirst⟩ := mem_register_opened.mp hmem
      obtain ⟨other, hother, _, hid, hsecond⟩ := mem_register_opened.mp hprofile
      cases db.users.eq_of_id_eq hother hrow hid
      exact ⟨entity, hok, hfirst.symm.trans hsecond⟩
  · exact hfail.elim
  · refine iff_of_false ?_ ?_
    · rintro ⟨entity, hok, _⟩
      cases hok.symm.trans herror
    · rintro ⟨id, hread, hprofile⟩
      obtain ⟨row, hrow, hlive, hid, _⟩ := mem_register_opened.mp hprofile
      exact hlacks id hread ((livePreference_iff hpaired).mpr ⟨row, hrow, hlive, hid⟩)

/-- The users' module keeps a register of accounts: after requests that are served one
after another, the next one succeeds exactly where the register grants it, and every
user that is got shows the account on record, which is what was last written. -/
theorem serveAll_refines {turns : List Turn} (hturns : ∀ turn ∈ turns, Registrable turn.request.action) :
    (∀ turn : Turn, Registrable turn.request.action →
      ((run turn.world turn.request.execute (serveAll turns : Database ids)).1 = .ok () ↔
        Succeeds ids (registerAfter ids turns) turn.request)) ∧
    ∀ (world : World) (clock : Clock) (text : String) (agentUser : Option UserAuthInterface) (profile : Profile),
      world.Sound → clientId? agentUser ≠ none →
      ((∃ entity, (run world (getUser clock text agentUser) (serveAll turns : Database ids)).1 = .ok entity ∧
        shownProfile entity = profile) ↔
          ∃ id, ids.read text = some id ∧ (id, Account.opened profile) ∈ registerAfter ids turns) := by
  have hpaired : (serveAll turns : Database ids).outline.Paired := serveAll_paired turns
  obtain ⟨hregister, hnumbered⟩ : register (serveAll turns : Database ids) = registerAfter ids turns ∧ _ :=
    register_serveAll hturns
  rw [← hregister]
  refine ⟨fun turn hturn => (serve_serves hturn hpaired hnumbered).succeeds_iff, ?_⟩
  exact fun world clock text agentUser profile hsound hagent => getUser_iff hpaired hsound clock text hagent profile

theorem account_registrable (email : String) : Registrable (.create (account email)) :=
  ⟨account_accepted email, rfl⟩

theorem registerAfter_signUp : registerAfter UuidSource.counting [signUp] =
    [("0", .opened (.new (account "user@example.com")))] := by
  have hsucceeds : Succeeds UuidSource.counting [] signUp.request := by
    refine ⟨⟨by decide, ?_⟩, "cGFzczEyMw==", rfl, _, rfl⟩
    intro email _ entry hentry
    cases hentry
  change Register.serve UuidSource.counting [] signUp.request = _
  rw [Register.serve, if_pos hsucceeds]
  rfl

theorem serveAll_refines_signUp : ∃ entity, (run faultless (getUser (fun _ => Time.epoch) "0" newcomer.agentUser)
    (serveAll [signUp] : Database UuidSource.counting)).1 = .ok entity ∧
      shownProfile entity = .new (account "user@example.com") := by
  have hturns : ∀ turn ∈ [signUp], Registrable turn.request.action := by
    intro turn hturn
    rw [List.mem_singleton.mp hturn]
    exact account_registrable "user@example.com"
  refine ((serveAll_refines hturns).2 faultless (fun _ => Time.epoch) "0" newcomer.agentUser _ faultless_sound
    (by decide)).mpr ?_
  rw [registerAfter_signUp]
  exact ⟨"0", rfl, List.mem_singleton.mpr rfl⟩

end node_backend.accounts
