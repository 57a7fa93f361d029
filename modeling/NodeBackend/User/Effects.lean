import NodeBackend.User.Usecases

namespace node_backend.user_database

open js store program
open node_backend.exceptions node_backend.user_models node_backend.user_query
open node_backend.user_entity node_backend.user_preference_entity

variable {ids : UuidSource} {mayFail : Prop} {db db' : Database ids}

/-- Requests that took effect one after another. -/
abbrev Wrote (calls : List Call) (db db' : Database ids) : Prop :=
  Performed (step False) calls db db'

theorem step_ok_iff {call : Call} {reply : call.Reply} :
    step mayFail call db (.ok reply) db' ↔ ∃ engine now, exec engine now call db = (.ok reply, db') := by
  constructor
  · rintro (⟨_, ⟨failure, hfailure⟩, _⟩ | h)
    · cases hfailure
    · exact h
  · exact Or.inr

theorem step_error {call : Call} {failure : Failure} (h : step mayFail call db (.error failure) db') :
    (mayFail ∧ db' = db) ∨ ∃ engine now, exec engine now call db = (.error failure, db') := by
  obtain ⟨hfail, _, hdb⟩ | h := h
  · exact Or.inl ⟨hfail, hdb⟩
  · exact Or.inr h

theorem exec_of_readable {engine : Engine} {now : Time} {call : Call} (h : call.refusal ids = none) :
    exec engine now call db = execRead engine now call db := by
  unfold exec
  rw [h]

theorem exec_of_refused {engine : Engine} {now : Time} {call : Call} {failure : Failure}
    (h : call.refusal ids = some failure) : exec engine now call db = (.error failure, db) := by
  unfold exec
  rw [h]

theorem refusal_eq_none_iff {call : Call} :
    call.refusal ids = none ↔ ∀ text ∈ call.identifiers, ∃ id, ids.read text = some id := by
  unfold Call.refusal
  rw [Option.map_eq_none_iff, List.find?_eq_none]
  simp only [Option.isNone_iff_eq_none, ← Option.ne_none_iff_exists', ne_eq]

/-- What is not refused is executed, and every text in it spells an identifier. -/
theorem step_ok {call : Call} {reply : call.Reply} (h : step mayFail call db (.ok reply) db') :
    (∀ text ∈ call.identifiers, ∃ id, ids.read text = some id) ∧
      ∃ engine now, execRead engine now call db = (.ok reply, db') := by
  obtain ⟨engine, now, hexec⟩ := step_ok_iff.mp h
  cases hrefusal : call.refusal ids with
  | some failure =>
    rw [exec_of_refused hrefusal] at hexec
    cases (Prod.mk.inj hexec).1
  | none =>
    rw [exec_of_readable hrefusal] at hexec
    exact ⟨refusal_eq_none_iff.mp hrefusal, engine, now, hexec⟩

/-- A request whose texts spell identifiers fails only where requests may fail, or in its
execution. -/
theorem step_error_of_readable {call : Call} {failure : Failure} (h : step mayFail call db (.error failure) db')
    (hread : ∀ text ∈ call.identifiers, ∃ id, ids.read text = some id) :
    (mayFail ∧ db' = db) ∨ ∃ engine now, execRead engine now call db = (.error failure, db') := by
  obtain hfail | ⟨engine, now, hexec⟩ := step_error h
  · exact Or.inl hfail
  · rw [exec_of_readable (refusal_eq_none_iff.mpr hread)] at hexec
    exact Or.inr ⟨engine, now, hexec⟩

section change

variable {R : Type} {reply reply' : R} {failure : Failure}

theorem change_error {duplicate foreign : Failure}
    {tables : Option (Table ids UsersModel × Table ids UserPreferencesModel)}
    (h : db.change duplicate foreign tables reply = (.error failure, db')) : db' = db := by
  unfold Database.change at h
  split at h
  · exact (Prod.mk.inj h).2.symm
  · split at h
    · cases (Prod.mk.inj h).1
    · exact (Prod.mk.inj h).2.symm

theorem change_ok {duplicate foreign : Failure}
    {tables : Option (Table ids UsersModel × Table ids UserPreferencesModel)}
    (h : db.change duplicate foreign tables reply = (.ok reply', db')) :
    tables = some (db'.users, db'.preferences) ∧ reply' = reply := by
  unfold Database.change at h
  split at h
  · cases (Prod.mk.inj h).1
  · split at h
    · obtain ⟨hreply, hdb⟩ := Prod.mk.inj h
      subst hdb
      exact ⟨rfl, (Except.ok.inj hreply).symm⟩
    · cases (Prod.mk.inj h).1

theorem change_of_refers {duplicate foreign : Failure} {users : Table ids UsersModel}
    {preferences : Table ids UserPreferencesModel} (h : Refers users preferences) :
    db.change duplicate foreign (some (users, preferences)) reply = (.ok reply, ⟨users, preferences, h⟩) := by
  unfold Database.change
  exact dif_pos h

theorem changeUsers_ok {users : Option (Table ids UsersModel)}
    (h : db.changeUsers users reply = (.ok reply', db')) :
    users = some db'.users ∧ db'.preferences = db.preferences ∧ reply' = reply := by
  obtain ⟨htables, hreply⟩ := change_ok h
  obtain ⟨table, htable, hpair⟩ := Option.map_eq_some_iff.mp htables
  obtain ⟨husers, hpreferences⟩ := Prod.mk.inj hpair
  exact ⟨htable.trans (congrArg some husers), hpreferences.symm, hreply⟩

theorem changeUsers_error {users : Option (Table ids UsersModel)}
    (h : db.changeUsers users reply = (.error failure, db')) : db' = db :=
  change_error h

theorem changePreferences_error {preferences : Option (Table ids UserPreferencesModel)}
    (h : db.changePreferences preferences reply = (.error failure, db')) : db' = db :=
  change_error h

theorem changePreferences_ok {preferences : Option (Table ids UserPreferencesModel)}
    (h : db.changePreferences preferences reply = (.ok reply', db')) :
    preferences = some db'.preferences ∧ db'.users = db.users ∧ reply' = reply := by
  obtain ⟨htables, hreply⟩ := change_ok h
  obtain ⟨table, htable, hpair⟩ := Option.map_eq_some_iff.mp htables
  obtain ⟨husers, hpreferences⟩ := Prod.mk.inj hpair
  exact ⟨htable.trans (congrArg some hpreferences), husers.symm, hreply⟩

end change

/-- A change of users that keeps their identifiers. -/
theorem refers_of_modify {users : Table ids UsersModel} {text : String} {f : UsersModel → UsersModel}
    (hid : ∀ user, (f user).id = user.id) (h : users.rows = Table.changeNamed ids text f db.users.rows) :
    Refers users db.preferences := by
  intro preference hpreference userId huserId
  obtain ⟨user, huser, rfl⟩ := db.refers preference hpreference userId huserId
  have hids := Table.map_changeNamed ids UsersModel.id hid text db.users.rows
  have hmem : user.id ∈ users.rows.map UsersModel.id := by
    rw [h, hids]
    exact List.mem_map_of_mem huser
  exact List.mem_map.mp hmem

/-- A change of preferences that keeps the users they name. -/
theorem refers_of_modify_preferences {preferences : Table ids UserPreferencesModel} {text : String}
    {f : UserPreferencesModel → UserPreferencesModel} (huser : ∀ preference, (f preference).userId = preference.userId)
    (h : preferences.rows = Table.changeNamed ids text f db.preferences.rows) : Refers db.users preferences := by
  intro preference hpreference userId huserId
  have husers := Table.map_changeNamed ids UserPreferencesModel.userId huser text db.preferences.rows
  have hmem : preference.userId ∈ db.preferences.rows.map UserPreferencesModel.userId := by
    rw [← husers, ← h]
    exact List.mem_map_of_mem hpreference
  obtain ⟨old, hold, hsame⟩ := List.mem_map.mp hmem
  exact db.refers old hold userId (hsame ▸ huserId)

/-- What an effective insert of a user leaves behind. -/
theorem insertUser_effect {columns : UserColumns} {reply : UserValues}
    (h : step mayFail (.insertUser columns) db (.ok reply) db') :
    ∃ now, db'.users.rows = db.users.rows ++ [columns.row now db.users.nextId] ∧
      db'.preferences = db.preferences ∧ reply = (columns.row now db.users.nextId).load UserSelect.all none := by
  obtain ⟨_, engine, now, hexec⟩ := step_ok h
  obtain ⟨husers, hpreferences, hreply⟩ := changeUsers_ok hexec
  exact ⟨now, (Table.insert_eq_some husers).1, hpreferences, hreply⟩

theorem updateUser_effect {text : String} {columns : UserColumns} {reply : Nat}
    (h : step mayFail (.updateUser text columns) db (.ok reply) db') :
    ∃ id now, ids.read text = some id ∧
      (db'.users.rows = db.users.rows.map fun user => if user.id = id then columns.change now user else user) ∧
      db'.preferences = db.preferences := by
  obtain ⟨hread, engine, now, hexec⟩ := step_ok h
  obtain ⟨id, hid⟩ := hread text List.mem_cons_self
  obtain ⟨husers, hpreferences, _⟩ := changeUsers_ok hexec
  exact ⟨id, now, hid, (Table.modify_eq_some husers).1.trans (Table.changeNamed_of_read hid _ _), hpreferences⟩

theorem softDeleteUser_effect {text : String} {reply : Nat}
    (h : step mayFail (.softDeleteUser text) db (.ok reply) db') :
    ∃ id now, ids.read text = some id ∧
      (db'.users.rows = db.users.rows.map fun user => if user.id = id then user.softDelete now else user) ∧
      db'.preferences = db.preferences ∧ reply = db.users.affected text := by
  obtain ⟨hread, engine, now, hexec⟩ := step_ok h
  obtain ⟨id, hid⟩ := hread text List.mem_cons_self
  obtain ⟨husers, hpreferences, hreply⟩ := changeUsers_ok hexec
  exact ⟨id, now, hid, (Table.modify_eq_some husers).1.trans (Table.changeNamed_of_read hid _ _), hpreferences, hreply⟩

theorem insertPreference_effect {columns : PreferenceColumns} {reply : PreferenceValues}
    (h : step mayFail (.insertPreference columns) db (.ok reply) db') :
    ∃ now, db'.preferences.rows = db.preferences.rows ++ [(columns.stored ids).row now db.preferences.nextId] ∧
      db'.users = db.users ∧
      reply = ((columns.stored ids).row now db.preferences.nextId).load columns.user := by
  obtain ⟨_, engine, now, hexec⟩ := step_ok h
  obtain ⟨hpreferences, husers, hreply⟩ := changePreferences_ok hexec
  exact ⟨now, (Table.insert_eq_some hpreferences).1, husers, hreply⟩

theorem updatePreference_effect {text : String} {columns : PreferenceColumns} {reply : Nat}
    (h : step mayFail (.updatePreference text columns) db (.ok reply) db') :
    ∃ id now, ids.read text = some id ∧
      (db'.preferences.rows = db.preferences.rows.map fun preference =>
        if preference.id = id then (columns.stored ids).change now preference else preference) ∧
      db'.users = db.users := by
  obtain ⟨hread, engine, now, hexec⟩ := step_ok h
  obtain ⟨id, hid⟩ := hread text List.mem_cons_self
  obtain ⟨hpreferences, husers, _⟩ := changePreferences_ok hexec
  exact ⟨id, now, hid, (Table.modify_eq_some hpreferences).1.trans (Table.changeNamed_of_read hid _ _), husers⟩

theorem softDeletePreference_effect {text : String} {reply : Nat}
    (h : step mayFail (.softDeletePreference text) db (.ok reply) db') :
    ∃ id now, ids.read text = some id ∧
      (db'.preferences.rows = db.preferences.rows.map fun preference =>
        if preference.id = id then preference.softDelete now else preference) ∧ db'.users = db.users := by
  obtain ⟨hread, engine, now, hexec⟩ := step_ok h
  obtain ⟨id, hid⟩ := hread text List.mem_cons_self
  obtain ⟨hpreferences, husers, _⟩ := changePreferences_ok hexec
  exact ⟨id, now, hid, (Table.modify_eq_some hpreferences).1.trans (Table.changeNamed_of_read hid _ _), husers⟩

/-- A request that fails has no effect. -/
theorem unchanged_of_error {call : Call} {failure : Failure} (h : step mayFail call db (.error failure) db') :
    db' = db := by
  obtain ⟨_, hdb⟩ | ⟨engine, now, hexec⟩ := step_error h
  · exact hdb
  cases hrefusal : call.refusal ids with
  | some refusal =>
    rw [exec_of_refused hrefusal] at hexec
    exact (Prod.mk.inj hexec).2.symm
  | none =>
    rw [exec_of_readable hrefusal] at hexec
    cases call with
    | findUser options => exact (Prod.mk.inj hexec).2.symm
    | findUsers options => exact (Prod.mk.inj hexec).2.symm
    | findPreference condition => exact (Prod.mk.inj hexec).2.symm
    | insertUser columns => exact changeUsers_error hexec
    | updateUser id columns => exact changeUsers_error hexec
    | softDeleteUser id => exact changeUsers_error hexec
    | deleteUser id => exact changeUsers_error hexec
    | insertPreference columns => exact changePreferences_error hexec
    | updatePreference id columns => exact changePreferences_error hexec
    | softDeletePreference id => exact changePreferences_error hexec
    | deletePreference id => exact changePreferences_error hexec

/-- A change of users that violates nothing fails only where requests may fail. -/
theorem mayFail_of_modify_users {call : Call} {failure : Failure} {id : String} {f : Time → UsersModel → UsersModel}
    {reply : call.Reply} (hid : ∀ now user, (f now user).id = user.id)
    (hemail : ∀ now user, (f now user).email = user.email)
    (hexec : ∀ engine now, execRead engine now call db =
      db.changeUsers (db.users.modify id (f now) (hid now)) reply)
    (h : step mayFail call db (.error failure) db')
    (hread : ∀ text ∈ call.identifiers, ∃ id, ids.read text = some id) : mayFail := by
  obtain ⟨hfail, _⟩ | ⟨engine, now, herror⟩ := step_error_of_readable h hread
  · exact hfail
  · obtain ⟨users, husers⟩ := db.users.exists_modify id (hid now) fun user => congrArg some (hemail now user)
    rw [hexec, husers] at herror
    unfold Database.changeUsers at herror
    rw [Option.map_some, change_of_refers (refers_of_modify (hid now) (Table.modify_eq_some husers).1)] at herror
    cases (Prod.mk.inj herror).1

theorem mayFail_of_modify_preferences {call : Call} {failure : Failure} {id : String}
    {f : Time → UserPreferencesModel → UserPreferencesModel} {reply : call.Reply}
    (hid : ∀ now preference, (f now preference).id = preference.id)
    (huser : ∀ now preference, (f now preference).userId = preference.userId)
    (hexec : ∀ engine now, execRead engine now call db =
      db.changePreferences (db.preferences.modify id (f now) (hid now)) reply)
    (h : step mayFail call db (.error failure) db')
    (hread : ∀ text ∈ call.identifiers, ∃ id, ids.read text = some id) : mayFail := by
  obtain ⟨hfail, _⟩ | ⟨engine, now, herror⟩ := step_error_of_readable h hread
  · exact hfail
  · obtain ⟨preferences, hpreferences⟩ := db.preferences.exists_modify id (hid now) (huser now)
    rw [hexec, hpreferences] at herror
    unfold Database.changePreferences at herror
    rw [Option.map_some, change_of_refers
      (refers_of_modify_preferences (huser now) (Table.modify_eq_some hpreferences).1)] at herror
    cases (Prod.mk.inj herror).1

/-- The first preference of a user that is in the table violates nothing. -/
theorem mayFail_of_insertPreference {columns : PreferenceColumns} {failure : Failure} {user : UsersModel}
    (hcolumns : columns.user = some user.id) (huser : user ∈ db.users.rows)
    (hfresh : ∀ preference ∈ db.preferences.rows, preference.userId ≠ some user.id)
    (h : step mayFail (.insertPreference columns) db (.error failure) db') : mayFail := by
  have hown : ids.read user.id = some user.id := db.users.read_id huser
  have hread : ∀ text ∈ (Call.insertPreference columns).identifiers, ∃ id, ids.read text = some id := by
    intro text htext
    cases hcolumns.symm.trans (Option.mem_toList.mp htext)
    exact ⟨_, hown⟩
  obtain ⟨hfail, _⟩ | ⟨engine, now, herror⟩ := step_error_of_readable h hread
  · exact hfail
  · have hstored : (columns.stored ids).user = some user.id := by
      rw [PreferenceColumns.stored_of_own hcolumns hown, hcolumns]
    obtain ⟨preferences, hpreferences⟩ := db.preferences.exists_insert ((columns.stored ids).row now) (fun _ => rfl) (by
      intro preference hpreference value hvalue hnew
      exact hfresh preference hpreference (hvalue.trans (hnew.symm.trans hstored)))
    have hrefers : Refers db.users preferences := by
      intro preference hpreference userId huserId
      rw [(Table.insert_eq_some hpreferences).1, List.mem_append] at hpreference
      obtain hold | hnew := hpreference
      · exact db.refers preference hold userId huserId
      · rw [List.mem_singleton.mp hnew] at huserId
        exact ⟨user, huser, Option.some.inj (hstored.symm.trans huserId)⟩
    change db.changePreferences (db.preferences.insert ((columns.stored ids).row now) fun _ => rfl) _ = _ at herror
    rw [hpreferences] at herror
    unfold Database.changePreferences at herror
    rw [Option.map_some, change_of_refers hrefers] at herror
    cases (Prod.mk.inj herror).1

/-- Every way to find a user: a live one that meets the conditions, or none where
there is none. Conditions on a text that spells no identifier are refused. -/
theorem findUser_ensures (options : FindOptions) (db : Database ids) :
    (perform (.findUser options)).Ensures (step mayFail) db
      (fun found db' => db' = db ∧ (∀ text ∈ options.filters.filterMap UserWhere.id, ∃ id, ids.read text = some id) ∧
        ((∃ user ∈ options.matching db.users db.preferences, found = some (options.load db.preferences user)) ∨
          options.matching db.users db.preferences = [] ∧ found = none))
      fun _ db' => db' = db ∧
        (mayFail ∨ ∃ text ∈ options.filters.filterMap UserWhere.id, ids.read text = none) := by
  refine Program.ensures_perform (fun found db' hstep => ?_) fun failure db' hstep => ?_
  · obtain ⟨hread, engine, now, hexec⟩ := step_ok hstep
    obtain ⟨hfound, hdb⟩ := Prod.mk.inj hexec
    refine ⟨hdb.symm, hread, ?_⟩
    have hperm := engine.perm options.order (options.matching db.users db.preferences)
    rw [← Except.ok.inj hfound]
    cases harranged : engine.arrange options.order (options.matching db.users db.preferences) with
    | nil =>
      rw [harranged] at hperm
      exact Or.inr ⟨hperm.symm.eq_nil, rfl⟩
    | cons user rest =>
      refine Or.inl ⟨user, hperm.mem_iff.mp ?_, rfl⟩
      rw [harranged]
      exact List.mem_cons_self
  · refine ⟨unchanged_of_error hstep, ?_⟩
    by_contra hnot
    rw [not_or] at hnot
    obtain ⟨hfail, hunread⟩ := hnot
    push Not at hunread
    have hread : ∀ text ∈ (Call.findUser options).identifiers, ∃ id, ids.read text = some id :=
      fun text htext => Option.ne_none_iff_exists'.mp (hunread text htext)
    obtain ⟨hmay, _⟩ | ⟨engine, now, hexec⟩ := step_error_of_readable hstep hread
    · exact hfail hmay
    · cases (Prod.mk.inj hexec).1

/-- A search whose texts spell identifiers fails only where requests may fail. -/
theorem findUser_readable_ensures (options : FindOptions)
    (hread : ∀ text ∈ options.filters.filterMap UserWhere.id, ∃ id, ids.read text = some id) (db : Database ids) :
    (perform (.findUser options)).Ensures (step mayFail) db
      (fun found db' => db' = db ∧
        ((∃ user ∈ options.matching db.users db.preferences, found = some (options.load db.preferences user)) ∨
          options.matching db.users db.preferences = [] ∧ found = none))
      fun _ db' => db' = db ∧ mayFail := by
  apply (findUser_ensures options db).mono
  · exact fun _ _ h => ⟨h.1, h.2.2⟩
  · rintro _ db' ⟨rfl, hfail | ⟨text, htext, hunread⟩⟩
    · exact ⟨rfl, hfail⟩
    · obtain ⟨id, hid⟩ := hread text htext
      cases hunread.symm.trans hid

theorem findPreference_ensures (condition : PreferenceWhere) (db : Database ids) :
    (perform (.findPreference condition)).Ensures (step mayFail) db
      (fun found db' => db' = db ∧
        (∀ text ∈ condition.id.toList ++ condition.user.toList, ∃ id, ids.read text = some id) ∧
        ((∃ preference ∈ condition.matching db, found = some (preference.load none)) ∨
          condition.matching db = [] ∧ found = none))
      fun _ db' => db' = db ∧
        (mayFail ∨ ∃ text ∈ condition.id.toList ++ condition.user.toList, ids.read text = none) := by
  refine Program.ensures_perform (fun found db' hstep => ?_) fun failure db' hstep => ?_
  · obtain ⟨hread, engine, now, hexec⟩ := step_ok hstep
    obtain ⟨hfound, hdb⟩ := Prod.mk.inj hexec
    refine ⟨hdb.symm, hread, ?_⟩
    rw [← Except.ok.inj hfound]
    cases hmatching : condition.matching db with
    | nil => exact Or.inr ⟨rfl, rfl⟩
    | cons preference rest => exact Or.inl ⟨preference, List.mem_cons_self, rfl⟩
  · refine ⟨unchanged_of_error hstep, ?_⟩
    by_contra hnot
    rw [not_or] at hnot
    obtain ⟨hfail, hunread⟩ := hnot
    push Not at hunread
    have hread : ∀ text ∈ (Call.findPreference condition).identifiers, ∃ id, ids.read text = some id :=
      fun text htext => Option.ne_none_iff_exists'.mp (hunread text htext)
    obtain ⟨hmay, _⟩ | ⟨engine, now, hexec⟩ := step_error_of_readable hstep hread
    · exact hfail hmay
    · cases (Prod.mk.inj hexec).1

end node_backend.user_database
