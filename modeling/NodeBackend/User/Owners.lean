import NodeBackend.User.Outline

namespace node_backend.user_database

open js store program
open node_backend.exceptions node_backend.user_models node_backend.user_query node_backend.user_outline

variable {ids : UuidSource} {mayFail : Prop} {db db' : Database ids}

/-- Whose the preferences are. -/
def Database.owners (db : Database ids) : List (String × Option String) :=
  db.preferences.rows.map fun row => (row.id, row.userId)

theorem userId_eq_of_owners {row : UserPreferencesModel} (hrow : row ∈ db.preferences.rows) {userId : Option String}
    (h : (row.id, userId) ∈ db.owners) : row.userId = userId := by
  obtain ⟨other, hother, heq⟩ := List.mem_map.mp h
  obtain ⟨hid, huserId⟩ := Prod.mk.inj heq
  rw [db.preferences.eq_of_id_eq hrow hother hid.symm]
  exact huserId

theorem owners_of_outline {id : String} {userId : Option String} {live : Bool}
    (h : (id, userId, live) ∈ db.outline.preferences) : (id, userId) ∈ db.owners := by
  obtain ⟨row, hrow, _, rfl, rfl⟩ := mem_outline_preferences.mp h
  exact List.mem_map.mpr ⟨row, hrow, rfl⟩

/-- The text of the user whose row a request writes. -/
def Call.user? : Call → Option String
  | updateUser id _ => some id
  | softDeleteUser id => some id
  | deleteUser id => some id
  | _ => none

/-- The text of the preference whose row a request writes. -/
def Call.preference? : Call → Option String
  | updatePreference id _ => some id
  | softDeletePreference id => some id
  | deletePreference id => some id
  | _ => none

/-- Requests that read. -/
def Finds : Call → Prop
  | .findUser _ => True
  | .findUsers _ => True
  | .findPreference _ => True
  | _ => False

/-- Requests that change rows where they are, and neither revive a row nor give a
preference to another user. -/
def InPlace : Call → Prop
  | .updateUser _ columns => columns.deletedAt = none
  | .updatePreference _ columns => columns.deletedAt = none ∧ columns.user = none
  | .softDeleteUser _ => True
  | .softDeletePreference _ => True
  | call => Finds call

/-- Requests that change rows and leave alone what tells of their deletion. -/
def Edits : Call → Prop
  | .updateUser _ columns => columns.deletedAt = none ∧ columns.deletedBy = none
  | .updatePreference _ columns => columns.deletedAt = none
  | call => Finds call

/-- Requests that write a user or the preference of that user, if anything. -/
structure Manages (ids : UuidSource) (owners : List (String × Option String)) (userId : Option String)
    (call : Call) : Prop where
  user : ∀ text, call.user? = some text → ∃ id ∈ userId, ids.read text = some id
  preference : ∀ text, call.preference? = some text →
    ∃ id, ids.read text = some id ∧ ∃ owner ∈ userId, (id, some owner) ∈ owners
  inPlace : InPlace call

theorem Finds.manages {owners : List (String × Option String)} {userId : Option String} {call : Call}
    (h : Finds call) : Manages ids owners userId call where
  user := by
    intro id hid
    cases call <;> first | exact h.elim | cases hid
  preference := by
    intro id hid
    cases call <;> first | exact h.elim | cases hid
  inPlace := by
    cases call <;> first | exact h.elim | trivial

theorem Finds.unchanged {call : Call} (h : Finds call) {reply : Except Failure call.Reply}
    (hstep : step mayFail call db reply db') : db' = db := by
  cases reply with
  | error failure => exact unchanged_of_error hstep
  | ok value =>
    obtain ⟨_, engine, now, hexec⟩ := step_ok hstep
    cases call <;> first | exact (Prod.mk.inj hexec).2.symm | exact h.elim

/-- The rows that a request writes belong to one user. -/
structure WritesOnly (userId : Option String) (db : Database ids) (call : Call) : Prop where
  users : ∀ row ∈ db.users.rows, call.user?.bind ids.read = some row.id → userId = some row.id
  preferences : ∀ row ∈ db.preferences.rows, call.preference?.bind ids.read = some row.id →
    ∃ owner ∈ userId, row.userId = some owner

/-- Rows are added, removed or moved nowhere. Those that differ belong to one user,
and what was deleted stays so. -/
structure ChangesOnly (userId : Option String) (db db' : Database ids) : Prop where
  users : List.Forall₂ (fun row row' => row'.id = row.id ∧ (row.live = false → row'.live = false) ∧
    (row' = row ∨ userId = some row.id)) db.users.rows db'.users.rows
  preferences : List.Forall₂ (fun row row' => row'.id = row.id ∧ row'.userId = row.userId ∧
    (row.live = false → row'.live = false) ∧ (row' = row ∨ ∃ owner ∈ userId, row.userId = some owner))
    db.preferences.rows db'.preferences.rows

theorem ChangesOnly.refl (userId : Option String) (db : Database ids) : ChangesOnly userId db db where
  users := List.forall₂_same.mpr fun _ _ => ⟨rfl, id, Or.inl rfl⟩
  preferences := List.forall₂_same.mpr fun _ _ => ⟨rfl, rfl, id, Or.inl rfl⟩

theorem map_eq_of_forall₂ {Row Key : Type} {key : Row → Key} {rows rows' : List Row}
    (h : List.Forall₂ (fun row row' => key row' = key row) rows rows') : rows'.map key = rows.map key := by
  induction h with
  | nil => rfl
  | cons hrow _ ih => rw [List.map_cons, List.map_cons, hrow, ih]

/-- Preferences stay whose they are. -/
theorem ChangesOnly.owners_eq {userId : Option String} (h : ChangesOnly userId db db') : db'.owners = db.owners :=
  map_eq_of_forall₂ (h.preferences.imp fun _ _ hrow => Prod.ext hrow.1 hrow.2.1)

section manages

variable {userId : Option String} {call : Call}

theorem Manages.writesOnly (h : Manages ids db.owners userId call) : WritesOnly userId db call where
  users := by
    intro row _ hid
    obtain ⟨text, htext, hread⟩ := Option.bind_eq_some_iff.mp hid
    obtain ⟨id, huserId, hsame⟩ := h.user text htext
    cases hread.symm.trans hsame
    exact huserId
  preferences := by
    intro row hrow hid
    obtain ⟨text, htext, hread⟩ := Option.bind_eq_some_iff.mp hid
    obtain ⟨id, hsame, owner, howner, hmem⟩ := h.preference text htext
    cases hread.symm.trans hsame
    exact ⟨owner, howner, userId_eq_of_owners hrow hmem⟩

/-- A change of the user by identifier. -/
theorem changesOnly_of_users {id : String} {f : UsersModel → UsersModel} (huserId : userId = some id)
    (hid : ∀ row, (f row).id = row.id) (hlive : ∀ row, row.live = false → (f row).live = false)
    (hrows : db'.users.rows = db.users.rows.map fun row => if row.id = id then f row else row)
    (hpreferences : db'.preferences = db.preferences) : ChangesOnly userId db db' where
  users := by
    rw [hrows, List.forall₂_map_right_iff]
    apply List.forall₂_same.mpr
    intro row _
    split
    · next hsame => exact ⟨hid row, hlive row, Or.inr (by rw [huserId, hsame])⟩
    · exact ⟨rfl, fun hrow => hrow, Or.inl rfl⟩
  preferences := by
    rw [hpreferences]
    exact (ChangesOnly.refl userId db).preferences

theorem changesOnly_of_preferences {id : String} {f : UserPreferencesModel → UserPreferencesModel}
    (howner : ∃ owner ∈ userId, (id, some owner) ∈ db.owners) (hid : ∀ row, (f row).id = row.id)
    (huser : ∀ row, (f row).userId = row.userId) (hlive : ∀ row, row.live = false → (f row).live = false)
    (hrows : db'.preferences.rows = db.preferences.rows.map fun row => if row.id = id then f row else row)
    (husers : db'.users = db.users) : ChangesOnly userId db db' where
  users := by
    rw [husers]
    exact (ChangesOnly.refl userId db).users
  preferences := by
    obtain ⟨owner, howner, hmem⟩ := howner
    rw [hrows, List.forall₂_map_right_iff]
    apply List.forall₂_same.mpr
    intro row hrow
    split
    · next hsame =>
      subst hsame
      exact ⟨hid row, huser row, hlive row, Or.inr ⟨owner, howner, userId_eq_of_owners hrow hmem⟩⟩
    · exact ⟨rfl, rfl, fun hrow => hrow, Or.inl rfl⟩

theorem UserColumns.change_live {columns : UserColumns} (h : columns.deletedAt = none) (now : Time) (row : UsersModel) :
    (columns.change now row).live = row.live := by
  rw [UsersModel.live, UserColumns.change, h]
  rfl

theorem PreferenceColumns.change_live {columns : PreferenceColumns} (h : columns.deletedAt = none) (now : Time)
    (row : UserPreferencesModel) : (columns.change now row).live = row.live := by
  rw [UserPreferencesModel.live, PreferenceColumns.change, h]
  rfl

theorem Manages.changesOnly (h : Manages ids db.owners userId call) {reply : Except Failure call.Reply}
    (hstep : step mayFail call db reply db') : ChangesOnly userId db db' := by
  have hread : Finds call → ChangesOnly userId db db' := by
    intro hfinds
    rw [hfinds.unchanged hstep]
    exact ChangesOnly.refl userId db
  obtain ⟨huser, hpreference, hplace⟩ := h
  cases reply with
  | error failure =>
    rw [unchanged_of_error hstep]
    exact ChangesOnly.refl userId db
  | ok value =>
    cases call with
    | updateUser text columns =>
      obtain ⟨id, now, hread, hrows, hpreferences⟩ := updateUser_effect hstep
      obtain ⟨userId, huserId, hsame⟩ := huser text rfl
      cases hread.symm.trans hsame
      refine changesOnly_of_users (f := columns.change now) huserId (fun _ => rfl) (fun row hrow => ?_) hrows
        hpreferences
      rw [UserColumns.change_live hplace]
      exact hrow
    | softDeleteUser text =>
      obtain ⟨id, now, hread, hrows, hpreferences, _⟩ := softDeleteUser_effect hstep
      obtain ⟨userId, huserId, hsame⟩ := huser text rfl
      cases hread.symm.trans hsame
      exact changesOnly_of_users (f := UsersModel.softDelete now) huserId (fun _ => rfl) (fun _ _ => rfl) hrows
        hpreferences
    | updatePreference text columns =>
      obtain ⟨id, now, hread, hrows, husers⟩ := updatePreference_effect hstep
      obtain ⟨other, hsame, howner⟩ := hpreference text rfl
      cases hread.symm.trans hsame
      obtain ⟨hdeletedAt, hcolumn⟩ := hplace
      rw [PreferenceColumns.stored_of_none hcolumn] at hrows
      refine changesOnly_of_preferences (f := columns.change now) howner (fun _ => rfl) (fun row => ?_)
        (fun row hrow => ?_) hrows husers
      · rw [PreferenceColumns.change, hcolumn]
        rfl
      · rw [PreferenceColumns.change_live hdeletedAt]
        exact hrow
    | softDeletePreference text =>
      obtain ⟨id, now, hread, hrows, husers⟩ := softDeletePreference_effect hstep
      obtain ⟨other, hsame, howner⟩ := hpreference text rfl
      cases hread.symm.trans hsame
      exact changesOnly_of_preferences (f := UserPreferencesModel.softDelete now) howner (fun _ => rfl)
        (fun _ => rfl) (fun _ _ => rfl) hrows husers
    | findUser options => exact hread trivial
    | findUsers options => exact hread trivial
    | findPreference condition => exact hread trivial
    | _ => exact hplace.elim

end manages

/-- What tells of the deletion of each row. -/
def Database.marks (db : Database ids) : List (String × Option Time × Option String) × List (String × Option Time) :=
  (db.users.rows.map fun row => (row.id, row.deletedAt, row.deletedBy),
    db.preferences.rows.map fun row => (row.id, row.deletedAt))

theorem Edits.marks_eq {call : Call} (h : Edits call) {reply : Except Failure call.Reply}
    (hstep : step mayFail call db reply db') : db'.marks = db.marks := by
  have hread : Finds call → db'.marks = db.marks := fun hfinds => by rw [hfinds.unchanged hstep]
  cases reply with
  | error failure => rw [unchanged_of_error hstep]
  | ok value =>
    cases call with
    | updateUser id columns =>
      obtain ⟨_, now, _, hrows, hpreferences⟩ := updateUser_effect hstep
      obtain ⟨hdeletedAt, hdeletedBy⟩ := h
      unfold Database.marks
      rw [hrows, hpreferences, List.map_map]
      refine congrArg (·, _) (List.map_congr_left fun row _ => ?_)
      rw [Function.comp_apply]
      split
      · simp [UserColumns.change, hdeletedAt, hdeletedBy]
      · rfl
    | updatePreference id columns =>
      obtain ⟨_, now, _, hrows, husers⟩ := updatePreference_effect hstep
      have hdeletedAt : columns.deletedAt = none := h
      unfold Database.marks
      rw [hrows, husers, List.map_map]
      refine congrArg (_, ·) (List.map_congr_left fun row _ => ?_)
      rw [Function.comp_apply]
      split
      · simp [PreferenceColumns.change, PreferenceColumns.stored, hdeletedAt]
      · rfl
    | findUser options => exact hread trivial
    | findUsers options => exact hread trivial
    | findPreference condition => exact hread trivial
    | _ => exact h.elim

end node_backend.user_database
