import NodeBackend.User.Effects

namespace node_backend.user_outline

/-- What the user store is about: the users and the preferences by identifier, which
of them are live, and whose a preference is. -/
structure Outline where
  users : List (String × Bool)
  preferences : List (String × Option String × Bool)

namespace Outline

def empty : Outline := ⟨[], []⟩

def addUser (o : Outline) (id : String) : Outline :=
  { o with users := o.users ++ [(id, true)] }

def addPreference (o : Outline) (id : String) (userId : Option String) : Outline :=
  { o with preferences := o.preferences ++ [(id, userId, true)] }

def retireUser (o : Outline) (id : String) : Outline :=
  { o with users := o.users.map fun line => if line.1 = id then (line.1, false) else line }

def retirePreference (o : Outline) (id : String) : Outline :=
  { o with preferences := o.preferences.map fun line => if line.1 = id then (line.1, line.2.1, false) else line }

/-- Every user has a preference and every preference a user, live together. -/
structure Paired (o : Outline) : Prop where
  preference : ∀ id live, (id, live) ∈ o.users → ∃ preferenceId, (preferenceId, some id, live) ∈ o.preferences
  user : ∀ preferenceId userId live, (preferenceId, userId, live) ∈ o.preferences →
    ∃ id, userId = some id ∧ (id, live) ∈ o.users

/-- No two preferences share their identifier, and none their user. -/
structure Distinct (o : Outline) : Prop where
  byId : ∀ id userId live userId' live', (id, userId, live) ∈ o.preferences → (id, userId', live') ∈ o.preferences →
    userId = userId' ∧ live = live'
  byUser : ∀ id id' userId live live', (id, some userId, live) ∈ o.preferences →
    (id', some userId, live') ∈ o.preferences → id = id'

theorem empty_paired : empty.Paired where
  preference := fun _ _ h => by cases h
  user := fun _ _ _ h => by cases h

/-- A new user comes with a preference. -/
theorem Paired.add {o : Outline} (h : o.Paired) (id preferenceId : String) :
    ((o.addUser id).addPreference preferenceId (some id)).Paired where
  preference := by
    intro other live hother
    obtain hold | hnew := List.mem_append.mp hother
    · obtain ⟨ownId, hown⟩ := h.preference other live hold
      exact ⟨ownId, List.mem_append_left _ hown⟩
    · cases List.mem_singleton.mp hnew
      exact ⟨preferenceId, List.mem_append_right _ (List.mem_singleton.mpr rfl)⟩
  user := by
    intro ownId userId live hown
    obtain hold | hnew := List.mem_append.mp hown
    · obtain ⟨other, hother, hmem⟩ := h.user ownId userId live hold
      exact ⟨other, hother, List.mem_append_left _ hmem⟩
    · cases List.mem_singleton.mp hnew
      exact ⟨id, rfl, List.mem_append_right _ (List.mem_singleton.mpr rfl)⟩

/-- A user is retired with the preference. -/
theorem Paired.retire {o : Outline} (h : o.Paired) (hdistinct : o.Distinct) {id preferenceId : String} {live : Bool}
    (hown : (preferenceId, some id, live) ∈ o.preferences) :
    ((o.retirePreference preferenceId).retireUser id).Paired where
  preference := by
    intro other otherLive hother
    obtain ⟨⟨otherId, oldLive⟩, hold, hline⟩ := List.mem_map.mp hother
    by_cases hsame : otherId = id
    · rw [if_pos hsame] at hline
      cases hline
      exact ⟨preferenceId, List.mem_map.mpr ⟨_, hown, by rw [if_pos rfl, ← hsame]⟩⟩
    · rw [if_neg hsame] at hline
      cases hline
      obtain ⟨ownId, hothers⟩ := h.preference other otherLive hold
      refine ⟨ownId, List.mem_map.mpr ⟨_, hothers, if_neg ?_⟩⟩
      rintro rfl
      exact hsame (Option.some.inj (hdistinct.byId _ _ _ _ _ hothers hown).1)
  user := by
    intro ownId userId newLive hmem
    obtain ⟨⟨oldId, oldUserId, oldLive⟩, hold, hline⟩ := List.mem_map.mp hmem
    obtain ⟨other, hother, huser⟩ := h.user oldId oldUserId oldLive hold
    subst hother
    by_cases hsame : oldId = preferenceId
    · rw [if_pos hsame] at hline
      cases hline
      subst hsame
      have hid : other = id := Option.some.inj (hdistinct.byId _ _ _ _ _ hold hown).1
      exact ⟨other, rfl, List.mem_map.mpr ⟨_, huser, if_pos hid⟩⟩
    · rw [if_neg hsame] at hline
      cases hline
      refine ⟨other, rfl, List.mem_map.mpr ⟨_, huser, if_neg ?_⟩⟩
      rintro rfl
      exact hsame (hdistinct.byUser _ _ _ _ _ hold hown)

end Outline

end node_backend.user_outline

namespace node_backend.user_database

open store program
open node_backend.user_models node_backend.user_outline

variable {ids : UuidSource} {mayFail : Prop} {db db' : Database ids}

def Database.outline (db : Database ids) : Outline where
  users := db.users.rows.map fun user => (user.id, user.live)
  preferences := db.preferences.rows.map fun preference => (preference.id, preference.userId, preference.live)

theorem mem_outline_users {id : String} {live : Bool} :
    (id, live) ∈ db.outline.users ↔ ∃ user ∈ db.users.rows, user.live = live ∧ user.id = id := by
  unfold Database.outline
  simp only [List.mem_map, Prod.mk.injEq]
  exact exists_congr fun user => and_congr_right fun _ => and_comm

theorem mem_outline_preferences {id : String} {userId : Option String} {live : Bool} :
    (id, userId, live) ∈ db.outline.preferences ↔
      ∃ preference ∈ db.preferences.rows, preference.live = live ∧ preference.userId = userId ∧ preference.id = id := by
  unfold Database.outline
  simp only [List.mem_map, Prod.mk.injEq]
  refine exists_congr fun preference => and_congr_right fun _ => ?_
  constructor
  · intro h
    obtain ⟨hid, huserId, hlive⟩ := h
    exact ⟨hlive, huserId, hid⟩
  · rintro ⟨hlive, huserId, hid⟩
    exact ⟨hid, huserId, hlive⟩

/-- The constraints of the tables keep the preferences apart. -/
theorem outline_distinct (db : Database ids) : db.outline.Distinct where
  byId := by
    intro id userId live userId' live' h h'
    obtain ⟨preference, hmem, rfl, rfl, rfl⟩ := mem_outline_preferences.mp h
    obtain ⟨other, hother, rfl, rfl, hid⟩ := mem_outline_preferences.mp h'
    rw [db.preferences.eq_of_id_eq hother hmem hid]
    exact ⟨rfl, rfl⟩
  byUser := by
    intro id id' userId live live' h h'
    obtain ⟨preference, hmem, rfl, huserId, rfl⟩ := mem_outline_preferences.mp h
    obtain ⟨other, hother, rfl, huserId', rfl⟩ := mem_outline_preferences.mp h'
    rw [db.preferences.eq_of_unique_eq hmem hother huserId huserId']

theorem insertUser_outline {columns : UserColumns} (hcolumns : columns.deletedAt = none)
    (h : Wrote [.insertUser columns] db db') : db'.outline = db.outline.addUser db.users.nextId := by
  cases h with
  | cons reply hstep hrest =>
    cases hrest
    obtain ⟨now, hrows, hpreferences, _⟩ := insertUser_effect hstep
    unfold Database.outline Outline.addUser
    rw [hrows, hpreferences, List.map_append]
    simp [UserColumns.row, UsersModel.live, hcolumns]

theorem insertPreference_outline {columns : PreferenceColumns} (hcolumns : columns.deletedAt = none)
    (h : Wrote [.insertPreference columns] db db') :
    db'.outline = db.outline.addPreference db.preferences.nextId (columns.stored ids).user := by
  cases h with
  | cons reply hstep hrest =>
    cases hrest
    obtain ⟨now, hrows, husers, _⟩ := insertPreference_effect hstep
    unfold Database.outline Outline.addPreference
    rw [hrows, husers, List.map_append]
    simp [PreferenceColumns.row, PreferenceColumns.stored, UserPreferencesModel.live, hcolumns]

/-- Updates that neither delete a row nor give a preference to another user. -/
inductive Keeps : Call → Prop
  | user {id : String} {columns : UserColumns} (hdeleted : columns.deletedAt = none) : Keeps (.updateUser id columns)
  | preference {id : String} {columns : PreferenceColumns} (hdeleted : columns.deletedAt = none)
      (huser : columns.user = none) : Keeps (.updatePreference id columns)

theorem Keeps.outline_eq {call : Call} (hkeeps : Keeps call) {reply : call.Reply}
    (h : step mayFail call db (.ok reply) db') : db'.outline = db.outline := by
  cases hkeeps with
  | user hdeleted =>
    obtain ⟨_, now, _, hrows, hpreferences⟩ := updateUser_effect h
    unfold Database.outline
    rw [hrows, hpreferences, List.map_map]
    refine congrArg (Outline.mk · _) (List.map_congr_left fun user _ => ?_)
    rw [Function.comp_apply]
    split
    · simp [UserColumns.change, UsersModel.live, hdeleted]
    · rfl
  | preference hdeleted huser =>
    obtain ⟨_, now, _, hrows, husers⟩ := updatePreference_effect h
    rw [PreferenceColumns.stored_of_none huser] at hrows
    unfold Database.outline
    rw [hrows, husers, List.map_map]
    refine congrArg (Outline.mk _) (List.map_congr_left fun preference _ => ?_)
    rw [Function.comp_apply]
    split
    · simp [PreferenceColumns.change, UserPreferencesModel.live, hdeleted, huser]
    · rfl

theorem outline_eq_of_keeps {calls : List Call} (h : Wrote calls db db') (hkeeps : ∀ call ∈ calls, Keeps call) :
    db'.outline = db.outline := by
  induction h with
  | nil s => rfl
  | cons reply hstep _ ih =>
    rw [ih fun call hcall => hkeeps call (List.mem_cons_of_mem _ hcall)]
    exact (hkeeps _ List.mem_cons_self).outline_eq hstep

theorem softDeleteUser_outline {text id : String} (hread : ids.read text = some id)
    (h : Wrote [.softDeleteUser text] db db') : db'.outline = db.outline.retireUser id := by
  cases h with
  | cons reply hstep hrest =>
    cases hrest
    obtain ⟨_, now, hid, hrows, hpreferences, _⟩ := softDeleteUser_effect hstep
    cases hread.symm.trans hid
    unfold Database.outline Outline.retireUser
    rw [hrows, hpreferences, List.map_map, List.map_map]
    refine congrArg (Outline.mk · _) (List.map_congr_left fun user _ => ?_)
    simp only [Function.comp_apply]
    split
    · rfl
    · rfl

theorem softDeletePreference_outline {text id : String} (hread : ids.read text = some id)
    (h : Wrote [.softDeletePreference text] db db') : db'.outline = db.outline.retirePreference id := by
  cases h with
  | cons reply hstep hrest =>
    cases hrest
    obtain ⟨_, now, hid, hrows, husers⟩ := softDeletePreference_effect hstep
    cases hread.symm.trans hid
    unfold Database.outline Outline.retirePreference
    rw [hrows, husers, List.map_map, List.map_map]
    refine congrArg (Outline.mk _) (List.map_congr_left fun preference _ => ?_)
    simp only [Function.comp_apply]
    split
    · rfl
    · rfl

/-- A live user with an identifier. -/
def LiveUser (db : Database ids) (id : String) : Prop :=
  (id, true) ∈ db.outline.users

/-- A live preference with an identifier. -/
def LiveRow (db : Database ids) (id : String) : Prop :=
  ∃ userId, (id, userId, true) ∈ db.outline.preferences

/-- A live preference of a live user. -/
def LivePreference (db : Database ids) (userId : String) : Prop :=
  LiveUser db userId ∧ ∃ id, (id, some userId, true) ∈ db.outline.preferences

theorem read_of_liveUser {id : String} (h : LiveUser db id) : ids.read id = some id := by
  obtain ⟨user, huser, _, rfl⟩ := mem_outline_users.mp h
  exact db.users.read_id huser

theorem read_of_preference {id : String} {userId : Option String} {live : Bool}
    (h : (id, userId, live) ∈ db.outline.preferences) : ids.read id = some id := by
  obtain ⟨preference, hmem, _, _, rfl⟩ := mem_outline_preferences.mp h
  exact db.preferences.read_id hmem

theorem ne_empty_of_liveUser {id : String} (h : LiveUser db id) : id ≠ "" := by
  obtain ⟨user, huser, _, rfl⟩ := mem_outline_users.mp h
  exact db.users.id_nonempty huser

theorem liveUser_of_keeps {call : Call} (hkeeps : Keeps call) {reply : call.Reply}
    (h : step mayFail call db (.ok reply) db') {id : String} (hlive : LiveUser db id) : LiveUser db' id := by
  unfold LiveUser
  rw [hkeeps.outline_eq h]
  exact hlive

theorem liveRow_of_keeps {call : Call} (hkeeps : Keeps call) {reply : call.Reply}
    (h : step mayFail call db (.ok reply) db') {id : String} (hrow : LiveRow db id) : LiveRow db' id := by
  unfold LiveRow
  rw [hkeeps.outline_eq h]
  exact hrow

end node_backend.user_database
