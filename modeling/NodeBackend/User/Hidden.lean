import NodeBackend.Program.Simulation
import NodeBackend.User.Effects

namespace node_backend.user_database

open js store program
open node_backend.exceptions node_backend.user_models node_backend.user_query

/-- A way to hide columns of Users. Those that identify a user or tell whether one is
live stay, and no change tells hidden values apart. -/
structure Veil where
  hide : UsersModel → UsersModel
  id : ∀ row, (hide row).id = row.id
  email : ∀ row, (hide row).email = row.email
  live : ∀ row, (hide row).live = row.live
  change : ∀ (columns : UserColumns) (now : Time) (a b : UsersModel), hide a = hide b →
    hide (columns.change now a) = hide (columns.change now b)
  softDelete : ∀ (now : Time) (a b : UsersModel), hide a = hide b → hide (a.softDelete now) = hide (b.softDelete now)

variable {ids : UuidSource} (veil : Veil)

/-- Two tables of users that differ in hidden columns only. -/
structure AlikeUsers (users users' : Table ids UsersModel) : Prop where
  rows : users.rows.map veil.hide = users'.rows.map veil.hide
  inserted : users.inserted = users'.inserted

/-- Two databases that differ in hidden columns of Users only. -/
structure Alike (db db' : Database ids) : Prop where
  users : AlikeUsers veil db.users db'.users
  preferences : db.preferences = db'.preferences

/-- A query whose conditions and whose selected columns are not hidden. -/
structure Blind (options : FindOptions) : Prop where
  filters : ∀ condition ∈ options.filters, ∀ (ids : UuidSource) row preference,
    condition.holds ids (veil.hide row) preference = condition.holds ids row preference
  load : ∀ row preference, (veil.hide row).load options.select preference = row.load options.select preference

/-- The database arranges rows without a look at what is hidden. -/
def ArrangesBlind (engine : Engine) : Prop :=
  ∀ order rows, (engine.arrange order rows).map veil.hide = engine.arrange order (rows.map veil.hide)

/-- Every query a request makes is blind. -/
def BlindCall : Call → Prop
  | .findUser options => Blind veil options
  | .findUsers options => Blind veil options
  | _ => True

variable {veil} {db db' : Database ids} {users users' : Table ids UsersModel}

theorem Blind.matching {options : FindOptions} (h : Blind veil options)
    (preferences : Table ids UserPreferencesModel) :
    (options.matching users preferences).map veil.hide = (users.rows.map veil.hide).filter fun user =>
      user.live && (options.filters.isEmpty ||
        options.filters.any fun condition => condition.holds ids user (joined preferences user.id)) := by
  unfold FindOptions.matching
  rw [List.filter_map]
  refine congrArg (List.map veil.hide) (List.filter_congr fun user _ => ?_)
  have hany : options.filters.any (fun condition => condition.holds ids user (joined preferences user.id)) =
      options.filters.any fun condition => condition.holds ids (veil.hide user)
        (joined preferences (veil.hide user).id) := by
    rw [veil.id, Bool.eq_iff_iff, List.any_eq_true, List.any_eq_true]
    refine exists_congr fun condition => and_congr_right fun hcondition => ?_
    rw [h.filters condition hcondition]
  rw [Function.comp_apply, veil.live, hany]

theorem Blind.map_load {options : FindOptions} (h : Blind veil options)
    (preferences : Table ids UserPreferencesModel) (rows : List UsersModel) :
    rows.map (options.load preferences) = (rows.map veil.hide).map (options.load preferences) := by
  rw [List.map_map]
  apply List.map_congr_left
  intro user _
  unfold FindOptions.load
  rw [Function.comp_apply, veil.id, h.load]

/-- What a blind query finds in order. -/
theorem Blind.arranged {options : FindOptions} (h : Blind veil options) {engine : Engine}
    (hengine : ArrangesBlind veil engine) (halike : Alike veil db db') :
    (engine.arrange options.order (options.matching db.users db.preferences)).map veil.hide =
      (engine.arrange options.order (options.matching db'.users db'.preferences)).map veil.hide := by
  rw [hengine, hengine, h.matching, h.matching, halike.users.rows, halike.preferences]

theorem Blind.findUser {options : FindOptions} (h : Blind veil options) {engine : Engine}
    (hengine : ArrangesBlind veil engine) (halike : Alike veil db db') (now : Time) :
    (execRead engine now (.findUser options) db).1 = (execRead engine now (.findUser options) db').1 := by
  have hfound := congrArg (fun rows => (rows.map (options.load db.preferences)).head?) (h.arranged hengine halike)
  simp only [← h.map_load, List.head?_map] at hfound
  obtain ⟨users, preferences, _⟩ := db
  obtain ⟨users', _, _⟩ := db'
  cases halike.preferences
  exact congrArg Except.ok hfound

/-- Which part of the rows a database gives depends on how many there are, and on nothing
else of them. -/
theorem cut_map {A : Type} (paging : Paging) (options : PaginationOptions) {f f' : UsersModel → A}
    {rows rows' : List UsersModel} (h : rows.map f = rows'.map f') :
    ((paging.cut options rows).map fun found => (found.1.map f, found.2)) =
      (paging.cut options rows').map fun found => (found.1.map f', found.2) := by
  have hlength : rows.length = rows'.length := by simpa using congrArg List.length h
  unfold Paging.cut
  split
  · rw [hlength]
    cases paging.slice _ _ rows'.length with
    | error failure => rfl
    | ok slice =>
      refine congrArg Except.ok (Prod.ext ?_ rfl)
      change ((rows.drop slice.skipped).take slice.taken).map f = ((rows'.drop slice.skipped).take slice.taken).map f'
      rw [List.map_take, List.map_take, List.map_drop, List.map_drop, h]
  · rw [hlength]
    exact congrArg Except.ok (Prod.ext h rfl)

theorem Blind.findUsers {options : FindOptions} (h : Blind veil options) {engine : Engine}
    (hengine : ArrangesBlind veil engine) (halike : Alike veil db db') (now : Time) :
    (execRead engine now (.findUsers options) db).1 = (execRead engine now (.findUsers options) db').1 := by
  have hfound := congrArg (List.map (options.load db.preferences)) (h.arranged hengine halike)
  simp only [← h.map_load] at hfound
  obtain ⟨users, preferences, _⟩ := db
  obtain ⟨users', _, _⟩ := db'
  cases halike.preferences
  exact cut_map engine.toPaging _ hfound

/-- Identifiers and e-mails are not hidden. -/
theorem AlikeUsers.map_eq {A : Type} (h : AlikeUsers veil users users') {f : UsersModel → A}
    (hf : ∀ row, f (veil.hide row) = f row) : users.rows.map f = users'.rows.map f := by
  have hhidden : ∀ rows : List UsersModel, rows.map f = (rows.map veil.hide).map f := by
    intro rows
    rw [List.map_map]
    exact List.map_congr_left fun row _ => (hf row).symm
  exact (hhidden _).trans ((congrArg (List.map f) h.rows).trans (hhidden _).symm)

/-- Alike users satisfy the foreign key alike. -/
theorem AlikeUsers.refers_iff (h : AlikeUsers veil users users') (preferences : Table ids UserPreferencesModel) :
    Refers users preferences ↔ Refers users' preferences := by
  have hids : ∀ id, (∃ user ∈ users.rows, user.id = id) ↔ ∃ user ∈ users'.rows, user.id = id := by
    intro id
    rw [← List.mem_map, ← List.mem_map, h.map_eq veil.id]
  refine forall₂_congr fun preference _ => forall₂_congr fun userId _ => hids userId

theorem AlikeUsers.affected_eq (h : AlikeUsers veil users users') (text : String) :
    users.affected text = users'.affected text := by
  have hids := congrArg (List.countP fun id => ids.read text == some id) (h.map_eq veil.id)
  rw [List.countP_map, List.countP_map] at hids
  exact hids

theorem filterMap_unique (rows : List UsersModel) :
    rows.filterMap Record.unique = rows.map UsersModel.email :=
  congrFun List.filterMap_eq_map rows

theorem AlikeUsers.insert (h : AlikeUsers veil users users') {make : String → UsersModel}
    (hid : ∀ id, Record.id (make id) = id) :
    Option.Rel (AlikeUsers veil) (users.insert make hid) (users'.insert make hid) := by
  have hnext : users.nextId = users'.nextId := congrArg ids.hex h.inserted
  have hemails : (users.rows ++ [make users.nextId]).filterMap Record.unique =
      (users'.rows ++ [make users'.nextId]).filterMap Record.unique := by
    rw [filterMap_unique, filterMap_unique, List.map_append, List.map_append, h.map_eq veil.email, hnext]
  unfold Table.insert
  by_cases hunique : ((users'.rows ++ [make users'.nextId]).filterMap Record.unique).Nodup
  · rw [dif_pos hunique, dif_pos (hemails ▸ hunique)]
    refine .some ⟨?_, congrArg (· + 1) h.inserted⟩
    rw [List.map_append, List.map_append, h.rows, hnext]
  · rw [dif_neg hunique, dif_neg (hemails ▸ hunique)]
    exact .none

/-- Lists that one function maps alike are mapped alike by every function of what it
gives. -/
theorem map_eq_of_factors {A B C : Type} {f : A → B} {g : A → C} (hfactors : ∀ a b, f a = f b → g a = g b)
    {l l' : List A} (h : l.map f = l'.map f) : l.map g = l'.map g := by
  induction l generalizing l' with
  | nil =>
    obtain rfl : l' = [] := List.map_eq_nil_iff.mp h.symm
    rfl
  | cons a rest ih =>
    obtain ⟨b, rest', rfl, hhead, htail⟩ := List.map_eq_cons_iff.mp h.symm
    rw [List.map_cons, List.map_cons, hfactors a b hhead.symm, ih htail.symm]

theorem AlikeUsers.modify (h : AlikeUsers veil users users') (text : String) {change : UsersModel → UsersModel}
    (hid : ∀ row, Record.id (change row) = Record.id row)
    (hchange : ∀ a b, veil.hide a = veil.hide b → veil.hide (change a) = veil.hide (change b)) :
    Option.Rel (AlikeUsers veil) (users.modify text change hid) (users'.modify text change hid) := by
  have hrows : (Table.changeNamed ids text change users.rows).map veil.hide =
      (Table.changeNamed ids text change users'.rows).map veil.hide := by
    unfold Table.changeNamed
    rw [List.map_map, List.map_map]
    refine map_eq_of_factors (fun a b hab => ?_) h.rows
    have hsame : Record.id a = Record.id b := by
      change a.id = b.id
      rw [← veil.id a, hab, veil.id b]
    simp only [Function.comp_apply, hsame]
    split
    · exact hchange a b hab
    · exact hab
  have hemails : (Table.changeNamed ids text change users.rows).filterMap Record.unique =
      (Table.changeNamed ids text change users'.rows).filterMap Record.unique := by
    rw [filterMap_unique, filterMap_unique]
    refine map_eq_of_factors (fun a b hab => ?_) hrows
    rw [← veil.email a, hab, veil.email b]
  unfold Table.modify
  by_cases hunique : ((Table.changeNamed ids text change users'.rows).filterMap Record.unique).Nodup
  · rw [dif_pos hunique, dif_pos (hemails ▸ hunique)]
    exact .some ⟨hrows, h.inserted⟩
  · rw [dif_neg hunique, dif_neg (hemails ▸ hunique)]
    exact .none

theorem AlikeUsers.delete (h : AlikeUsers veil users users') (text : String) :
    AlikeUsers veil (users.delete text) (users'.delete text) := by
  refine ⟨?_, h.inserted⟩
  have hrows : ∀ table : Table ids UsersModel, (table.delete text).rows.map veil.hide =
      (table.rows.map veil.hide).filter fun row => ids.read text != some row.id := by
    intro table
    rw [List.filter_map]
    refine congrArg (List.map veil.hide) (List.filter_congr fun row _ => ?_)
    rw [Function.comp_apply, veil.id]
    rfl
  rw [hrows, hrows, h.rows]

/-- Statements on users that give alike tables, or none in both databases. -/
theorem Alike.changeUsers {R : Type} (h : Alike veil db db') {changed changed' : Option (Table ids UsersModel)}
    (hchanged : Option.Rel (AlikeUsers veil) changed changed') {reply reply' : R} (hreply : reply = reply') :
    (db.changeUsers changed reply).1 = (db'.changeUsers changed' reply').1 ∧
      Alike veil (db.changeUsers changed reply).2 (db'.changeUsers changed' reply').2 := by
  subst hreply
  cases hchanged with
  | none => exact ⟨rfl, h⟩
  | @some users users' husers =>
    have hrefers : Refers users db.preferences ↔ Refers users' db'.preferences := by
      rw [h.preferences]
      exact husers.refers_iff _
    unfold Database.changeUsers Database.change
    rw [Option.map_some, Option.map_some]
    by_cases hrefers' : Refers users' db'.preferences
    · simp only [dif_pos hrefers', dif_pos (hrefers.mpr hrefers')]
      exact ⟨trivial, husers, h.preferences⟩
    · simp only [dif_neg hrefers', dif_neg (mt hrefers.mp hrefers')]
      exact ⟨trivial, h⟩

theorem Alike.changePreferences {R : Type} (h : Alike veil db db')
    {changed changed' : Option (Table ids UserPreferencesModel)} (hchanged : changed = changed') {reply reply' : R}
    (hreply : reply = reply') :
    (db.changePreferences changed reply).1 = (db'.changePreferences changed' reply').1 ∧
      Alike veil (db.changePreferences changed reply).2 (db'.changePreferences changed' reply').2 := by
  subst hchanged hreply
  cases changed with
  | none => exact ⟨rfl, h⟩
  | some preferences =>
    have hrefers := h.users.refers_iff preferences
    unfold Database.changePreferences Database.change
    rw [Option.map_some, Option.map_some]
    by_cases hrefers' : Refers db'.users preferences
    · simp only [dif_pos hrefers', dif_pos (hrefers.mpr hrefers')]
      exact ⟨trivial, h.users, rfl⟩
    · simp only [dif_neg hrefers', dif_neg (mt hrefers.mp hrefers')]
      exact ⟨trivial, h⟩

theorem Alike.matching_preferences (h : Alike veil db db') (condition : PreferenceWhere) :
    condition.matching db = condition.matching db' := by
  have hlive : ∀ userId, db.users.rows.any (fun user => user.live && user.id == userId) =
      db'.users.rows.any fun user => user.live && user.id == userId := by
    intro userId
    have hmap := congrArg (fun rows => rows.any id)
      (h.users.map_eq (f := fun user => user.live && user.id == userId) fun row => by rw [veil.live, veil.id])
    simpa only [List.any_map, Function.id_comp] using hmap
  unfold PreferenceWhere.matching
  rw [h.preferences]
  simp only [hlive]

/-- Every request that is not refused is answered alike on alike databases, and leaves
them alike. -/
theorem Alike.execRead (h : Alike veil db db') {engine : Engine} (hengine : ArrangesBlind veil engine) (now : Time)
    {call : Call} (hcall : BlindCall veil call) :
    (execRead engine now call db).1 = (execRead engine now call db').1 ∧
      Alike veil (execRead engine now call db).2 (execRead engine now call db').2 := by
  cases call with
  | findUser options => exact ⟨hcall.findUser hengine h now, h⟩
  | findUsers options => exact ⟨hcall.findUsers hengine h now, h⟩
  | insertUser columns =>
    have hnext : db.users.nextId = db'.users.nextId := congrArg ids.hex h.users.inserted
    exact h.changeUsers (h.users.insert _) (by rw [hnext])
  | updateUser id columns =>
    exact h.changeUsers (h.users.modify id _ (veil.change columns now)) (h.users.affected_eq id)
  | softDeleteUser id =>
    exact h.changeUsers (h.users.modify id _ (veil.softDelete now)) (h.users.affected_eq id)
  | deleteUser id => exact h.changeUsers (.some (h.users.delete id)) (h.users.affected_eq id)
  | findPreference condition =>
    refine ⟨congrArg Except.ok ?_, h⟩
    rw [h.matching_preferences]
  | insertPreference columns =>
    exact h.changePreferences (by rw [h.preferences]) (by rw [h.preferences])
  | updatePreference id columns =>
    exact h.changePreferences (by rw [h.preferences]) (by rw [h.preferences])
  | softDeletePreference id =>
    exact h.changePreferences (by rw [h.preferences]) (by rw [h.preferences])
  | deletePreference id =>
    exact h.changePreferences (by rw [h.preferences]) (by rw [h.preferences])

/-- What is refused is refused whatever the tables hold. -/
theorem Alike.exec (h : Alike veil db db') {engine : Engine} (hengine : ArrangesBlind veil engine) (now : Time)
    {call : Call} (hcall : BlindCall veil call) :
    (exec engine now call db).1 = (exec engine now call db').1 ∧
      Alike veil (exec engine now call db).2 (exec engine now call db').2 := by
  unfold user_database.exec
  cases call.refusal ids with
  | some failure => exact ⟨rfl, h⟩
  | none => exact h.execRead hengine now hcall

theorem Alike.world_exec (h : Alike veil db db') {world : World} (hengine : ∀ n, ArrangesBlind veil (world.engine n))
    (n : Nat) {call : Call} (hcall : BlindCall veil call) :
    (world.exec n call db).1 = (world.exec n call db').1 ∧
      Alike veil (world.exec n call db).2 (world.exec n call db').2 := by
  unfold World.exec
  cases world.fault n with
  | some failure => exact ⟨rfl, h⟩
  | none => exact h.exec (hengine n) (world.clock n) hcall

/-- Rows in the order of their insertion are arranged without a look at what does not
take part in the order. -/
theorem stable_arrangesBlind (hkey : ∀ sortBy : SortBy, ∀ row, sortBy.key (veil.hide row) = sortBy.key row) :
    ArrangesBlind veil Engine.stable := by
  intro order rows
  have hprecedes : ∀ a b, precedes order (veil.hide a) (veil.hide b) ↔ precedes order a b := by
    intro a b
    obtain _ | ⟨sortBy, _ | _⟩ := order
    · exact Iff.rfl
    · change sortBy.key (veil.hide a) < sortBy.key (veil.hide b) ↔ sortBy.key a < sortBy.key b
      rw [hkey, hkey]
    · change sortBy.key (veil.hide b) < sortBy.key (veil.hide a) ↔ sortBy.key b < sortBy.key a
      rw [hkey, hkey]
  exact List.map_insertionSort _ _ veil.hide rows fun a _ b _ => (not_congr (hprecedes b a)).symm

end node_backend.user_database
