import NodeBackend.User.Listing
import NodeBackend.User.Specs

namespace node_backend.user_lookup

open js store program
open node_backend.exceptions node_backend.user_database node_backend.user_models node_backend.user_query
open node_backend.user_entity node_backend.abstract_repository node_backend.user_repository node_backend.user_specs

variable {ids : UuidSource}

theorem getById_eq (now : Time) (id : String) (withoutPassword : Bool) :
    getById now (some id) withoutPassword = abstract_repository.guarded
      (Program.perform (.findUser (queryById id withoutPassword)) >>= fun (result : Option UserValues) =>
        built (result.mapM (toDomainEntity now))) := rfl

section search

variable (engine : Engine) (time now : Time) (db : Database ids) (id : String) (withoutPassword : Bool)

/-- The live user that the lookup finds. -/
def firstUser : Option UsersModel :=
  (engine.arrange none ((queryById id withoutPassword).matching db.users db.preferences)).head?

/-- A lookup that the database does not refuse gives the user found, or nobody. -/
theorem run_getById (hread : (Call.findUser (queryById id withoutPassword)).refusal ids = none) :
    ∃ found, Program.run (exec engine time) (getById now (some id) withoutPassword) db = (.ok found, db) ∧
      found.map UserEntity.id = (firstUser engine db id withoutPassword).map fun user => some user.id := by
  let options := queryById id withoutPassword
  have hexec : exec engine time (.findUser options) db =
      (.ok ((firstUser engine db id withoutPassword).map (options.load db.preferences)), db) :=
    exec_of_readable hread
  have hrun : ∀ found, ((firstUser engine db id withoutPassword).map (options.load db.preferences)).mapM
        (toDomainEntity now) = .ok found →
      Program.run (exec engine time) (getById now (some id) withoutPassword) db = (.ok found, db) := by
    intro found hfound
    rw [getById_eq]
    apply Program.run_tryCatch_of_ok
    rw [Program.run_bind_of_ok _ ((Program.run_perform _ _ _).trans hexec), built_ok hfound, Program.run_done]
  cases hfirst : firstUser engine db id withoutPassword with
  | none =>
    rw [hfirst] at hrun
    exact ⟨none, hrun none rfl, rfl⟩
  | some user =>
    rw [hfirst] at hrun
    obtain ⟨entity, hentity, hid⟩ := exists_load_toDomainEntity now options db user
    exact ⟨some entity, hrun _ (mapM_some_ok hentity), congrArg some hid⟩

/-- The lookup gives its own user where the first one found is that user. -/
theorem getById_own_of_read {id : String} {withoutPassword : Bool}
    (hread : (Call.findUser (queryById id withoutPassword)).refusal ids = none) :
    (∀ entity, (Program.run (exec engine time) (getById now (some id) withoutPassword) db).1 = .ok (some entity) →
        entity.id = some id) ↔
      ∀ user, firstUser engine db id withoutPassword = some user → user.id = id := by
  obtain ⟨found, hrun, hfound⟩ := run_getById engine time now db id withoutPassword hread
  rw [hrun]
  constructor
  · intro hown user huser
    rw [huser, Option.map_some, Option.map_eq_some_iff] at hfound
    obtain ⟨entity, rfl, hid⟩ := hfound
    exact Option.some.inj (hid.symm.trans (hown entity rfl))
  · intro hfirst entity hentity
    rw [Except.ok.inj hentity, Option.map_some] at hfound
    obtain ⟨user, huser, hid⟩ := Option.map_eq_some_iff.mp hfound.symm
    rw [← hid, hfirst user huser]

theorem run_getById_error {id : String} {withoutPassword : Bool} {failure : Failure}
    (hrefused : (Call.findUser (queryById id withoutPassword)).refusal ids = some failure) :
    (Program.run (exec engine time) (getById now (some id) withoutPassword) db).1 = .error failure.asInternal := by
  have hexec : exec engine time (.findUser (queryById id withoutPassword)) db = (.error failure, db) :=
    exec_of_refused hrefused
  rw [getById_eq, abstract_repository.guarded, Program.run_tryCatch,
    Program.run_bind_of_error _ ((Program.run_perform _ _ _).trans hexec)]
  rfl

end search

theorem firstUser_mem {engine : Engine} {db : Database ids} {id : String} {withoutPassword : Bool} {user : UsersModel}
    (h : firstUser engine db id withoutPassword = some user) :
    user ∈ (queryById id withoutPassword).matching db.users db.preferences :=
  (engine.perm _ _).mem_iff.mp (List.mem_of_head? h)

/-- Where a live user meets the query, the lookup finds one that does. -/
theorem exists_firstUser (engine : Engine) {db : Database ids} {id : String} {withoutPassword : Bool}
    {user : UsersModel} (h : user ∈ (queryById id withoutPassword).matching db.users db.preferences) :
    ∃ first, firstUser engine db id withoutPassword = some first := by
  apply Option.isSome_iff_exists.mp
  rw [firstUser, List.isSome_head?]
  exact List.ne_nil_of_mem ((engine.perm none _).mem_iff.mpr h)

/-- Without an identifier every live user meets the query. -/
theorem mem_queryById_empty {withoutPassword : Bool} {db : Database ids} {user : UsersModel} :
    user ∈ (queryById "" withoutPassword).matching db.users db.preferences ↔
      user ∈ db.users.rows ∧ user.live = true := by
  have hfilters : (queryById "" withoutPassword).filters = [{}] := rfl
  rw [mem_matching hfilters]
  simp [UserWhere.holds, equals]

/-- A lookup by the empty text gives its own user only where there is nobody to give. -/
theorem getById_own_empty (engine : Engine) (time now : Time) (db : Database ids) (withoutPassword : Bool) :
    (∀ entity, (Program.run (exec engine time) (getById now (some "") withoutPassword) db).1 = .ok (some entity) →
        entity.id = some "") ↔ ∀ user ∈ db.users.rows, user.live = false := by
  rw [getById_own_of_read engine time now db rfl]
  constructor
  · intro hown user huser
    by_contra hlive
    rw [Bool.not_eq_false] at hlive
    have hmem : user ∈ (queryById "" withoutPassword).matching db.users db.preferences :=
      mem_queryById_empty.mpr ⟨huser, hlive⟩
    obtain ⟨first, hfirst⟩ := exists_firstUser engine hmem
    exact db.users.id_nonempty (mem_queryById_empty.mp (firstUser_mem hfirst)).1 (hown first hfirst)
  · intro hdead user hfirst
    obtain ⟨huser, hlive⟩ := mem_queryById_empty.mp (firstUser_mem hfirst)
    rw [hdead user huser] at hlive
    cases hlive

theorem getById_own_of_ne (engine : Engine) (time now : Time) (db : Database ids) {id : String} (hid : id ≠ "")
    (withoutPassword : Bool) :
    (∀ entity, (Program.run (exec engine time) (getById now (some id) withoutPassword) db).1 = .ok (some entity) →
        entity.id = some id) ↔
      ∀ user ∈ db.users.rows, user.live = true → ids.read id = some user.id → user.id = id := by
  have hidentifiers : (Call.findUser (queryById id withoutPassword)).identifiers = [id] := by
    change (queryById id withoutPassword).filters.filterMap UserWhere.id = [id]
    rw [queryById_filters hid]
    rfl
  cases hread : ids.read id with
  | none =>
    have hrefused : (Call.findUser (queryById id withoutPassword)).refusal ids = some (invalidUuid id) := by
      unfold Call.refusal
      rw [hidentifiers, List.find?_cons_of_pos (by rw [hread]; rfl)]
      rfl
    rw [run_getById_error engine time now db hrefused]
    simp
  | some known =>
    have hreadable : (Call.findUser (queryById id withoutPassword)).refusal ids = none := by
      apply refusal_eq_none_iff.mpr
      rw [hidentifiers]
      exact exists_read_of_mem hread
    rw [getById_own_of_read engine time now db hreadable]
    constructor
    · intro hown user huser hlive hknown
      have hmem : user ∈ (queryById id withoutPassword).matching db.users db.preferences :=
        (mem_queryById hid).mpr ⟨huser, hlive, hread.trans hknown⟩
      obtain ⟨first, hfirst⟩ := exists_firstUser engine hmem
      have hsame : ids.read id = some first.id := ((mem_queryById hid).mp (firstUser_mem hfirst)).2.2
      rw [hread, hknown] at hsame
      rw [Option.some.inj hsame, hown first hfirst]
    · intro hspelled user hfirst
      obtain ⟨huser, hlive, hsame⟩ := (mem_queryById hid).mp (firstUser_mem hfirst)
      exact hspelled user huser hlive (hread.symm.trans hsame)

/-- A lookup gives nobody but the user of the identifier exactly if the identifier
is the way the table spells it, and is not the empty text while a user is live. -/
theorem getById_own_iff (engine : Engine) (time now : Time) (db : Database ids) (id : String)
    (withoutPassword : Bool) :
    (∀ entity, (Program.run (exec engine time) (getById now (some id) withoutPassword) db).1 = .ok (some entity) →
        entity.id = some id) ↔
      if id = "" then ∀ user ∈ db.users.rows, user.live = false
      else ∀ user ∈ db.users.rows, user.live = true → ids.read id = some user.id → user.id = id := by
  by_cases hid : id = ""
  · subst hid
    rw [if_pos rfl]
    exact getById_own_empty engine time now db withoutPassword
  · rw [if_neg hid]
    exact getById_own_of_ne engine time now db hid withoutPassword

/-- The empty text finds the older of two users. -/
theorem getById_empty_finds :
    ¬ ∀ (db : Database UuidSource.counting) (id : String) (withoutPassword : Bool) (entity : UserEntity),
      (Program.run (exec Engine.stable Time.epoch) (getById Time.epoch (some id) withoutPassword) db).1 =
        .ok (some entity) → entity.id = some id := by
  intro hclaim
  obtain ⟨found, hrun, hfound⟩ := run_getById Engine.stable Time.epoch Time.epoch twoUsers "" true rfl
  have hfirst : firstUser Engine.stable twoUsers "" true = some olderUser := rfl
  rw [hfirst, Option.map_some, Option.map_eq_some_iff] at hfound
  obtain ⟨entity, rfl, hid⟩ := hfound
  have hown := hclaim twoUsers "" true entity (by rw [hrun])
  rw [hid] at hown
  exact absurd (Option.some.inj hown) (twoUsers.users.id_nonempty List.mem_cons_self)

end node_backend.user_lookup
