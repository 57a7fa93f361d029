import NodeBackend.Program.Simulation
import NodeBackend.User.Usecases

namespace node_backend.user_calls

open js program
open node_backend.exceptions node_backend.user_database node_backend.user_models node_backend.user_query
open node_backend.user_entity node_backend.user_preference_entity node_backend.abstract_repository
open node_backend.user_repository node_backend.user_service node_backend.user_strategy node_backend.user_usecases

variable {A : Type} {Kind : Call → Prop}

theorem guarded_only {method : Promise A} (h : method.Only Kind) : (abstract_repository.guarded method).Only Kind :=
  h.tryCatch fun _ => trivial

theorem service_guarded_only {method : Promise A} (h : method.Only Kind) : (user_service.guarded method).Only Kind :=
  h.tryCatch fun _ => trivial

theorem throw_only (failure : Failure) : (Program.throw failure : Promise A).Only Kind :=
  trivial

theorem built_only (outcome : Except ErrorInterface A) : (built outcome).Only Kind :=
  Program.only_ofExcept _

theorem perform_only {call : Call} (h : Kind call) : (user_database.perform call).Only Kind :=
  Program.only_perform h

/-- What follows a criterion has the identifier that was given. -/
theorem criteria_bind_only (method : String) {id : Option String} {f : String → Promise A}
    (h : ∀ text ∈ id, (f text).Only Kind) : (criteria method id >>= f).Only Kind := by
  unfold criteria
  cases hgiven : given id with
  | none => trivial
  | some text => exact h text (Option.filter_eq_some_iff.mp hgiven).1

theorem findOne_only (now : Time) {condition : UserWhere} (h : Kind (.findUser (findOptions condition))) :
    (user_repository.findOne now condition).Only Kind :=
  guarded_only ((perform_only h).bind fun _ => built_only _)

theorem preference_findOne_only (now : Time) {condition : PreferenceWhere} (h : Kind (.findPreference condition)) :
    (user_preference_repository.findOne now condition).Only Kind :=
  guarded_only ((perform_only h).bind fun _ => built_only _)

theorem getById_only (clock : Clock) {id : Option String}
    (h : Kind (.findUser (buildParams { id := id, withoutSensitiveData := false, withoutPassword := true }))) :
    (user_service.getById clock id).Only Kind := by
  refine service_guarded_only (Program.Only.bind
    (guarded_only ((perform_only h).bind fun _ => built_only _)) fun user => ?_)
  cases user <;> trivial

theorem getByUserId_only (clock : Clock) {userId : Option String} (h : Kind (.findPreference { user := userId })) :
    (user_preference_service.getByUserId clock userId).Only Kind := by
  refine service_guarded_only ((preference_findOne_only _ h).bind fun preference => ?_)
  cases preference <;> trivial

theorem reread_only (clock : Clock) {id : Option String}
    (huser : Kind (.findUser (buildParams { id := id, withoutSensitiveData := false, withoutPassword := true })))
    (hpreference : Kind (.findPreference { user := id })) : (reread clock id).Only Kind :=
  (Program.Only.all (getById_only clock huser) (getByUserId_only _ hpreference)).bind fun _ => trivial

/-- AbstractRepository.update sets and finds. -/
theorem repository_update_only {Values Entity : Type} {set : String → Promise Nat} {find : Promise (Option Values)}
    {toDomainEntity : Values → Except ErrorInterface Entity} {id : Option String}
    (hset : ∀ text ∈ id, (set text).Only Kind) (hfind : find.Only Kind) :
    (abstract_repository.update set find toDomainEntity id).Only Kind :=
  guarded_only (criteria_bind_only _ fun text htext => (hset text htext).bind fun _ => hfind.bind fun _ => built_only _)

theorem update_only (clock : Clock) (cryptography : Cryptography) {id : Option String} {data : UserInput}
    (hset : ∀ text ∈ id, ∀ entity password, user_entity.construct (clock 0) data.userValues = .ok entity →
      Kind (.updateUser text (user_service.updatedColumns entity password)))
    (hfind : Kind (.findUser (findOptions { id := id }))) :
    (user_service.update clock cryptography id data).Only Kind := by
  unfold user_service.update
  cases hentity : user_entity.construct (clock 0) data.userValues with
  | error e => trivial
  | ok entity =>
    refine service_guarded_only ((Program.only_ofExcept _).bind fun password => Program.Only.bind ?_ fun updated => ?_)
    · exact repository_update_only (fun text htext => perform_only (hset text htext entity password hentity))
        (perform_only hfind)
    · cases updated <;> trivial

theorem preference_update_only (clock : Clock) {id : Option String} {data : PreferenceInput}
    (hset : ∀ text ∈ id, ∀ entity, Kind (.updatePreference text (user_preference_service.updatedColumns entity)))
    (hfind : Kind (.findPreference { id := id })) : (user_preference_service.update clock id data).Only Kind := by
  refine (built_only _).bind fun entity => service_guarded_only (Program.Only.bind ?_ fun updated => ?_)
  · exact repository_update_only (fun text htext => perform_only (hset text htext entity)) (perform_only hfind)
  · cases updated <;> trivial

/-- A soft removal of what an identifier names. -/
theorem remove_only {softDelete hardDelete : String → Promise Nat} {id : Option String}
    (h : ∀ text ∈ id, (softDelete text).Only Kind) : (remove softDelete hardDelete id true).Only Kind :=
  (criteria_bind_only _ h).bind fun _ => trivial

theorem delete_only {id agentUserId : Option String}
    (hset : ∀ text ∈ id, Kind (.updateUser text { deletedBy := some (some (agentUserId.getD "undefined")) }))
    (hremove : ∀ text ∈ id, Kind (.softDeleteUser text)) : (user_service.delete id true agentUserId).Only Kind :=
  service_guarded_only (guarded_only (criteria_bind_only _ fun text htext =>
    (perform_only (hset text htext)).bind fun _ => remove_only fun text htext => perform_only (hremove text htext)))

theorem preference_delete_only {id : Option String} (h : ∀ text ∈ id, Kind (.softDeletePreference text)) :
    (user_preference_service.delete id true).Only Kind :=
  service_guarded_only (guarded_only (remove_only fun text htext => perform_only (h text htext)))

theorem validatePermission_only (action : String) (agentUser : UserAuthInterface) (user : UserEntity) :
    (validatePermission action agentUser user).Only Kind := by
  unfold validatePermission
  split <;> trivial

theorem writeUser_only (clock : Clock) (cryptography : Cryptography) {user : UserEntity} {data : UserInput}
    (hset : ∀ text ∈ user.id, ∀ entity password, user_entity.construct (clock 2) data.userValues = .ok entity →
      Kind (.updateUser text (user_service.updatedColumns entity password)))
    (hfind : Kind (.findUser (findOptions { id := user.id }))) :
    (writeUser clock cryptography user data).Only Kind := by
  unfold writeUser
  split
  · exact (update_only _ _ hset hfind).bind fun _ => trivial
  · trivial

theorem writePreference_only (clock : Clock) {preference : UserPreferenceEntity} (data : Option PreferenceInput)
    (hset : ∀ text ∈ preference.id, ∀ entity,
      Kind (.updatePreference text (user_preference_service.updatedColumns entity)))
    (hfind : Kind (.findPreference { id := preference.id })) : (writePreference clock preference data).Only Kind := by
  cases data with
  | none => trivial
  | some input =>
    unfold writePreference
    dsimp only
    split
    · exact (preference_update_only _ hset hfind).bind fun _ => trivial
    · trivial

end node_backend.user_calls
