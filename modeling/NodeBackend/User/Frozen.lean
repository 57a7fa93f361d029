import NodeBackend.User.Turns

namespace node_backend.user_requests

open js store program
open node_backend.exceptions node_backend.user_database node_backend.user_models node_backend.user_query
open node_backend.user_entity node_backend.user_preference_entity node_backend.abstract_repository
open node_backend.user_repository node_backend.user_service node_backend.user_specs node_backend.user_strategy
open node_backend.user_calls node_backend.user_usecases

variable {ids : UuidSource} {mayFail : Prop} {db db' : Database ids} {userId : String}

def UserGone (userId : String) (db : Database ids) : Prop :=
  ∀ row ∈ db.users.rows, row.id = userId → row.live = false

def PreferenceGone (userId : String) (db : Database ids) : Prop :=
  ∀ row ∈ db.preferences.rows, row.userId = some userId → row.live = false

section gone

theorem forall_of_forall₂ {Row : Type} {R : Row → Row → Prop} {P : Row → Prop} {rows rows' : List Row}
    (h : List.Forall₂ R rows rows') (hrow : ∀ row row', R row row' → P row → P row') (hrows : ∀ row ∈ rows, P row) :
    ∀ row' ∈ rows', P row' := by
  induction h with
  | nil => exact hrows
  | cons hR _ ih =>
    obtain ⟨hfirst, hrest⟩ := List.forall_mem_cons.mp hrows
    exact List.forall_mem_cons.mpr ⟨hrow _ _ hR hfirst, ih hrest⟩

theorem UserGone.stays {other : Option String} (h : UserGone userId db) (hchange : ChangesOnly other db db') :
    UserGone userId db' := by
  refine forall_of_forall₂ hchange.users ?_ h
  rintro row row' ⟨hid, hlive, _⟩ hgone hsame
  exact hlive (hgone (hid.symm.trans hsame))

theorem PreferenceGone.stays {other : Option String} (h : PreferenceGone userId db)
    (hchange : ChangesOnly other db db') :
    PreferenceGone userId db' := by
  refine forall_of_forall₂ hchange.preferences ?_ h
  rintro row row' ⟨_, huserId, hlive, _⟩ hgone hsame
  exact hlive (hgone (huserId.symm.trans hsame))

def SoftDeletesUser : Call → Prop
  | .softDeleteUser _ => True
  | _ => False

def SoftDeletesPreference : Call → Prop
  | .softDeletePreference _ => True
  | _ => False

theorem SoftDeletesUser.not_finds {call : Call} (h : SoftDeletesUser call) : ¬ Finds call := by
  cases call <;> first | exact id | exact h.elim

theorem SoftDeletesPreference.not_finds {call : Call} (h : SoftDeletesPreference call) : ¬ Finds call := by
  cases call <;> first | exact id | exact h.elim

theorem userGone_of_softDelete {call : Call} {reply : call.Reply} (h : SoftDeletesUser call)
    (hmanages : Manages ids db.owners (some userId) call) (hstep : step mayFail call db (.ok reply) db') :
    UserGone userId db' := by
  cases call with
  | softDeleteUser text =>
    obtain ⟨id, now, hread, hrows, _⟩ := softDeleteUser_effect hstep
    obtain ⟨other, hother, hsame⟩ := hmanages.user text rfl
    cases hother
    cases hread.symm.trans hsame
    intro row hrow hid
    rw [hrows] at hrow
    obtain ⟨old, _, rfl⟩ := List.mem_map.mp hrow
    split at hid
    · next hsame =>
      rw [if_pos hsame]
      rfl
    · next hnot => exact absurd hid hnot
  | _ => exact h.elim

theorem preferenceGone_of_softDelete {call : Call} {reply : call.Reply} (h : SoftDeletesPreference call)
    (hmanages : Manages ids db.owners (some userId) call) (hstep : step mayFail call db (.ok reply) db') :
    PreferenceGone userId db' := by
  cases call with
  | softDeletePreference text =>
    obtain ⟨id, now, hread, hrows, _⟩ := softDeletePreference_effect hstep
    obtain ⟨other, hsame, owner, howner, hmem⟩ := hmanages.preference text rfl
    cases howner
    cases hread.symm.trans hsame
    obtain ⟨own, hown, heq⟩ := List.mem_map.mp hmem
    obtain ⟨rfl, hownUser⟩ := Prod.mk.inj heq
    intro row hrow huserId
    rw [hrows] at hrow
    obtain ⟨old, hold, rfl⟩ := List.mem_map.mp hrow
    by_cases hsame : old.id = own.id
    · rw [if_pos hsame]
      rfl
    · rw [if_neg hsame] at huserId
      exact absurd (congrArg UserPreferencesModel.id (db.preferences.eq_of_unique_eq hold hown huserId hownUser)) hsame
  | _ => exact h.elim

end gone

/-- Every reply but a preference of the user. -/
def Missed (ids : UuidSource) (userId : String) : (call : Call) → Except Failure call.Reply → Prop
  | .findPreference condition, .ok (some _) => condition.user.bind ids.read ≠ some userId
  | _, _ => True

/-- A read of the preference of the user. -/
def ReadsPreference (ids : UuidSource) (userId : String) : Call → Prop
  | .findPreference condition => condition.user.bind ids.read = some userId
  | _ => False

theorem missed_or_reads {call : Call} (reply : Except Failure call.Reply) :
    Missed ids userId call reply ∨ ReadsPreference ids userId call := by
  cases call with
  | findPreference condition =>
    by_cases hsame : condition.user.bind ids.read = some userId
    · exact Or.inr hsame
    · cases reply with
      | error failure => exact Or.inl trivial
      | ok found => cases found with
        | none => exact Or.inl trivial
        | some values => exact Or.inl hsame
  | _ => exact Or.inl trivial

/-- Once the preference is gone it is not found. -/
theorem missed_of_gone (hgone : PreferenceGone userId db) {call : Call} {reply : Except Failure call.Reply}
    (hstep : step mayFail call db reply db') : Missed ids userId call reply := by
  cases call with
  | findPreference condition =>
    cases reply with
    | error failure => trivial
    | ok found => cases found with
      | none => trivial
      | some values =>
        intro hsame
        obtain ⟨_, engine, now, hexec⟩ := step_ok hstep
        obtain ⟨row, hrow, _⟩ := Option.map_eq_some_iff.mp (Except.ok.inj (Prod.mk.inj hexec).1)
        obtain ⟨hmem, hlive, _, huser⟩ := mem_preference_matching.mp (List.mem_of_head? hrow)
        obtain ⟨text, htext, hread⟩ := Option.bind_eq_some_iff.mp hsame
        obtain ⟨other, hother, huserId, _⟩ := huser text htext
        cases hread.symm.trans hother
        rw [hgone row hmem huserId] at hlive
        cases hlive
  | _ => trivial

section executions

variable (clock : Clock) (cryptography : Cryptography) (data : UserInput) (agentUser : Option UserAuthInterface)

/-- An update that does not find the preference only reads. -/
theorem updateUser_missed {text : String} (hread : ids.read text = some userId) :
    (updateUser clock cryptography text data agentUser).Confined (Missed ids userId) Finds fun _ => True := by
  unfold updateUser
  split
  · apply (Program.Only.confined (getById_only clock trivial)).bind
    intro user _
    refine Program.Confined.bind (R := fun _ => False) ⟨trivial, fun reply hreply => ?_⟩ fun _ h => h.elim
    cases reply with
    | error failure => trivial
    | ok found => cases found with
      | none => trivial
      | some values => exact (hreply hread).elim
  · trivial

theorem remove_needs {Kind : Call → Prop} {softDelete hardDelete : String → Promise Nat} (id : Option String)
    (h : ∀ text, (softDelete text).Needs Kind) : (remove softDelete hardDelete id true).Needs Kind :=
  Program.Needs.bind (Program.needs_bind h)

theorem preference_delete_needs (id : Option String) :
    (user_preference_service.delete id true).Needs SoftDeletesPreference :=
  Program.Needs.rethrow (Program.Needs.rethrow (remove_needs id fun _ => Program.needs_perform trivial) _) _

theorem delete_needs (id agentUserId : Option String) :
    (user_service.delete id true agentUserId).Needs SoftDeletesUser :=
  Program.Needs.rethrow (Program.Needs.rethrow (Program.needs_bind fun _ => Program.needs_bind fun _ =>
    remove_needs id fun _ => Program.needs_perform trivial) _) _

/-- A deletion that returns has deleted the preference and then the user. -/
theorem deleteUser_needs (text : String) : (deleteUser clock text agentUser).Needs SoftDeletesPreference ∧
    (deleteUser clock text agentUser).Needs SoftDeletesUser := by
  unfold deleteUser
  split
  · constructor
    · exact Program.needs_bind fun _ => Program.needs_bind fun _ => Program.needs_bind fun _ =>
        (preference_delete_needs _).bind
    · exact Program.needs_bind fun _ => Program.needs_bind fun _ => Program.needs_bind fun _ =>
        Program.needs_bind fun _ => (delete_needs _ _).bind
  · exact ⟨trivial, trivial⟩

end executions

/-- One deletion of a user, and updates of the same user, by texts that spell its
identifier. -/
structure DeletionRace (ids : UuidSource) (requests : List Request) (deleter : Nat) (userId : String) : Prop where
  deletion : ∃ request text, requests[deleter]? = some request ∧ request.action = .delete text ∧
    ids.read text = some userId
  updates : ∀ thread request, requests[thread]? = some request → thread ≠ deleter →
    ∃ text data, request.action = .update text data ∧ ids.read text = some userId

/-- The preference of the user was read for a request before the deletion deleted
the preference. -/
def ReadBefore (ids : UuidSource) (userId : String) (deleter thread : Nat) (history : List (Nat × Call)) : Prop :=
  After (fun entry => entry.1 = thread ∧ ReadsPreference ids userId entry.2)
    (fun entry => entry.1 = deleter ∧ SoftDeletesPreference entry.2) history

/-- The computation of a thread, if there is one, makes a call of the kind before it
has a result. -/
def StillNeeds (Kind : Call → Prop) (thread : Nat) (pool : Pool ids) : Prop :=
  ∀ p, pool.threads[thread]? = some p → p.Needs Kind

/-- What an update may be up to: it was early enough to find the preference, or it
only reads until it finds it, or it has read before the deletion deletes. -/
def UpdateStage (userId : String) (deleter thread : Nat) (pool : Pool ids) : Prop :=
  ReadBefore ids userId deleter thread pool.history ∨
    (∀ p, pool.threads[thread]? = some p → p.Confined (Missed ids userId) Finds fun _ => True) ∨
    (∃ entry ∈ pool.history, entry.1 = thread ∧ ReadsPreference ids userId entry.2) ∧
      StillNeeds SoftDeletesPreference deleter pool

structure Racing (userId : String) (deleter : Nat) (pool : Pool ids) : Prop where
  user : UserGone userId pool.db ∨ StillNeeds SoftDeletesUser deleter pool
  preference : PreferenceGone userId pool.db ∨ StillNeeds SoftDeletesPreference deleter pool
  stage : ∀ thread, thread ≠ deleter → UpdateStage userId deleter thread pool

section race

variable {requests : List Request} {deleter : Nat} {pool : Pool ids} {world : World}

theorem DeletionRace.target (h : DeletionRace ids requests deleter userId) {thread : Nat} {request : Request}
    (hrequest : requests[thread]? = some request) :
    ∃ text, request.action.target = some text ∧ ids.read text = some userId := by
  by_cases hthread : thread = deleter
  · subst hthread
    obtain ⟨other, text, hother, haction, hread⟩ := h.deletion
    cases hrequest.symm.trans hother
    refine ⟨text, ?_, hread⟩
    rw [haction]
    rfl
  · obtain ⟨text, data, haction, hread⟩ := h.updates thread request hrequest hthread
    refine ⟨text, ?_, hread⟩
    rw [haction]
    rfl

theorem DeletionRace.targets (h : DeletionRace ids requests deleter userId) :
    ∀ request ∈ requests, request.action.target.isSome = true := by
  intro request hrequest
  obtain ⟨thread, hthread⟩ := List.getElem?_of_mem hrequest
  obtain ⟨text, htarget, _⟩ := h.target hthread
  rw [htarget]
  rfl

theorem start_racing (h : DeletionRace ids requests deleter userId) (db : Database ids) :
    Racing userId deleter (program.Pool.start (0, db) (requests.map Request.execute)) := by
  have hthread : ∀ (thread : Nat) p, (requests.map Request.execute)[thread]? = some p →
      ∃ request : Request, requests[thread]? = some request ∧ p = request.execute := by
    intro thread p hp
    rw [List.getElem?_map] at hp
    obtain ⟨request, hrequest, rfl⟩ := Option.map_eq_some_iff.mp hp
    exact ⟨request, hrequest, rfl⟩
  have hdeleter : ∀ p, (requests.map Request.execute)[deleter]? = some p →
      p.Needs SoftDeletesPreference ∧ p.Needs SoftDeletesUser := by
    intro p hp
    obtain ⟨request, hrequest, rfl⟩ := hthread deleter p hp
    obtain ⟨⟨clock, cryptography, agentUser, action⟩, text, hother, rfl, _⟩ := h.deletion
    cases hrequest.symm.trans hother
    exact deleteUser_needs clock agentUser text
  refine ⟨Or.inr fun p hp => (hdeleter p hp).2, Or.inr fun p hp => (hdeleter p hp).1, ?_⟩
  intro thread hother
  refine Or.inr (Or.inl fun p hp => ?_)
  obtain ⟨⟨clock, cryptography, agentUser, action⟩, hrequest, rfl⟩ := hthread thread p hp
  obtain ⟨text, data, rfl, hread⟩ := h.updates thread _ hrequest hother
  exact (updateUser_missed clock cryptography data agentUser hread).bind fun _ _ => trivial

theorem readBefore_snoc {thread : Nat} {history : List (Nat × Call)} {entry : Nat × Call} :
    ReadBefore ids userId deleter thread (history ++ [entry]) ↔ ReadBefore ids userId deleter thread history ∨
      (∃ first ∈ history, first.1 = thread ∧ ReadsPreference ids userId first.2) ∧
        entry.1 = deleter ∧ SoftDeletesPreference entry.2 :=
  after_snoc

/-- What a turn does to the stage of an update. -/
theorem UpdateStage.advance {thread other : Nat} {call : Call}
    {next : Except Failure call.Reply → Program Call Call.Reply Failure Unit}
    (h : UpdateStage userId deleter other pool)
    (hother : other ≠ deleter) (hthread : pool.threads[thread]? = some (.await call next))
    (hpreference : PreferenceGone userId pool.db ∨ StillNeeds SoftDeletesPreference deleter pool) :
    UpdateStage userId deleter other (pool.advance (numbered world.exec) thread call next) := by
  have hneeds : StillNeeds SoftDeletesPreference deleter pool →
      StillNeeds SoftDeletesPreference deleter (pool.advance (numbered world.exec) thread call next) ∨
        thread = deleter ∧ SoftDeletesPreference call := fun hstill =>
    (program.Pool.needs_advance hstill hthread).imp_right fun hmade => ⟨hmade.1, hmade.2.1⟩
  obtain hread | hmissed | ⟨⟨entry, hentry, hfirst⟩, hstill⟩ := h
  · exact Or.inl (readBefore_snoc.mpr (Or.inl hread))
  · by_cases hsame : other = thread
    · subst hsame
      obtain ⟨hfinds, hnext⟩ := hmissed _ hthread
      by_cases hreply : Missed ids userId call (numbered world.exec call pool.state).1
      · refine Or.inr (Or.inl fun p hp => ?_)
        rw [program.Pool.getElem?_advance _ hthread, if_pos rfl] at hp
        cases hp
        exact hnext _ hreply
      · have hreads : ReadsPreference ids userId call :=
          (missed_or_reads (numbered world.exec call pool.state).1).resolve_left hreply
        have hstill := hpreference.resolve_left fun hgone => hreply (missed_of_gone hgone (numbered_step world call _))
        refine Or.inr (Or.inr ⟨⟨(other, call), List.mem_append_right _ (List.mem_singleton.mpr rfl), rfl, hreads⟩, ?_⟩)
        exact (hneeds hstill).resolve_right fun hmade => hother hmade.1
    · refine Or.inr (Or.inl fun p hp => hmissed p ?_)
      rw [program.Pool.getElem?_advance _ hthread, if_neg hsame] at hp
      exact hp
  · obtain hlater | ⟨hdeleter, hdeletes⟩ := hneeds hstill
    · exact Or.inr (Or.inr ⟨⟨entry, List.mem_append_left _ hentry, hfirst⟩, hlater⟩)
    · exact Or.inl (readBefore_snoc.mpr (Or.inr ⟨⟨entry, hentry, hfirst⟩, hdeleter, hdeletes⟩))

/-- What a call of the deletion brings about is so for good, or is still to come. -/
theorem gone_or_needs_advance {Kind : Call → Prop} {Gone : Database ids → Prop} {thread : Nat} {call : Call}
    {next : Except Failure call.Reply → Program Call Call.Reply Failure Unit}
    (hthread : pool.threads[thread]? = some (.await call next))
    (hstays : Gone pool.db → Gone (Pool.db (pool.advance (numbered world.exec) thread call next)))
    (hdeletes : ∀ reply, Kind call → (numbered world.exec call pool.state).1 = .ok reply →
      Gone (Pool.db (pool.advance (numbered world.exec) thread call next)))
    (h : Gone pool.db ∨ StillNeeds Kind deleter pool) :
    Gone (Pool.db (pool.advance (numbered world.exec) thread call next)) ∨
      StillNeeds Kind deleter (pool.advance (numbered world.exec) thread call next) := by
  obtain hgone | hneeds := h
  · exact Or.inl (hstays hgone)
  · obtain hstill | ⟨_, hkind, reply, hreply⟩ := program.Pool.needs_advance hneeds hthread
    · exact Or.inr hstill
    · exact Or.inl (hdeletes reply hkind hreply)

/-- A turn of the deletion that deletes does so for good. -/
theorem Racing.advance {owners : List (String × Option String)} (hrace : DeletionRace ids requests deleter userId)
    (horderly : pool.Orderly (Possible ids owners) (ManagesAs ids requests owners) fun s => s.2.owners = owners)
    (h : Racing userId deleter pool) {thread : Nat} {call : Call}
    {next : Except Failure call.Reply → Program Call Call.Reply Failure Unit}
    (hthread : pool.threads[thread]? = some (.await call next)) :
    Racing userId deleter (pool.advance (numbered world.exec) thread call next) := by
  have howners : pool.db.owners = owners := horderly.state
  have hstep := numbered_step world call pool.state
  obtain ⟨request, hrequest, text, htarget, hown, _⟩ := horderly.kind hthread
  obtain ⟨other, hsame, hread⟩ := hrace.target hrequest
  cases hsame.symm.trans htarget
  subst howners
  have hchange : ChangesOnly (clientId? request.agentUser) pool.db
      (Pool.db (pool.advance (numbered world.exec) thread call next)) :=
    hown.manages.changesOnly hstep
  have hwrites : ¬ Finds call → Manages ids pool.db.owners (some userId) call := by
    intro hnot
    obtain ⟨id, hid, _, hmanages⟩ := hown.resolve_left hnot
    cases hread.symm.trans hid
    exact hmanages
  refine ⟨?_, ?_, fun other hother => (h.stage other hother).advance hother hthread h.preference⟩
  · refine gone_or_needs_advance hthread (fun hgone => hgone.stays hchange) (fun reply hdeletes hreply => ?_) h.user
    rw [hreply] at hstep
    exact userGone_of_softDelete hdeletes (hwrites hdeletes.not_finds) hstep
  · refine gone_or_needs_advance hthread (fun hgone => hgone.stays hchange) (fun reply hdeletes hreply => ?_)
      h.preference
    rw [hreply] at hstep
    exact preferenceGone_of_softDelete hdeletes (hwrites hdeletes.not_finds) hstep

theorem afterTurns_racing (hrace : DeletionRace ids requests deleter userId) (world : World) (db : Database ids)
    (turns : List Nat) : Racing userId deleter (afterTurns world requests db turns) := by
  refine (program.Pool.afterTurns_invariant (P := fun pool : Pool ids => pool.Orderly (Possible ids db.owners)
    (ManagesAs ids requests db.owners) (fun s => s.2.owners = db.owners) ∧ Racing userId deleter pool)
    ⟨start_orderly hrace.targets db, start_racing hrace db⟩ ?_ turns).2
  rintro pool thread call next ⟨horderly, h⟩ hthread
  exact ⟨horderly.advance (orderly_numbered world) hthread, h.advance hrace horderly hthread⟩

/-- Once the deletion has returned, the user and the preference are deleted for good,
and a turn of an update changes nothing unless the update had read the preference
before the deletion deleted it. Even then it changes nothing that tells of the deletion. -/
theorem frozen_unless_read (hrace : DeletionRace ids requests deleter userId) (world : World) (db : Database ids)
    (turns : List Nat) (hdone : (afterTurns world requests db turns).threads[deleter]? = some (.done ())) {thread : Nat}
    (hthread : thread ≠ deleter) :
    UserGone userId (afterTurns world requests db turns).db ∧
    PreferenceGone userId (afterTurns world requests db turns).db ∧
    ((afterTurns world requests db turns).turn world thread).db.marks = (afterTurns world requests db turns).db.marks ∧
    (((afterTurns world requests db turns).turn world thread).db = (afterTurns world requests db turns).db ∨
      ReadBefore ids userId deleter thread (afterTurns world requests db turns).history) := by
  have hracing := afterTurns_racing hrace world db turns
  have horderly := afterTurns_orderly hrace.targets world db turns
  refine ⟨hracing.user.resolve_right fun h => h _ hdone, hracing.preference.resolve_right fun h => h _ hdone, ?_⟩
  obtain hsame | ⟨call, next, hcall, heq⟩ := program.Pool.turn_cases world.exec
    (afterTurns world requests db turns) thread
  · rw [Pool.turn, hsame]
    exact ⟨rfl, Or.inl rfl⟩
  · have hstep := numbered_step world call (afterTurns world requests db turns).state
    rw [Pool.turn, heq]
    constructor
    · obtain ⟨request, hrequest, id, _, _, hedits⟩ := horderly.kind hcall
      obtain ⟨text, data, haction, _⟩ := hrace.updates thread request hrequest hthread
      exact (hedits (by rw [haction]; exact Action.noConfusion)).marks_eq hstep
    · obtain hread | hmissed | ⟨_, hneeds⟩ := hracing.stage thread hthread
      · exact Or.inr hread
      · exact Or.inl ((hmissed _ hcall).1.unchanged hstep)
      · exact (hneeds _ hdone).elim

end race

theorem rename_departure_race : DeletionRace UuidSource.counting [rename, departure] 1 "0" where
  deletion := ⟨departure, "0", rfl, rfl, rfl⟩
  updates := by
    intro thread request hrequest hthread
    obtain rfl | rfl | ⟨thread, rfl⟩ : thread = 0 ∨ thread = 1 ∨ ∃ n, thread = n + 2 := by
      obtain _ | _ | n := thread
      · exact Or.inl rfl
      · exact Or.inr (Or.inl rfl)
      · exact Or.inr (Or.inr ⟨n, rfl⟩)
    · cases hrequest
      exact ⟨"0", _, rfl, rfl⟩
    · exact absurd rfl hthread
    · cases hrequest

/-- The update reads, the deletion does all that it does, and the update goes on. -/
def overtaken : List Nat :=
  [0, 0, 1, 1, 1, 1, 1]

/-- What the newcomer's requests have come to then. -/
def overtakenPool : Pool UuidSource.counting :=
  afterTurns faultless [rename, departure] (serveAll [newcomerTurn]) overtaken

theorem overtaken_done : overtakenPool.threads[1]? = some (.done ()) := rfl

theorem frozen_unless_read_rename :
    UserGone "0" overtakenPool.db ∧ (overtakenPool.turn faultless 0).db.marks = overtakenPool.db.marks := by
  obtain ⟨huser, _, hmarks, _⟩ := frozen_unless_read rename_departure_race faultless (serveAll [newcomerTurn]) overtaken
    overtaken_done (by simp : 0 ≠ 1)
  exact ⟨huser, hmarks⟩

/-- The rows of a user and of the preference are there as they were. -/
def Frozen (userId : String) (db db' : Database ids) : Prop :=
  (∀ row ∈ db.users.rows, row.id = userId → row ∈ db'.users.rows) ∧
    ∀ row ∈ db.preferences.rows, row.userId = some userId → row ∈ db'.preferences.rows

/-- The deleted user gets another name. -/
theorem deleted_renamed :
    ¬ ∀ (requests : List Request) (deleter : Nat) (userId : String) (world : World)
      (db : Database UuidSource.counting) (turns : List Nat) (thread : Nat),
      DeletionRace UuidSource.counting requests deleter userId →
      (afterTurns world requests db turns).threads[deleter]? = some (.done ()) → thread ≠ deleter →
      Frozen userId (afterTurns world requests db turns).db
        ((afterTurns world requests db turns).turn world thread).db := by
  intro hclaim
  have hfrozen : Frozen "0" overtakenPool.db (overtakenPool.turn faultless 0).db := hclaim [rename, departure] 1 "0"
    faultless (serveAll [newcomerTurn]) overtaken 0 rename_departure_race overtaken_done (by simp)
  have hbefore : ∃ row ∈ overtakenPool.db.users.rows, row.id = "0" ∧ row.fullName = "" :=
    ⟨_, List.mem_singleton.mpr rfl, rfl, rfl⟩
  have hafter : ((overtakenPool.turn faultless 0).db.users.rows.map fun row => row.fullName) = ["c"] := rfl
  obtain ⟨row, hrow, hid, hname⟩ := hbefore
  have hmem := List.mem_map_of_mem (f := fun row : UsersModel => row.fullName) (hfrozen.1 row hrow hid)
  rw [hafter, hname] at hmem
  simp at hmem

end node_backend.user_requests
