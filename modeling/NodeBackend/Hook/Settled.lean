import NodeBackend.Hook.Webhook

namespace node_backend.webhook_service

open js store program
open node_backend.exceptions

/-- Where an operation stands that was started: its call was not made yet, or it was
and took effect, or it was a request and failed. -/
def Operation.Stage (faults : Faults) (kv : KeyValue) (p : Promise Unit) : Operation → Prop
  | request key hookRequest => p = (request key hookRequest).promise ∨ p = .done () ∨
      ∃ n failure, faults n (.requestHook hookRequest) = some failure ∧ p = .throw failure
  | delete key => p = (delete key).promise ∨ (p = .done () ∧ kv.get key = none)

/-- The operations that were started on a store have each come as far as they have,
and what none of them deletes is as before. -/
structure Progress (pull : Pull) (faults : Faults) (kv : KeyValue) (pool : Pool) : Prop where
  length : pool.threads.length = pull.started.length
  stage : ∀ (place : Nat) (operation : Operation) (p : Promise Unit), pull.started[place]? = some operation →
    pool.threads[place]? = some p → operation.Stage faults pool.cache p
  kept : ∀ key, Operation.delete key ∉ pull.started → pool.cache.get key = kv.get key

/-- Only calls of requestHook fail. -/
def Faults.OnlyRequests (faults : Faults) : Prop :=
  ∀ n key, faults n (.redisDel key) = none

variable {redis : Redis} {faults : Faults} {kv : KeyValue} {pull : Pull} {pool : Pool}

theorem Operation.Stage.delete {operation : Operation} {p : Promise Unit} (h : operation.Stage faults kv p)
    (key : String) : operation.Stage faults (kv.delete key) p := by
  cases operation with
  | request _ hookRequest => exact h
  | delete other =>
    obtain hstart | ⟨hdone, hgone⟩ := h
    · exact Or.inl hstart
    · exact Or.inr ⟨hdone, KeyValue.get_delete_eq_none hgone key⟩

/-- What the call of an operation does. -/
theorem Operation.Stage.call (redis : Redis) (hfaults : faults.OnlyRequests) {operation : Operation} {call : Call}
    {next : Except Failure call.Reply → Promise Unit} (h : operation.Stage faults kv (.await call next)) (n : Nat) :
    operation.Stage faults (serve redis faults n call kv).2 (next (serve redis faults n call kv).1) ∧
      ((serve redis faults n call kv).2 = kv ∨
        ∃ key, operation = .delete key ∧ (serve redis faults n call kv).2 = kv.delete key) := by
  cases operation with
  | request key hookRequest =>
    obtain hstart | hdone | ⟨_, _, _, hthrow⟩ := h
    · cases hstart
      cases hfault : faults n (.requestHook hookRequest) with
      | none =>
        rw [serve, hfault]
        exact ⟨Or.inr (Or.inl rfl), Or.inl rfl⟩
      | some failure =>
        rw [serve, hfault]
        exact ⟨Or.inr (Or.inr ⟨n, failure, hfault, rfl⟩), Or.inl rfl⟩
    · cases hdone
    · cases hthrow
  | delete key =>
    obtain hstart | ⟨hdone, _⟩ := h
    · cases hstart
      rw [serve, hfaults n key]
      exact ⟨Or.inr ⟨rfl, KeyValue.get_delete_self kv key⟩, Or.inr ⟨key, rfl, rfl⟩⟩
    · cases hdone

theorem Progress.start : Progress pull faults kv (program.Pool.start (0, kv) (pull.started.map Operation.promise)) := by
  refine ⟨List.length_map .., fun place operation p hplace hp => ?_, fun _ _ => rfl⟩
  rw [program.Pool.start, List.getElem?_map, hplace, Option.map_some] at hp
  cases operation with
  | request key hookRequest => exact Or.inl (Option.some.inj hp).symm
  | delete key => exact Or.inl (Option.some.inj hp).symm

theorem cache_advance (pool : Pool) (thread : Nat) (call : Call) (next : Except Failure call.Reply → Promise Unit) :
    Pool.cache (pool.advance (numbered (serve redis faults)) thread call next) =
      (serve redis faults pool.state.1 call pool.cache).2 := rfl

theorem Progress.advance (hfaults : faults.OnlyRequests) (h : Progress pull faults kv pool) {thread : Nat} {call : Call}
    {next : Except Failure call.Reply → Promise Unit} (hthread : pool.threads[thread]? = some (.await call next)) :
    Progress pull faults kv (pool.advance (numbered (serve redis faults)) thread call next) := by
  have hlength :
      (pool.advance (numbered (serve redis faults)) thread call next).threads.length = pull.started.length := by
    rw [program.Pool.advance, List.length_set, h.length]
  obtain ⟨started, hstarted⟩ : ∃ operation, pull.started[thread]? = some operation := by
    have hlt := (List.getElem?_eq_some_iff.mp hthread).1
    rw [h.length] at hlt
    exact ⟨_, List.getElem?_eq_getElem hlt⟩
  obtain ⟨hstage, hcache⟩ := (h.stage thread started _ hstarted hthread).call redis hfaults pool.state.1
  refine ⟨hlength, fun place operation p hplace hp => ?_, fun key hkey => ?_⟩
  · rw [program.Pool.getElem?_advance _ hthread] at hp
    by_cases hsame : place = thread
    · subst hsame
      rw [if_pos rfl] at hp
      cases hp
      cases hstarted.symm.trans hplace
      exact hstage
    · rw [if_neg hsame] at hp
      have hbefore := h.stage place operation p hplace hp
      rw [cache_advance]
      obtain hunchanged | ⟨key, _, hdeleted⟩ := hcache
      · rw [hunchanged]
        exact hbefore
      · rw [hdeleted]
        exact hbefore.delete key
  · rw [cache_advance]
    obtain hunchanged | ⟨other, rfl, hdeleted⟩ := hcache
    · rw [hunchanged]
      exact h.kept key hkey
    · have hne : key ≠ other := by
        rintro rfl
        exact hkey (List.mem_of_getElem? hstarted)
      rw [hdeleted, KeyValue.get_delete_of_ne _ hne]
      exact h.kept key hkey

theorem Pull.progress (pull : Pull) (hfaults : faults.OnlyRequests) (kv : KeyValue) (turns : List Nat) :
    Progress pull faults kv (pull.after redis faults kv turns) :=
  program.Pool.afterTurns_invariant Progress.start (fun _ _ _ _ h hthread => h.advance hfaults hthread) turns

theorem Pull.mem_places {p : Operation → Bool} {place : Nat} :
    place ∈ pull.places p ↔ ∃ operation, pull.started[place]? = some operation ∧ p operation = true := by
  unfold Pull.places
  rw [List.mem_filter, List.mem_range]
  constructor
  · rintro ⟨_, h⟩
    exact (Option.any_eq_true _ _).mp h
  · rintro ⟨operation, hplace, hp⟩
    refine ⟨(List.getElem?_eq_some_iff.mp hplace).1, ?_⟩
    rw [hplace]
    exact hp

/-- How things are once pullHook has ended. -/
structure Settled (pull : Pull) (faults : Faults) (kv : KeyValue) (pool : Pool)
    (result : Except Failure Unit) : Prop where
  deleted : ∀ key, Operation.delete key ∈ pull.started → pool.cache.get key = none
  kept : ∀ key, Operation.delete key ∉ pull.started → pool.cache.get key = kv.get key
  requests : ∀ (place : Nat) (key : String) (hookRequest : HookRequest),
    pull.started[place]? = some (.request key hookRequest) → pool.returned place = true ∨
      pool.threads[place]? = some (Operation.request key hookRequest).promise ∨
      ∃ n failure, faults n (.requestHook hookRequest) = some failure ∧ pool.thrown? place = some failure
  answered : result = .ok () → ∀ (place : Nat) (operation : Operation), pull.started[place]? = some operation →
    pool.returned place = true
  failed : ∀ failure, result = .error failure → ∃ n hookRequest, faults n (.requestHook hookRequest) = some failure

theorem Progress.not_thrown_delete (h : Progress pull faults kv pool) {place : Nat} {key : String}
    (hplace : pull.started[place]? = some (.delete key)) : pool.thrown? place = none := by
  unfold program.Pool.thrown?
  cases hthread : pool.threads[place]? with
  | none => rfl
  | some p =>
    obtain rfl | ⟨rfl, _⟩ := h.stage place _ p hplace hthread <;> rfl

theorem Progress.deleted_of_returned (h : Progress pull faults kv pool) {place : Nat} {key : String}
    (hplace : pull.started[place]? = some (.delete key)) (hreturned : pool.returned place = true) :
    pool.cache.get key = none := by
  unfold program.Pool.returned at hreturned
  cases hthread : pool.threads[place]? with
  | none =>
    rw [hthread] at hreturned
    cases hreturned
  | some p =>
    rw [hthread] at hreturned
    obtain rfl | ⟨_, hgone⟩ := h.stage place _ p hplace hthread
    · cases hreturned
    · exact hgone

theorem Progress.requests (h : Progress pull faults kv pool) {place : Nat} {key : String} {hookRequest : HookRequest}
    (hplace : pull.started[place]? = some (.request key hookRequest)) : pool.returned place = true ∨
      pool.threads[place]? = some (Operation.request key hookRequest).promise ∨
      ∃ n failure, faults n (.requestHook hookRequest) = some failure ∧ pool.thrown? place = some failure := by
  have hlt := (List.getElem?_eq_some_iff.mp hplace).1
  rw [← h.length] at hlt
  have hthread := List.getElem?_eq_getElem hlt
  unfold program.Pool.returned program.Pool.thrown?
  rw [hthread]
  obtain hstart | hdone | ⟨n, failure, hfault, hthrow⟩ := h.stage place _ _ hplace hthread
  · exact Or.inr (Or.inl (congrArg some hstart))
  · rw [hdone]
    exact Or.inl rfl
  · rw [hthrow]
    exact Or.inr (Or.inr ⟨n, failure, hfault, rfl⟩)

/-- A request ends with an error only if its call failed. -/
theorem Progress.fault_of_thrown (h : Progress pull faults kv pool) {place : Nat} {failure : Failure}
    {operation : Operation} (hplace : pull.started[place]? = some operation)
    (hthrown : pool.thrown? place = some failure) :
    ∃ n hookRequest, faults n (.requestHook hookRequest) = some failure := by
  cases operation with
  | delete key =>
    rw [h.not_thrown_delete hplace] at hthrown
    cases hthrown
  | request key hookRequest =>
    obtain hreturned | hwaiting | ⟨n, fault, hfault, hsame⟩ := h.requests hplace
    · rw [program.Pool.thrown_eq_none_of_returned hreturned] at hthrown
      cases hthrown
    · unfold program.Pool.thrown? at hthrown
      rw [hwaiting] at hthrown
      cases hthrown
    · cases hsame.symm.trans hthrown
      exact ⟨n, hookRequest, hfault⟩

/-- The deletions are awaited first and do not fail, so all of them are done when
pullHook ends. -/
theorem Progress.gathered (h : Progress pull faults kv pool) (hthrown : pull.thrown = none)
    {result : Except Failure Unit} (houtcome : pull.outcome pool = some result) :
    pool.gather pull.hooksToDelete = some (.ok ()) ∧ pool.gather pull.hooksToPull = some result := by
  unfold Pull.outcome at houtcome
  rw [hthrown] at houtcome
  dsimp only at houtcome
  cases hgather : pool.gather pull.hooksToDelete with
  | none =>
    rw [hgather] at houtcome
    cases houtcome
  | some ended =>
    cases ended with
    | error failure =>
      obtain ⟨place, hplace, hfailed⟩ := program.Pool.thrown_of_gather hgather
      obtain ⟨operation, hstarted, hdeletes⟩ := Pull.mem_places.mp hplace
      cases operation with
      | request _ _ => cases hdeletes
      | delete key =>
        rw [h.not_thrown_delete hstarted] at hfailed
        cases hfailed
    | ok result =>
      rw [hgather] at houtcome
      exact ⟨rfl, houtcome⟩

theorem Progress.settled (h : Progress pull faults kv pool) (hthrown : pull.thrown = none)
    {result : Except Failure Unit} (houtcome : pull.outcome pool = some result) :
    Settled pull faults kv pool result := by
  obtain ⟨hdeletes, hrequests⟩ := h.gathered hthrown houtcome
  have hreturned := program.Pool.gather_eq_ok_iff.mp hdeletes
  refine ⟨fun key hkey => ?_, h.kept, fun _ _ _ => h.requests, fun hok place operation hplace => ?_,
    fun failure herror => ?_⟩
  · obtain ⟨place, hplace⟩ := List.mem_iff_getElem?.mp hkey
    exact h.deleted_of_returned hplace (hreturned place (Pull.mem_places.mpr ⟨_, hplace, rfl⟩))
  · rw [hok] at hrequests
    cases operation with
    | delete key => exact hreturned place (Pull.mem_places.mpr ⟨_, hplace, rfl⟩)
    | request _ _ =>
      exact program.Pool.gather_eq_ok_iff.mp hrequests place (Pull.mem_places.mpr ⟨_, hplace, rfl⟩)
  · rw [herror] at hrequests
    obtain ⟨place, hplace, hfailed⟩ := program.Pool.thrown_of_gather hrequests
    obtain ⟨operation, hstarted, _⟩ := Pull.mem_places.mp hplace
    exact h.fault_of_thrown hstarted hfailed

end node_backend.webhook_service
