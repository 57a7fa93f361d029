import NodeBackend.Subscription.Steps

namespace node_backend.subscription_service

open js store program
open node_backend.infra node_backend.subscription_entity node_backend.exceptions

variable {ids : IdSource}

/-- A save of the subscription or a deletion writes to the document it found. -/
def UpdatesOrDeletes (subscriptionId id : String) (call : Call) : Prop :=
  Updates (OwnFields subscriptionId) id call ∨ call = .deleteOne id

/-- The phases of saves and deletions of one subscription. -/
abbrev OwnPhase (subscriptionId : String) (subscriptions : Collection ids) : Promise Unit → Prop :=
  Phase (OwnFields subscriptionId) (UpdatesOrDeletes subscriptionId) (Known subscriptions subscriptionId) subscriptionId

def aboutToInsert (p : Promise Unit) : Bool :=
  match p with
  | .await (.insertOne _) _ => true
  | _ => false

theorem aboutToInsert_of_only {p : Promise Unit} (h : p.Only LeavesCollection) : aboutToInsert p = false := by
  cases p with
  | done result => rfl
  | throw error => rfl
  | await call next =>
    cases call with
    | insertOne fields => exact absurd h.1 id
    | _ => rfl

theorem aboutToInsert_of_writing {subscriptionId id : String} {p : Promise Unit}
    (h : Writing (UpdatesOrDeletes subscriptionId id) p) : aboutToInsert p = false := by
  obtain ⟨call, next, rfl, ⟨fields, _, rfl⟩ | rfl, _⟩ := h <;> rfl

/-- At most one computation has found no document and not yet inserted its own. -/
def OneInserting (pool : Pool ids) : Prop :=
  pool.threads.countP aboutToInsert ≤ 1

/-- Documents of the subscription and insertions of it under way are together
at most one, and every computation is in one of the phases. -/
structure AtMostOne (subscriptionId : String) (pool : Pool ids) : Prop where
  phases : ∀ p ∈ pool.threads, OwnPhase subscriptionId pool.state.subscriptions p
  count : carrying pool.state.subscriptions subscriptionId + pool.threads.countP aboutToInsert ≤ 1

section advance

variable {subscriptionId : String} {pool : Pool ids} {thread : Nat}

/-- The computations of a pool after one of them advanced to a phase of its own,
on a collection that keeps what is known. -/
theorem phases_advance {call : Call} {next : Except Failure call.Reply → Promise Unit}
    (hphases : ∀ p ∈ pool.threads, OwnPhase subscriptionId pool.state.subscriptions p)
    (hknown : ∀ id, Known pool.state.subscriptions subscriptionId id →
      Known (exec call pool.state).2.subscriptions subscriptionId id)
    (hnext : OwnPhase subscriptionId (exec call pool.state).2.subscriptions (next (exec call pool.state).1)) :
    ∀ p ∈ (pool.advance exec thread call next).threads,
      OwnPhase subscriptionId (pool.advance exec thread call next).state.subscriptions p := by
  intro p hp
  obtain hold | rfl := List.mem_or_eq_of_mem_set hp
  · exact (hphases p hold).mono (fun _ _ hwrite => hwrite) hknown
  · exact hnext

/-- An advance that makes no more of documents and insertions than it uses up. -/
theorem AtMostOne.advanceTo {call : Call} {next : Except Failure call.Reply → Promise Unit}
    (h : AtMostOne subscriptionId pool) (hthread : pool.threads[thread]? = some (.await call next))
    (hknown : ∀ id, Known pool.state.subscriptions subscriptionId id →
      Known (exec call pool.state).2.subscriptions subscriptionId id)
    (hnext : OwnPhase subscriptionId (exec call pool.state).2.subscriptions (next (exec call pool.state).1))
    (hcount : carrying (exec call pool.state).2.subscriptions subscriptionId +
        (if aboutToInsert (next (exec call pool.state).1) then 1 else 0) ≤
      carrying pool.state.subscriptions subscriptionId + (if aboutToInsert (.await call next) then 1 else 0)) :
    AtMostOne subscriptionId (pool.advance exec thread call next) := by
  have hthreads := program.Pool.countP_advance exec hthread aboutToInsert
  have hone := h.count
  refine ⟨phases_advance h.phases hknown hnext, ?_⟩
  change carrying (exec call pool.state).2.subscriptions subscriptionId + _ ≤ 1
  omega

theorem AtMostOne.advance {call : Call} {next : Except Failure call.Reply → Promise Unit}
    (h : AtMostOne subscriptionId pool) (hthread : pool.threads[thread]? = some (.await call next))
    (hcond : OneInserting (pool.advance exec thread call next)) :
    AtMostOne subscriptionId (pool.advance exec thread call next) := by
  cases h.phases _ (List.mem_of_getElem? hthread) with
  | @finding next hnone hsome =>
    have hreply : (exec (.findOne "subscriptionId" subscriptionId) pool.state).1 =
        .ok (findBySubscriptionId? pool.state.subscriptions subscriptionId) := rfl
    cases hfound : findBySubscriptionId? pool.state.subscriptions subscriptionId with
    | none =>
      -- no document carries the identifier yet, so only insertions count
      rw [hfound] at hreply
      refine ⟨phases_advance h.phases (fun _ hid => hid) ?_, ?_⟩
      · rw [hreply]
        exact hnone.elim .inserting .past
      · change carrying pool.state.subscriptions subscriptionId + _ ≤ 1
        rw [findOne_eq_none_iff.mp hfound, Nat.zero_add]
        exact hcond
    | some doc =>
      rw [hfound] at hreply
      apply h.advanceTo hthread (fun _ hid => hid)
      · rw [hreply]
        exact (hsome doc).elim (fun hwriting => .writing hwriting (known_of_findOne hfound)) .past
      · rw [hreply, (hsome doc).elim aboutToInsert_of_writing aboutToInsert_of_only]
        exact Nat.le_refl _
  | inserting hinserting =>
    obtain ⟨fields, next', heq, hown, hpast⟩ := hinserting
    cases heq
    apply h.advanceTo hthread (fun _ hid => hid.insertOne hown) (.past (hpast _))
    rw [aboutToInsert_of_only (hpast _)]
    exact (carrying_insertOne hown).le
  | @writing _ id hwriting hid =>
    obtain ⟨call', next', heq, hwrite, hpast⟩ := hwriting
    cases heq
    obtain ⟨fields, hown, rfl⟩ | rfl := hwrite
    · apply h.advanceTo hthread (fun _ hold => hold.updateOne hown _) (.past (hpast _))
      rw [aboutToInsert_of_only (hpast _)]
      exact (carrying_updateOne hown hid).le
    · apply h.advanceTo hthread (fun _ hold => hold.deleteOne _) (.past (hpast _))
      rw [aboutToInsert_of_only (hpast _)]
      exact carrying_deleteOne_le id
  | past hpast =>
    have hsame := exec_subscriptions hpast.1 pool.state
    apply h.advanceTo hthread (fun _ hold => by rwa [hsame]) (.past (hpast.2 _))
    rw [hsame, aboutToInsert_of_only (hpast.2 _), aboutToInsert_of_only hpast]

theorem AtMostOne.step (h : AtMostOne subscriptionId pool) (move : Move Expiry)
    (hcond : OneInserting (pool.step move)) : AtMostOne subscriptionId (pool.step move) := by
  rw [Pool.step] at hcond ⊢
  obtain heq | ⟨thread, call, next, _, hthread, heq⟩ | ⟨key, _, heq⟩ :=
    program.Pool.step_cases exec Infra.expire pool move
  · rw [heq]
    exact h
  · rw [heq] at hcond ⊢
    exact h.advance hthread hcond
  · rw [heq]
    exact ⟨h.phases, h.count⟩

end advance

/-- A save or a deletion of a subscription. -/
inductive Request (host : Host) (subscriptionId : String)
  | save (clock : Clock) (own : OwnData host clock subscriptionId)
  | delete

def Request.program {host : Host} {subscriptionId : String} : Request host subscriptionId → Promise Unit
  | save clock own => (subscription_service.save host clock subscriptionId own.data).void
  | delete => (subscription_service.delete subscriptionId).void

theorem phase_save (host : Host) (clock : Clock) (subscriptionId : String) (own : OwnData host clock subscriptionId)
    (subscriptions : Collection ids) :
    OwnPhase subscriptionId subscriptions (save host clock subscriptionId own.data).void :=
  (phase_save_bind (f := fun _ => .done ()) (fun _ => own.ownFields) fun _ => trivial).mono
    (fun _ _ => Or.inl) fun _ hid => hid

theorem phase_delete (subscriptionId : String) (subscriptions : Collection ids) :
    OwnPhase subscriptionId subscriptions (delete subscriptionId).void := by
  refine .finding (Or.inr ⟨trivial, fun reply => ?_⟩) fun doc =>
    Or.inl ⟨_, _, rfl, Or.inr rfl, fun reply => ?_⟩
  · cases reply <;> trivial
  · cases reply with
    | error error => trivial
    | ok deletedCount =>
      refine ⟨trivial, fun reply => ?_⟩
      cases reply <;> trivial

/-- Saves and deletions of one subscription that start together. -/
def requestsPool {host : Host} {subscriptionId : String} (requests : List (Request host subscriptionId))
    (s : Infra ids) : Pool ids :=
  program.Pool.start s (requests.map Request.program)

theorem atMostOne_start {host : Host} {subscriptionId : String} (requests : List (Request host subscriptionId))
    {s : Infra ids} (hfirst : carrying s.subscriptions subscriptionId ≤ 1) :
    AtMostOne subscriptionId (requestsPool requests s) := by
  have hphase : ∀ p ∈ (requestsPool requests s).threads, OwnPhase subscriptionId s.subscriptions p := by
    intro p hp
    obtain ⟨request, _, rfl⟩ := List.mem_map.mp hp
    cases request with
    | save clock own => exact phase_save host clock subscriptionId own s.subscriptions
    | delete => exact phase_delete subscriptionId s.subscriptions
  have hnone : (requestsPool requests s).threads.countP aboutToInsert = 0 := by
    apply List.countP_eq_zero.mpr
    intro p hp
    obtain ⟨request, _, rfl⟩ := List.mem_map.mp hp
    cases request <;> exact Bool.false_ne_true
  refine ⟨hphase, ?_⟩
  rw [hnone]
  exact hfirst

/-- As long as no two saves have both found no document and not yet inserted
theirs, no two documents ever carry the subscription, whatever the order in
which any number of saves and deletions take their steps. -/
theorem carrying_le_one_of_apart {host : Host} {subscriptionId : String}
    (requests : List (Request host subscriptionId)) (s : Infra ids) (schedule : List (Move Expiry))
    (hfirst : carrying s.subscriptions subscriptionId ≤ 1)
    (hapart : ∀ front, front <+: schedule → OneInserting ((requestsPool requests s).run front)) :
    carrying ((requestsPool requests s).run schedule).state.subscriptions subscriptionId ≤ 1 := by
  have hinvariant : AtMostOne subscriptionId ((requestsPool requests s).run schedule) :=
    program.Pool.run_invariant exec Infra.expire schedule (atMostOne_start requests hfirst)
      (fun q move _ hq hcond => hq.step move hcond) hapart
  have hcount := hinvariant.count
  omega

/-- Two saves for a subscription that has no document yet. -/
def twoSaves : List (Request Host.utc "socket") :=
  [.save (fun _ => Time.epoch) (.ofId Host.utc _ "socket"), .save (fun _ => Time.epoch) (.ofId Host.utc _ "socket")]

theorem carrying_le_one_of_apart_in_turn :
    carrying ((requestsPool twoSaves (Infra.empty : Infra IdSource.counting)).run
      [.turn 0, .turn 0, .turn 1]).state.subscriptions "socket" ≤ 1 := by
  apply carrying_le_one_of_apart twoSaves Infra.empty [.turn 0, .turn 0, .turn 1] (by decide)
  intro front hfront
  rw [← List.mem_inits] at hfront
  simp only [List.inits, List.map_cons, List.map_nil, List.mem_cons, List.not_mem_nil, or_false] at hfront
  obtain rfl | rfl | rfl | rfl := hfront <;> exact Nat.le_of_ble_eq_true rfl

/-- Two saves that both look for the document before either has inserted one
leave two documents. -/
theorem carrying_two_of_overlap :
    ¬ ∀ (requests : List (Request Host.utc "socket")) (schedule : List (Move Expiry)),
      carrying ((requestsPool requests (Infra.empty : Infra IdSource.counting)).run schedule).state.subscriptions
        "socket" ≤ 1 := by
  intro h
  have hbound := h twoSaves [.turn 0, .turn 1, .turn 0, .turn 1]
  have htwo : carrying ((requestsPool twoSaves (Infra.empty : Infra IdSource.counting)).run
      [.turn 0, .turn 1, .turn 0, .turn 1]).state.subscriptions "socket" = 2 := rfl
  omega

end node_backend.subscription_service
