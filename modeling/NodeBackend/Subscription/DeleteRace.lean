import NodeBackend.Subscription.Deletion

namespace node_backend.subscription_service

open js store program
open node_backend.infra node_backend.subscription_entity node_backend.exceptions

variable {ids : IdSource}

/-- A cache entry of a subscription is never falsy once it is read. -/
theorem reading_entryText_truthy (entity : SubscriptionEntity) :
    (redis_client.reading (some (entryText entity))).truthy = true := by
  have hwritten : entity.getAttributes.toJson = some (.obj (fieldsToJson entity.attributes)) := by
    rw [SubscriptionEntity.getAttributes, Value.toJson]
  rw [redis_client.reading_some, redis_client.parseValue, data_parser_helper.toObject, entryText_eq hwritten,
    json.parse_stringify_merged, json.Value.merged_obj]
  rfl

/-- A text that a read takes for a subscription. -/
def Readable (text : String) : Prop :=
  (redis_client.reading (some text)).truthy = true

/-- The calls that a `get` makes. -/
def ReadCall (subscriptionId : String) (call : Call) : Prop :=
  LeavesCollection call ∧ Keeps Readable (cacheKey subscriptionId) call

theorem only_get (host : Host) (clock : Clock) (subscriptionId : String) :
    (get host clock subscriptionId).void.Only (ReadCall subscriptionId) := by
  have hsave : ∀ entity : SubscriptionEntity,
      (saveOnCache subscriptionId entity.getAttributes).Only (ReadCall subscriptionId) := by
    intro entity
    refine ⟨⟨trivial, fun _ => reading_entryText_truthy entity⟩, fun reply => ?_⟩
    cases reply with
    | error error => trivial
    | ok result =>
      refine ⟨⟨trivial, (by decide : 0 < subscriptionsTimeToLive)⟩, fun reply => ?_⟩
      cases reply <;> trivial
  have hend : ∀ saved : Value, (if saved.truthy then do
      let subscription ← newEntity host (clock 0) saved
      let _ ← saveOnCache subscriptionId subscription.getAttributes
      return subscription
    else Program.throw subscriptionNotFound : Promise SubscriptionEntity).Only (ReadCall subscriptionId) := by
    intro saved
    split
    · cases hprint : (saved.prop "_id").unprintable with
      | false =>
        rw [newEntity_of_printable host hprint]
        exact (hsave _).bind fun _ => trivial
      | true =>
        rw [newEntity_of_unprintable host hprint]
        trivial
    · trivial
  have hcache : (getFromCache subscriptionId).Only (ReadCall subscriptionId) := by
    refine ⟨⟨trivial, trivial⟩, fun reply => ?_⟩
    cases reply with
    | error error => trivial
    | ok value => cases value <;> trivial
  have hget : (get host clock subscriptionId).Only (ReadCall subscriptionId) := by
    apply hcache.bind
    intro cached
    dsimp only
    split
    · exact hend cached
    · refine ⟨⟨trivial, trivial⟩, fun reply => ?_⟩
      cases reply with
      | error error => trivial
      | ok found => exact hend (foundValue found)
  exact hget.bind fun _ => trivial

/-- The deletion takes one of the documents of the subscription away, if there is
one, and nothing else changes how many there are. -/
def oneTaken (subscriptionId : String) (first : Nat) : Stage ids where
  before := fun subscriptions _ => carrying subscriptions subscriptionId = first
  deleting := fun id subscriptions _ => carrying subscriptions subscriptionId = first ∧
    ∃ doc ∈ subscriptions.documents, doc.id = id ∧ Carries doc subscriptionId
  after := fun subscriptions _ => carrying subscriptions subscriptionId = first - 1

theorem oneTaken_sound (subscriptionId : String) (first : Nat) :
    (oneTaken subscriptionId first : Stage ids).Sound subscriptionId where
  leave := fun _ _ hfirst => hfirst
  missing := by
    intro subscriptions _ hfirst hnone
    have hzero := findOne_eq_none_iff.mp hnone
    change carrying subscriptions subscriptionId = first - 1
    change carrying subscriptions subscriptionId = first at hfirst
    omega
  found := by
    intro _ _ doc hfirst hsome
    obtain ⟨hmem, hcarries⟩ := Collection.mem_of_findOne hsome
    exact ⟨hfirst, doc, hmem, rfl, hcarries⟩
  delete := by
    intro _ _ _ h
    obtain ⟨rfl, doc, hmem, rfl, hcarries⟩ := h
    exact carrying_deleteOne hmem hcarries
  clear := fun hafter => hafter

theorem reads_compatible (subscriptionId : String) (first : Nat) :
    Compatible (oneTaken subscriptionId first : Stage ids) Readable subscriptionId
      fun _ p => p.Only (ReadCall subscriptionId) where
  sound := oneTaken_sound subscriptionId first
  deleted := fun _ hother => hother
  keeps := fun hother => hother.1.2
  next := fun hother => hother.2 _
  rest := fun _ hrest => hrest
  kept := by
    intro s call next history thread hother
    have hsame := exec_subscriptions hother.1.1 s
    rw [hsame]
    exact ⟨fun h => h, fun _ h => h, fun h => h⟩

/-- One deletion and a read for each clock, starting together. -/
def racePool (host : Host) (subscriptionId : String) (readers : List Clock) (s : Infra ids) : Pool ids :=
  program.Pool.start s ((delete subscriptionId).void ::
    readers.map fun clock => (get host clock subscriptionId).void)

theorem heldRace_start (host : Host) (subscriptionId : String) (readers : List Clock) (s : Infra ids) :
    HeldRace (oneTaken subscriptionId (carrying s.subscriptions subscriptionId)) Readable subscriptionId
      (fun _ p => p.Only (ReadCall subscriptionId)) (racePool host subscriptionId readers s) where
  deletion := ⟨_, rfl, .finding rfl (fun ⟨_, hmem, _⟩ => nomatch hmem) (finding_delete subscriptionId)⟩
  others := by
    intro thread p hp
    obtain ⟨clock, _, rfl⟩ := List.mem_map.mp (List.mem_of_getElem? hp)
    exact only_get host clock subscriptionId
  cleared := fun ⟨_, hmem, _⟩ => nomatch hmem
  held := fun hset => nomatch (first_of_after hset).choose_spec.1

/-- After a deletion and any reads that ran with it have finished, the
subscription is not found again if it had at most one document and no read set
the cache after the deletion cleared it. Where no entry expired meanwhile, it is
not found only then. -/
theorem get_after_delete_iff (host : Host) (subscriptionId : String) (readers : List Clock) (s : Infra ids)
    (schedule : List (Move Expiry)) (clock : Clock)
    (hfinished : ((racePool host subscriptionId readers s).run schedule).Finished) :
    (carrying s.subscriptions subscriptionId ≤ 1 →
      ¬ SetAfterDelete (cacheKey subscriptionId) ((racePool host subscriptionId readers s).run schedule).history →
      Program.run exec (get host clock subscriptionId) ((racePool host subscriptionId readers s).run schedule).state =
        (.error subscriptionNotFound, ((racePool host subscriptionId readers s).run schedule).state)) ∧
    ((∀ key, Move.event key ∉ schedule) →
      (Program.run exec (get host clock subscriptionId)
        ((racePool host subscriptionId readers s).run schedule).state).1 = .error subscriptionNotFound →
      carrying s.subscriptions subscriptionId ≤ 1 ∧
        ¬ SetAfterDelete (cacheKey subscriptionId)
          ((racePool host subscriptionId readers s).run schedule).history) := by
  have hstart := heldRace_start host subscriptionId readers s
  have hcompatible : Compatible (oneTaken subscriptionId (carrying s.subscriptions subscriptionId) : Stage ids) Readable
      subscriptionId fun _ p => p.Only (ReadCall subscriptionId) := reads_compatible subscriptionId _
  have hrace := hstart.toRace.run hcompatible schedule
  obtain ⟨hdeleted, hcount⟩ := hrace.finished hfinished
  change carrying _ subscriptionId = carrying s.subscriptions subscriptionId - 1 at hcount
  rw [run_get, savedSubscription]
  constructor
  · intro hone hunset
    have hnone := findOne_eq_none_iff.mpr (hcount.trans (by omega))
    rw [hrace.cleared hdeleted hunset, hnone]
    rfl
  · intro hlive herror
    have hunset : ¬ SetAfterDelete (cacheKey subscriptionId)
        ((racePool host subscriptionId readers s).run schedule).history := by
      intro hset
      obtain ⟨text, hget, htruthy⟩ := (hstart.run hcompatible hlive).held hset
      rw [Readable] at htruthy
      rw [hget, if_pos htruthy, if_pos htruthy] at herror
      exact cacheAndReturn_ne_notFound host clock subscriptionId _ _ herror
    refine ⟨?_, hunset⟩
    rw [hrace.cleared hdeleted hunset] at herror
    cases hfound : findBySubscriptionId? ((racePool host subscriptionId readers s).run schedule).state.subscriptions
        subscriptionId with
    | none =>
      have hzero := findOne_eq_none_iff.mp hfound
      omega
    | some doc =>
      rw [hfound] at herror
      exact absurd herror (cacheAndReturn_ne_notFound host clock subscriptionId doc.toValue _)

/-- A subscription that was saved once. -/
def savedOnce : Infra IdSource.counting :=
  (Program.run exec (save Host.utc (fun _ => Time.epoch) "socket" (.obj [("subscriptionId", .str "socket")]))
    Infra.empty).2

/-- A read that runs after the whole deletion does not set the cache. -/
theorem get_after_delete_iff_in_turn :
    carrying savedOnce.subscriptions "socket" ≤ 1 ∧
      ¬ SetAfterDelete (cacheKey "socket") ((racePool Host.utc "socket" [fun _ => Time.epoch] savedOnce).run
        [.turn 0, .turn 0, .turn 0, .turn 1, .turn 1]).history := by
  refine (get_after_delete_iff Host.utc "socket" [fun _ => Time.epoch] savedOnce
    [.turn 0, .turn 0, .turn 0, .turn 1, .turn 1] (fun _ => Time.epoch) ?_).2 (by simp) rfl
  intro p hp
  obtain rfl | rfl := List.mem_pair.mp hp <;> exact trivial

/-- A read that found the document before the deletion puts it back in the cache
after the deletion, and the subscription is served again. -/
theorem get_after_delete_served_again :
    ¬ ∀ (readers : List Clock) (schedule : List (Move Expiry)) (clock : Clock),
      ((racePool Host.utc "socket" readers savedOnce).run schedule).Finished →
      (Program.run exec (get Host.utc clock "socket")
        ((racePool Host.utc "socket" readers savedOnce).run schedule).state).1 = .error subscriptionNotFound := by
  intro h
  have herror := h [fun _ => Time.epoch]
    [.event (cacheKey "socket"), .turn 1, .turn 1, .turn 0, .turn 0, .turn 0, .turn 1, .turn 1] (fun _ => Time.epoch) ?_
  · obtain ⟨entity, hentity⟩ : ∃ entity, ((racePool Host.utc "socket" [fun _ => Time.epoch] savedOnce).run
        [.event (cacheKey "socket"), .turn 1, .turn 1, .turn 0, .turn 0, .turn 0, .turn 1, .turn 1]).state.redis.get
          (cacheKey "socket") = some (entryText entity) := ⟨_, rfl⟩
    have htruthy := reading_entryText_truthy entity
    rw [run_get, savedSubscription, hentity, if_pos htruthy, if_pos htruthy] at herror
    exact cacheAndReturn_ne_notFound Host.utc _ "socket" _ _ herror
  · intro p hp
    obtain rfl | rfl := List.mem_pair.mp hp <;> exact trivial

end node_backend.subscription_service
