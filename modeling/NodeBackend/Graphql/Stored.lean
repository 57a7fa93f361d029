import NodeBackend.Events.OwnWrites
import NodeBackend.Subscription.Listing

namespace node_backend.connection_service

open js store program
open node_backend.infra node_backend.subscription_entity node_backend.subscription_service

variable {ids : IdSource}

/-- A mutation of the resolver that saves its input. -/
inductive Mutation
  | createConnection (createConnectionInputDto : CreateConnectionInputDto)
  | updateConnection (updateConnectionInputDto : UpdateConnectionInputDto)

def Mutation.input : Mutation → CreateConnectionInputDto
  | createConnection dto => dto
  | updateConnection dto => dto.toCreateConnectionInputDto

def Mutation.program (host : Host) (clock : Clock) : Mutation → Promise SubscriptionEntity
  | createConnection dto => create host clock dto
  | updateConnection dto => update host clock dto

/-- A subscription has what an input sets. -/
structure Shows (subscription : SubscriptionEntity) (input : CreateConnectionInputDto) : Prop where
  subscriptionId : subscription.subscriptionId = .str input.subscriptionId
  clientId : ∀ clientId, input.clientId = some clientId → subscription.clientId = .str clientId
  newConnectionsListen : subscription.newConnectionsListen = input.newConnectionsListen

/-- A mutation returns what its input sets, and so does a findConnection that follows it,
whatever entries of the cache expire meanwhile. -/
def Stores (host : Host) (s : Infra ids) (clock : Clock) (mutation : Mutation) : Prop :=
  ∃ returned s', Program.run exec (mutation.program host clock) s = (.ok returned, s') ∧ Shows returned mutation.input ∧
    ∀ expired clock', ∃ found, (Program.run exec (findOne host clock' mutation.input.subscriptionId)
      (expireAll expired s')).1 = .ok found ∧ Shows found mutation.input

theorem lookup_flattened_toValue {doc : Document} (hkeys : (doc.fields.map Prod.fst).Nodup)
    {listen values : List (String × Value)} (hlisten : doc.fields.lookup "listen" = some (.obj listen))
    (hvalues : doc.fields.lookup "dataValues" = some (.obj values)) (hlistenKeys : (listen.map Prod.fst).Nodup)
    (hvaluesKeys : (values.map Prod.fst).Nodup) {key : String} (hkey : key ≠ "_id") :
    (flattened doc.toValue).prop key =
      ((values.lookup key).or ((listen.lookup key).or (doc.fields.lookup key))).getD .undefined := by
  have hlistenProp : doc.toValue.prop "listen" = .obj listen := by
    rw [Document.toValue, web_socket_server.prop_object, json.lookup_cons_of_ne _ _ (by simp), hlisten,
      Option.getD_some]
  have hvaluesProp : doc.toValue.prop "dataValues" = .obj values := by
    rw [Document.toValue, web_socket_server.prop_object, json.lookup_cons_of_ne _ _ (by simp), hvalues,
      Option.getD_some]
  have htop : (json.setFields [] (("_id", Value.objectId doc.id) :: doc.fields)).lookup key =
      doc.fields.lookup key := by
    rw [json.lookup_setFields, List.reverse_cons, List.lookup_append, json.lookup_reverse hkeys,
      json.lookup_cons_of_ne _ _ hkey, List.lookup_nil, Option.or_none, Option.or_none]
  rw [flattened, object, hlistenProp, hvaluesProp, web_socket_server.prop_object]
  change ((json.setFields [] ((("_id", Value.objectId doc.id) :: doc.fields) ++ (listen ++ (values ++ [])))).lookup
    key).getD _ = _
  rw [List.append_nil, ← List.append_assoc, web_socket_server.lookup_setFields_append _ _ _ hvaluesKeys,
    web_socket_server.lookup_setFields_append _ _ _ hlistenKeys, htop]

/-- A document holds the attributes of an entity, and maybe other fields. -/
structure Holds (doc : Document) (entity : SubscriptionEntity) : Prop where
  keys : (doc.fields.map Prod.fst).Nodup
  attributes : ∀ key value, (key, value) ∈ entity.attributes → doc.fields.lookup key = some (toBson value)

theorem holds_inserted (id : String) (entity : SubscriptionEntity) :
    Holds ⟨id, fieldsToBson entity.attributes⟩ entity where
  keys := by
    rw [fieldsToBson_keys]
    simp [SubscriptionEntity.attributes]
  attributes := by
    intro key value hmem
    fin_cases hmem <;> rfl

theorem holds_updated {doc : Document} (hkeys : (doc.fields.map Prod.fst).Nodup) (entity : SubscriptionEntity) :
    Holds (doc.update entity.attributes) entity where
  keys := json.setFields_nodup _ hkeys
  attributes := by
    intro key value hmem
    have hinserted := holds_inserted doc.id entity
    rw [Document.update, json.lookup_setFields, json.lookup_reverse hinserted.keys, hinserted.attributes key value hmem,
      Option.some_or]

/-- The fields of an entity under `dataValues`. -/
def storedValues (entity : SubscriptionEntity) : List (String × Value) :=
  [("clientId", entity.clientId.coalesce .undefined),
    ("createdAt", .date entity.createdAt),
    ("updatedAt", entity.updatedAt.coalesce .undefined)]

/-- Its fields under `listen`. -/
def storedListen (entity : SubscriptionEntity) : List (String × Value) :=
  [("newConnections", .bool entity.newConnectionsListen)]

/-- The other fields do not show in the entity that is made of it. -/
theorem Holds.new_eq {doc : Document} {entity : SubscriptionEntity} (h : Holds doc entity) (host : Host) (now : Time) :
    SubscriptionEntity.new host now doc.toValue =
      SubscriptionEntity.new host now (⟨doc.id, fieldsToBson entity.attributes⟩ : Document).toValue := by
  have hid := h.attributes "id" entity.databaseId (by simp [SubscriptionEntity.attributes])
  have hsubscriptionId := h.attributes "subscriptionId" entity.subscriptionId (by simp [SubscriptionEntity.attributes])
  have hvalues := h.attributes "dataValues" (.obj (storedValues entity))
    (by simp [SubscriptionEntity.attributes, storedValues])
  have hlisten := h.attributes "listen" (.obj (storedListen entity))
    (by simp [SubscriptionEntity.attributes, storedListen])
  have hprop : ∀ key, key ≠ "_id" → (flattened doc.toValue).prop key =
      (((fieldsToBson (storedValues entity)).lookup key).or
        (((fieldsToBson (storedListen entity)).lookup key).or (doc.fields.lookup key))).getD .undefined := by
    intro key hkey
    apply lookup_flattened_toValue h.keys hlisten hvalues ?_ ?_ hkey
    · rw [fieldsToBson_keys]
      simp [storedListen]
    · rw [fieldsToBson_keys]
      simp [storedValues]
  have hflatId := hprop "id" (by simp)
  have hflatSubscriptionId := hprop "subscriptionId" (by simp)
  have hflatClientId := hprop "clientId" (by simp)
  have hflatCreatedAt := hprop "createdAt" (by simp)
  have hflatUpdatedAt := hprop "updatedAt" (by simp)
  have hflatNewConnections := hprop "newConnections" (by simp)
  have hflatListen := hprop "listen" (by simp)
  rw [hid] at hflatId
  rw [hsubscriptionId] at hflatSubscriptionId
  rw [hlisten] at hflatListen
  dsimp only [SubscriptionEntity.new]
  rw [hflatId, hflatSubscriptionId, hflatClientId, hflatCreatedAt, hflatUpdatedAt, hflatNewConnections, hflatListen]
  rfl

theorem Holds.matches {doc : Document} {entity : SubscriptionEntity} (h : Holds doc entity) {subscriptionId : String}
    (howned : entity.subscriptionId = .str subscriptionId) : doc.matches "subscriptionId" subscriptionId = true := by
  have hlookup := h.attributes "subscriptionId" entity.subscriptionId (by simp [SubscriptionEntity.attributes])
  rw [Document.matches, web_socket_server.prop_object, hlookup, howned, Option.getD_some, toBson_str]
  simp [equalsOrContains]

/-- Every document names each of its fields once. -/
def KeyedOnce (subscriptions : Collection ids) : Prop :=
  ∀ doc ∈ subscriptions.documents, (doc.fields.map Prod.fst).Nodup

/-- What a save wrote under the identifier of its entity is found by it. -/
theorem written_holds {subscriptions : Collection ids} (hkeys : KeyedOnce subscriptions) {subscriptionId : String}
    {entity : SubscriptionEntity} (howned : entity.subscriptionId = .str subscriptionId) :
    ∃ doc, (written subscriptions subscriptionId entity.attributes).1.get
        (written subscriptions subscriptionId entity.attributes).2 = some doc ∧
      findBySubscriptionId? (written subscriptions subscriptionId entity.attributes).1 subscriptionId = some doc ∧
      Holds doc entity := by
  unfold written
  cases hfound : findBySubscriptionId? subscriptions subscriptionId with
  | none =>
    have hholds := holds_inserted subscriptions.nextId entity
    refine ⟨_, Collection.get_insertOne subscriptions _, ?_, hholds⟩
    dsimp only
    rw [findBySubscriptionId?, Collection.findOne_insertOne, ← findBySubscriptionId?, hfound,
      if_pos (hholds.matches howned), Option.none_or]
  | some doc =>
    have hmem := (Collection.mem_of_findOne hfound).1
    have hholds := holds_updated (hkeys doc hmem) entity
    exact ⟨_, Collection.get_updateOne hmem _, Collection.findOne_updateOne_self hfound (hholds.matches howned), hholds⟩

def Mutation.data : Mutation → Value
  | createConnection dto => dto.toValue
  | updateConnection dto => dto.toValue

/-- The database identifier that a subscription shows after a mutation of its document. -/
def Mutation.databaseId (mutation : Mutation) (id : String) : String :=
  match mutation with
  | createConnection _ => id
  | updateConnection dto => dto.id

/-- The subscription that an input makes, whatever it says of new connections. -/
def subscriptionOf (input : CreateConnectionInputDto) (databaseId : String) (createdAt : Time) :
    SubscriptionEntity where
  databaseId := .str databaseId
  subscriptionId := .str input.subscriptionId
  clientId := input.clientId.elim .null .str
  createdAt := some createdAt
  updatedAt := .null
  newConnectionsListen := false

theorem new_holds {host : Host} {now : Time} {doc : Document} {mutation : Mutation}
    (h : Holds doc (SubscriptionEntity.new host now mutation.data)) (other : Host) (later : Time) :
    SubscriptionEntity.new other later doc.toValue =
      subscriptionOf mutation.input (mutation.databaseId doc.id) now := by
  rw [h.new_eq, new_stored other later rfl]
  obtain ⟨subscriptionId, clientId, newConnectionsListen⟩ | ⟨⟨subscriptionId, clientId, newConnectionsListen⟩, id⟩ :=
    mutation <;> cases clientId <;> rfl

/-- What JSON writes of such a subscription. -/
def textOf (input : CreateConnectionInputDto) (databaseId : String) (createdAt : Time) : json.Value :=
  attributesText (.str databaseId) (.str input.subscriptionId) (input.clientId.map .str) createdAt none false

theorem toJson_subscriptionOf (input : CreateConnectionInputDto) (databaseId : String) (createdAt : Time) :
    (subscriptionOf input databaseId createdAt).getAttributes.toJson = some (textOf input databaseId createdAt) := by
  obtain ⟨subscriptionId, clientId, newConnectionsListen⟩ := input
  cases clientId <;> rfl

theorem textOf_proper (input : CreateConnectionInputDto) (databaseId : String) (createdAt : Time) :
    (textOf input databaseId createdAt).Proper := by
  obtain ⟨subscriptionId, clientId, newConnectionsListen⟩ := input
  cases clientId <;> simp [textOf, attributesText, optionalField, json.Value.proper_obj_iff, json.Value.Proper.str,
    json.Value.Proper.bool]

/-- What the cache holds of it. -/
theorem reading_subscriptionOf (input : CreateConnectionInputDto) (databaseId : String) (createdAt : Time) :
    redis_client.reading (some (entryText (subscriptionOf input databaseId createdAt))) =
      ofJson (textOf input databaseId createdAt) :=
  reading_entryText (textOf_proper input databaseId createdAt) (toJson_subscriptionOf input databaseId createdAt)

theorem new_textOf (host : Host) (now : Time) (input : CreateConnectionInputDto) (databaseId : String)
    (createdAt : Time) : SubscriptionEntity.new host now (ofJson (textOf input databaseId createdAt)) =
      subscriptionOf input databaseId createdAt := by
  rw [textOf, new_ofJson, host.fromISO_toISOString]
  obtain ⟨subscriptionId, clientId, newConnectionsListen⟩ := input
  cases clientId <;> rfl

theorem get_expireAll (keys : List String) (s : Infra ids) (key : String) :
    (expireAll keys s).redis.get key = s.redis.get key ∨ (expireAll keys s).redis.get key = none := by
  induction keys generalizing s with
  | nil => exact Or.inl rfl
  | cons other keys ih =>
    obtain hsame | hnone := ih (s.expire other)
    · change (expireAll (other :: keys) s).redis.get key = (s.redis.delete other).get key at hsame
      rw [hsame, KeyValue.get_delete]
      split
      · exact Or.inr rfl
      · exact Or.inl rfl
    · exact Or.inr hnone

/-- A subscription that is found in the cache or in the collection is returned. -/
theorem run_findOne {s : Infra ids} {subscriptionId : String} {doc : Document} {subscription : SubscriptionEntity}
    (host : Host) (clock : Clock) (hfound : findBySubscriptionId? s.subscriptions subscriptionId = some doc)
    (hdoc : SubscriptionEntity.new host (clock 0) doc.toValue = subscription)
    (hcached : ∀ text, s.redis.get (cacheKey subscriptionId) = some text →
      (redis_client.reading (some text)).truthy = true ∧
      ((redis_client.reading (some text)).prop "_id").unprintable = false ∧
      SubscriptionEntity.new host (clock 0) (redis_client.reading (some text)) = subscription) :
    (Program.run exec (findOne host clock subscriptionId) s).1 = .ok subscription := by
  unfold findOne
  rw [run_get]
  have hsaved : (savedSubscription s subscriptionId).truthy = true ∧
      ((savedSubscription s subscriptionId).prop "_id").unprintable = false ∧
      SubscriptionEntity.new host (clock 0) (savedSubscription s subscriptionId) = subscription := by
    unfold savedSubscription
    cases htext : s.redis.get (cacheKey subscriptionId) with
    | none =>
      rw [hfound]
      exact ⟨rfl, rfl, hdoc⟩
    | some text =>
      obtain ⟨htruthy, hprint, hnew⟩ := hcached text htext
      rw [if_pos htruthy]
      exact ⟨htruthy, hprint, hnew⟩
  obtain ⟨htruthy, hprint, hnew⟩ := hsaved
  rw [if_pos htruthy, cacheAndReturn, hprint, if_neg Bool.false_ne_true, hnew]

theorem new_data_subscriptionId (host : Host) (now : Time) (mutation : Mutation) :
    (SubscriptionEntity.new host now mutation.data).subscriptionId = .str mutation.input.subscriptionId := by
  cases mutation <;> rfl

/-- What a mutation returns, and what is found after it: the subscription that the input
makes without its word on new connections. -/
theorem run_mutation (host : Host) (clock : Clock) {s : Infra ids} (hkeys : KeyedOnce s.subscriptions)
    (mutation : Mutation) : ∃ databaseId s',
    Program.run exec (mutation.program host clock) s =
      (.ok (subscriptionOf mutation.input databaseId (clock 0)), s') ∧
    ∀ expired clock', (Program.run exec (findOne host clock' mutation.input.subscriptionId) (expireAll expired s')).1 =
      .ok (subscriptionOf mutation.input databaseId (clock 0)) := by
  obtain ⟨doc, hreread, hfound, hholds⟩ := written_holds hkeys (new_data_subscriptionId host (clock 0) mutation)
  have hprint : (mutation.data.prop "_id").unprintable = false := by
    cases mutation <;> rfl
  have hprogram : mutation.program host clock =
      subscription_service.save host clock mutation.input.subscriptionId mutation.data := by
    cases mutation <;> rfl
  rw [hprogram, run_save host clock hprint]
  dsimp only
  rw [hreread, afterReread, new_holds hholds, new_holds hholds]
  refine ⟨_, _, rfl, fun expired clock' => ?_⟩
  refine run_findOne host clock' ?_ (new_holds hholds host (clock' 0)) fun text htext => ?_
  · rw [expireAll_subscriptions]
    exact hfound
  · obtain hsame | hnone := get_expireAll expired _ (cacheKey mutation.input.subscriptionId)
    · rw [hsame, KeyValue.get_set_self] at htext
      cases htext
      rw [reading_subscriptionOf, new_textOf]
      exact ⟨rfl, rfl, rfl⟩
    · rw [hnone] at htext
      cases htext

theorem shows_subscriptionOf {input : CreateConnectionInputDto} (hlisten : input.newConnectionsListen = false)
    (databaseId : String) (createdAt : Time) : Shows (subscriptionOf input databaseId createdAt) input where
  subscriptionId := rfl
  clientId := by
    intro clientId hclientId
    rw [subscriptionOf, hclientId]
    rfl
  newConnectionsListen := hlisten.symm

theorem not_stores_of_listen (host : Host) {s : Infra ids} (hkeys : KeyedOnce s.subscriptions) (clock : Clock)
    {mutation : Mutation} (hlisten : mutation.input.newConnectionsListen = true) : ¬ Stores host s clock mutation := by
  intro hstores
  obtain ⟨returned, s', hrun, hshows, _⟩ := hstores
  obtain ⟨databaseId, _, hreturned, _⟩ := run_mutation host clock hkeys mutation
  rw [hreturned] at hrun
  cases hrun
  have hflag := hshows.newConnectionsListen
  rw [hlisten] at hflag
  cases hflag

/-- A mutation stores what its input sets exactly where the input does not ask to listen
to new connections. -/
theorem stores_iff (host : Host) {s : Infra ids} (hkeys : KeyedOnce s.subscriptions) (clock : Clock)
    (mutation : Mutation) : Stores host s clock mutation ↔ mutation.input.newConnectionsListen = false := by
  constructor
  · intro hstores
    by_contra hlisten
    exact not_stores_of_listen host hkeys clock (by simpa using hlisten) hstores
  · intro hlisten
    obtain ⟨databaseId, s', hreturned, hfound⟩ := run_mutation host clock hkeys mutation
    exact ⟨_, s', hreturned, shows_subscriptionOf hlisten databaseId _, fun expired clock' =>
      ⟨_, hfound expired clock', shows_subscriptionOf hlisten databaseId _⟩⟩

theorem keyedOnce_empty : KeyedOnce (Infra.empty : Infra ids).subscriptions := by
  simp [KeyedOnce, Infra.empty, Collection.empty]

/-- A client that asks to listen, or does not. -/
def clientMutation (newConnectionsListen : Bool) : Mutation :=
  .createConnection ⟨"a", some "client", newConnectionsListen⟩

theorem stores_clientMutation :
    Stores Host.utc (Infra.empty : Infra IdSource.counting) (fun _ => Time.epoch) (clientMutation false) ↔
      false = false :=
  stores_iff Host.utc keyedOnce_empty (fun _ => Time.epoch) (clientMutation false)

/-- A client that asks to listen is stored as one that does not. -/
theorem not_stores : ¬ ∀ (host : Host) (s : Infra IdSource.counting) (clock : Clock) (mutation : Mutation),
    KeyedOnce s.subscriptions → Stores host s clock mutation := by
  intro h
  exact not_stores_of_listen Host.utc keyedOnce_empty (fun _ => Time.epoch) rfl
    (h Host.utc Infra.empty (fun _ => Time.epoch) (clientMutation true) keyedOnce_empty)

end node_backend.connection_service
