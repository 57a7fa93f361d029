import NodeBackend.Subscription.Service

namespace node_backend.subscription_service

open js store program
open node_backend.infra node_backend.subscription_entity node_backend.exceptions

variable {ids : IdSource} (host : Host) (clock : Clock)

def cacheKey (subscriptionId : String) : String :=
  generateKey subscriptionId SUBSCRIPTIONS

/-- The text that the cache holds for a subscription. -/
def entryText (subscription : SubscriptionEntity) : String :=
  data_parser_helper.text false subscription.getAttributes

def findBySubscriptionId? (subscriptions : Collection ids) (subscriptionId : String) : Option Document :=
  subscriptions.findOne "subscriptionId" subscriptionId

/-- A step on a Redis that loses every entry at once. -/
def execWithoutRedis : Exec Call Call.Reply Failure (Infra ids) := fun call s =>
  let done := exec call { s with redis := KeyValue.empty }
  (done.1, { done.2 with redis := KeyValue.empty })

/-- What `get` reads: the cached value if it is truthy, else the document. -/
def savedSubscription (s : Infra ids) (subscriptionId : String) : Value :=
  let cached := redis_client.reading (s.redis.get (cacheKey subscriptionId))
  if cached.truthy then cached else foundValue (findBySubscriptionId? s.subscriptions subscriptionId)

/-- The attributes of an entity are always written to the cache. -/
theorem run_saveOnCache (subscriptionId : String) (subscription : SubscriptionEntity) (s : Infra ids) :
    Program.run exec (saveOnCache subscriptionId subscription.getAttributes) s =
      (.ok "OK", { s with redis := s.redis.set (cacheKey subscriptionId) (entryText subscription) }) :=
  redis_client.run_set rfl (cacheKey subscriptionId) (by decide) s

/-- The end of `get`, once it has read a value. -/
def cacheAndReturn (subscriptionId : String) (saved : Value) (s : Infra ids) :
    Except Failure SubscriptionEntity × Infra ids :=
  if (saved.prop "_id").unprintable then (.error (.typeError cannotConvertToPrimitive), s)
  else
    let subscription := SubscriptionEntity.new host (clock 0) saved
    (.ok subscription, { s with redis := s.redis.set (cacheKey subscriptionId) (entryText subscription) })

/-- A value that was read is never reported as missing. -/
theorem cacheAndReturn_ne_notFound (subscriptionId : String) (saved : Value) (s : Infra ids) :
    (cacheAndReturn host clock subscriptionId saved s).1 ≠ .error subscriptionNotFound := by
  rw [cacheAndReturn]
  split <;> simp [subscriptionNotFound]

theorem run_get (subscriptionId : String) (s : Infra ids) :
    Program.run exec (get host clock subscriptionId) s =
      if (savedSubscription s subscriptionId).truthy then
        cacheAndReturn host clock subscriptionId (savedSubscription s subscriptionId) s
      else (.error subscriptionNotFound, s) := by
  have hread : Program.run exec (get host clock subscriptionId) s =
      Program.run exec (if (savedSubscription s subscriptionId).truthy then do
        let subscription ← newEntity host (clock 0) (savedSubscription s subscriptionId)
        let _ ← saveOnCache subscriptionId subscription.getAttributes
        return subscription
      else Program.throw subscriptionNotFound) s := by
    rw [get, getFromCache, Program.run_bind_of_ok exec (redis_client.run_get _ s), savedSubscription, cacheKey]
    by_cases hcached : (redis_client.reading (s.redis.get (generateKey subscriptionId SUBSCRIPTIONS))).truthy = true
    · rw [if_pos hcached, if_pos hcached]
      rfl
    · rw [if_neg hcached, if_neg hcached]
      rfl
  rw [hread]
  by_cases hsaved : (savedSubscription s subscriptionId).truthy = true
  · rw [if_pos hsaved, if_pos hsaved, cacheAndReturn]
    cases hprint : ((savedSubscription s subscriptionId).prop "_id").unprintable with
    | true =>
      rw [newEntity_of_unprintable host hprint]
      rfl
    | false =>
      rw [newEntity_of_printable host hprint, if_neg Bool.false_ne_true, Program.pure_eq, Program.done_bind]
      exact Program.run_bind_of_ok exec (run_saveOnCache subscriptionId _ s)
  · rw [if_neg hsaved, if_neg hsaved]
    rfl

theorem run_get_subscriptions (subscriptionId : String) (s : Infra ids) :
    (Program.run exec (get host clock subscriptionId) s).2.subscriptions = s.subscriptions := by
  rw [run_get]
  split
  · rw [cacheAndReturn]
    split <;> rfl
  · rfl

/-- The subscriptions after the write of a `save`, and the document it wrote. -/
def written (subscriptions : Collection ids) (subscriptionId : String) (data : List (String × Value)) :
    Collection ids × String :=
  match findBySubscriptionId? subscriptions subscriptionId with
  | none => (subscriptions.insertOne data, subscriptions.nextId)
  | some doc => (subscriptions.updateOne doc.id data, doc.id)

/-- What `save` leaves and returns once its write is done. -/
def afterReread (subscriptionId : String) (reread : Option Document) (s : Infra ids) :
    Except Failure SubscriptionEntity × Infra ids :=
  match reread with
  | some doc =>
    let text := entryText (SubscriptionEntity.new host (clock 1) doc.toValue)
    (.ok (SubscriptionEntity.new host (clock 2) doc.toValue),
      { s with redis := s.redis.set (cacheKey subscriptionId) text })
  | none => (.ok (SubscriptionEntity.new host (clock 2) (.obj [])), s)

theorem run_rereadAndCache (subscriptionId id : String) (s : Infra ids) :
    Program.run exec (rereadAndCache host clock subscriptionId id) s =
      afterReread host clock subscriptionId (s.subscriptions.get id) s := by
  rw [rereadAndCache, perform, Program.run_bind_of_ok exec (Program.run_perform exec (.get id) s)]
  cases s.subscriptions.get id with
  | none => rfl
  | some doc =>
    have hsave := run_saveOnCache subscriptionId (SubscriptionEntity.new host (clock 1) doc.toValue) s
    change Program.run exec (saveOnCache subscriptionId
      (SubscriptionEntity.new host (clock 1) doc.toValue).getAttributes
      >>= fun _ => newEntity host (clock 2) doc.toValue) s = _
    exact Program.run_bind_of_ok exec hsave

/-- What `save` leaves and returns for data that an entity can be built of. -/
theorem run_save {data : Value} (hprint : (data.prop "_id").unprintable = false) (subscriptionId : String)
    (s : Infra ids) : Program.run exec (save host clock subscriptionId data) s =
      let write := written s.subscriptions subscriptionId (SubscriptionEntity.new host (clock 0) data).attributes
      afterReread host clock subscriptionId (write.1.get write.2) { s with subscriptions := write.1 } := by
  have hfind := Program.run_perform exec (.findOne "subscriptionId" subscriptionId) s
  rw [save_of_printable host clock hprint, findBySubscriptionId, perform, Program.run_bind_of_ok exec hfind, written,
    findBySubscriptionId?]
  cases s.subscriptions.findOne "subscriptionId" subscriptionId with
  | none =>
    have hinsert := Program.run_perform exec
      (.insertOne (SubscriptionEntity.new host (clock 0) data).attributes) s
    exact (Program.run_bind_of_ok exec hinsert).trans (run_rereadAndCache host clock _ _ _)
  | some doc =>
    have hupdate := Program.run_perform exec
      (.updateOne doc.id (SubscriptionEntity.new host (clock 0) data).attributes) s
    exact (Program.run_bind_of_ok exec hupdate).trans (run_rereadAndCache host clock _ _ _)

/-- Data that no entity can be built of is not saved. -/
theorem run_save_of_unprintable {data : Value} (hprint : (data.prop "_id").unprintable = true) (subscriptionId : String)
    (s : Infra ids) : Program.run exec (save host clock subscriptionId data) s =
      (.error (.typeError cannotConvertToPrimitive), s) := by
  have hfind := Program.run_perform exec (.findOne "subscriptionId" subscriptionId) s
  rw [save, findBySubscriptionId, perform, Program.run_bind_of_ok exec hfind, newEntity_of_unprintable host hprint]
  rfl

/-- The subscriptions after the deletion that a `delete` makes, if it makes one. -/
def removed (subscriptions : Collection ids) (subscriptionId : String) : Collection ids :=
  match findBySubscriptionId? subscriptions subscriptionId with
  | none => subscriptions
  | some doc => subscriptions.deleteOne doc.id

theorem run_delete (subscriptionId : String) (s : Infra ids) :
    Program.run exec (delete subscriptionId) s =
      (.ok (findBySubscriptionId? s.subscriptions subscriptionId).isSome,
        { s with subscriptions := removed s.subscriptions subscriptionId
                 redis := s.redis.delete (cacheKey subscriptionId) }) := by
  have hfind := Program.run_perform exec (.findOne "subscriptionId" subscriptionId) s
  rw [delete, findBySubscriptionId, perform, Program.run_bind_of_ok exec hfind, removed, findBySubscriptionId?]
  cases hfound : s.subscriptions.findOne "subscriptionId" subscriptionId with
  | none => rfl
  | some doc =>
    have hstored : (s.subscriptions.get doc.id).isSome = true := by
      rw [Collection.get, List.find?_isSome]
      exact ⟨doc, List.mem_of_find?_eq_some hfound, by simp⟩
    have hdelete := Program.run_perform exec (.deleteOne doc.id) s
    rw [exec, if_pos hstored] at hdelete
    dsimp only
    rw [Program.map_eq, perform, Program.run_bind_of_ok exec (Program.run_bind_of_ok exec hdelete)]
    rfl

end node_backend.subscription_service
