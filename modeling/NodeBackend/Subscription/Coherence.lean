import NodeBackend.Subscription.Encoding

namespace node_backend.subscription_service

open js store program
open node_backend.infra node_backend.subscription_entity node_backend.exceptions

variable {ids : IdSource}

theorem cacheKey_injective : Function.Injective cacheKey := by
  intro a b h
  have htext := congrArg String.toList h
  simp only [cacheKey, generateKey, String.toList_append] at htext
  exact String.toList_injective (List.append_cancel_left (List.append_cancel_left htext))

/-- A document as `save` writes it for a subscription: the attributes of an
entity that carries the subscription's identifier. -/
structure StoredFor (doc : Document) (subscriptionId : String) (entity : SubscriptionEntity) : Prop where
  fields : doc.fields = fieldsToBson entity.attributes
  owned : entity.subscriptionId = .str subscriptionId
  proper : entity.databaseId.Proper ∧ entity.clientId.Proper ∧ entity.updatedAt.Proper

theorem StoredFor.matches_iff {doc : Document} {subscriptionId : String} {entity : SubscriptionEntity}
    (h : StoredFor doc subscriptionId entity) (other : String) :
    doc.matches "subscriptionId" other = true ↔ subscriptionId = other := by
  have hprop : (Value.obj doc.fields).prop "subscriptionId" = .str subscriptionId := by
    rw [h.fields]
    change toBson entity.subscriptionId = _
    rw [h.owned, toBson_str]
  rw [Document.matches, hprop, equalsOrContains, beq_iff_eq]

/-- Reading a stored document gives the same entity at any time. -/
theorem StoredFor.new_eq {doc : Document} {subscriptionId : String} {entity : SubscriptionEntity}
    (h : StoredFor doc subscriptionId entity) (host other : Host) (now later : Time) :
    SubscriptionEntity.new host now doc.toValue = SubscriptionEntity.new other later doc.toValue := by
  rw [new_stored host now h.fields, new_stored other later h.fields]

/-- An entity none of whose attributes is a number beyond the finite ones. -/
structure FiniteAttributes (entity : SubscriptionEntity) : Prop where
  databaseId : Finite entity.databaseId
  clientId : Finite entity.clientId
  updatedAt : Finite entity.updatedAt

theorem StoredFor.settled {doc : Document} {subscriptionId : String} {entity : SubscriptionEntity}
    (h : StoredFor doc subscriptionId entity) (hfinite : FiniteAttributes entity) (host : Host) (now : Time) :
    Settled (SubscriptionEntity.new host now doc.toValue) := by
  obtain ⟨hdatabaseId, hclientId, hupdatedAt⟩ := h.proper
  rw [new_stored host now h.fields]
  refine ⟨?_, ?_, ?_, rfl, ?_, ?_⟩
  · exact orDefault_toBson_solid hfinite.databaseId ⟨_, rfl, by simp⟩
  · exact orDefault_toBson_solid (by simp [Finite, h.owned]) ⟨_, rfl, by simp⟩
  · exact orDefault_toBson_attribute hfinite.clientId.coalesce
  · exact orDefault_toBson_attribute hfinite.updatedAt.coalesce
  · apply getAttributes_proper
    · exact orDefault_proper (toBson_proper hdatabaseId) (.str _)
    · rw [h.owned]
      exact orDefault_proper (toBson_proper (.str _)) (.str "")
    · exact orDefault_proper (toBson_proper (coalesce_proper hclientId .undefined)) .null
    · exact orDefault_proper (toBson_proper (coalesce_proper hupdatedAt .undefined)) .null

/-- Every document was written for a subscription. -/
def Owned (subscriptions : Collection ids) : Prop :=
  ∀ doc ∈ subscriptions.documents, ∃ subscriptionId entity, StoredFor doc subscriptionId entity

/-- Every document was written for a subscription, of an entity with finite attributes, and
every live cache entry is the text of the first document of its subscription. -/
structure Coherent (s : Infra ids) : Prop where
  stored : ∀ doc ∈ s.subscriptions.documents,
    ∃ subscriptionId entity, StoredFor doc subscriptionId entity ∧ FiniteAttributes entity
  cached : ∀ subscriptionId text, s.redis.get (cacheKey subscriptionId) = some text →
    ∃ doc, findBySubscriptionId? s.subscriptions subscriptionId = some doc ∧
      ∀ host now, text = entryText (SubscriptionEntity.new host now doc.toValue)

theorem coherent_empty : Coherent (Infra.empty : Infra ids) where
  stored := by simp [Infra.empty, Collection.empty]
  cached := by simp [Infra.empty]

theorem owned_empty : Owned (Infra.empty : Infra ids).subscriptions := by
  simp [Owned, Infra.empty, Collection.empty]

/-- Found documents are stored for the identifier they were found by. -/
theorem Owned.found {subscriptions : Collection ids} (h : Owned subscriptions) {subscriptionId : String}
    {doc : Document} (hfound : findBySubscriptionId? subscriptions subscriptionId = some doc) :
    ∃ entity, StoredFor doc subscriptionId entity := by
  obtain ⟨hmem, hmatches⟩ := Collection.mem_of_findOne hfound
  obtain ⟨owner, entity, hstored⟩ := h doc hmem
  have howner := (hstored.matches_iff subscriptionId).mp hmatches
  subst howner
  exact ⟨entity, hstored⟩

theorem Coherent.owned {s : Infra ids} (h : Coherent s) : Owned s.subscriptions := by
  intro doc hdoc
  obtain ⟨subscriptionId, entity, hstored, _⟩ := h.stored doc hdoc
  exact ⟨subscriptionId, entity, hstored⟩

theorem Coherent.found {s : Infra ids} (h : Coherent s) {subscriptionId : String} {doc : Document}
    (hfound : findBySubscriptionId? s.subscriptions subscriptionId = some doc) :
    ∃ entity, StoredFor doc subscriptionId entity ∧ FiniteAttributes entity := by
  obtain ⟨hmem, hmatches⟩ := Collection.mem_of_findOne hfound
  obtain ⟨owner, entity, hstored, hfinite⟩ := h.stored doc hmem
  have howner := (hstored.matches_iff subscriptionId).mp hmatches
  subst howner
  exact ⟨entity, hstored, hfinite⟩

/-- Expiry of an entry leaves the others as they were. -/
theorem Coherent.expire {s : Infra ids} (h : Coherent s) (key : String) : Coherent (s.expire key) where
  stored := h.stored
  cached := fun subscriptionId text hget => h.cached subscriptionId text (KeyValue.get_of_get_delete hget)

/-- An entry that holds the text of the first document of its subscription may
be set at any time. -/
theorem Coherent.set {s : Infra ids} (h : Coherent s) {subscriptionId text : String} {doc : Document}
    (hfound : findBySubscriptionId? s.subscriptions subscriptionId = some doc)
    (htext : ∀ host now, text = entryText (SubscriptionEntity.new host now doc.toValue)) :
    Coherent { s with redis := s.redis.set (cacheKey subscriptionId) text } where
  stored := h.stored
  cached := by
    intro other entry hget
    by_cases hother : other = subscriptionId
    · subst hother
      rw [KeyValue.get_set_self, Option.some.injEq] at hget
      subst hget
      exact ⟨doc, hfound, htext⟩
    · rw [KeyValue.get_set_of_ne _ _ fun heq => hother (cacheKey_injective heq)] at hget
      exact h.cached other entry hget

/-- A read of a cached subscription gives what a read of its document gives. -/
theorem Coherent.reading {s : Infra ids} (h : Coherent s) {subscriptionId text : String}
    (hget : s.redis.get (cacheKey subscriptionId) = some text) (host : Host) (now : Time) :
    ∃ doc, findBySubscriptionId? s.subscriptions subscriptionId = some doc ∧
      (redis_client.reading (some text)).truthy = true ∧
      ((redis_client.reading (some text)).prop "_id").unprintable = false ∧
      (SubscriptionEntity.new host now (redis_client.reading (some text))).getAttributes.toJson =
        (SubscriptionEntity.new host now doc.toValue).getAttributes.toJson := by
  obtain ⟨doc, hfound, htext⟩ := h.cached subscriptionId text hget
  obtain ⟨entity, hstored, hfinite⟩ := h.found hfound
  rw [htext host now]
  exact ⟨doc, hfound, (hstored.settled hfinite host now).new_reading host now⟩

/-- The outcome of a `get` that reads MongoDB alone. -/
def foundOutcome (host : Host) (now : Time) (found : Option Document) : Except Failure SubscriptionEntity :=
  match found with
  | some doc => .ok (SubscriptionEntity.new host now doc.toValue)
  | none => .error subscriptionNotFound

/-- The outcome of a program with its subscription serialised. -/
def serialised (outcome : Except Failure SubscriptionEntity) : Except Failure (Option json.Value) :=
  outcome.map fun subscription => subscription.getAttributes.toJson

/-- A `get` on a coherent store has the outcome of its document, and leaves the
store coherent. -/
theorem Coherent.get {s : Infra ids} (h : Coherent s) (host : Host) (clock : Clock) (subscriptionId : String) :
    serialised (Program.run exec (get host clock subscriptionId) s).1 =
      serialised (foundOutcome host (clock 0) (findBySubscriptionId? s.subscriptions subscriptionId)) ∧
    (Program.run exec (get host clock subscriptionId) s).2.subscriptions = s.subscriptions ∧
    Coherent (Program.run exec (get host clock subscriptionId) s).2 := by
  rw [run_get, savedSubscription]
  cases hcached : s.redis.get (cacheKey subscriptionId) with
  | some text =>
    obtain ⟨doc, hfound, htruthy, hprint, hattributes⟩ := h.reading hcached host (clock 0)
    obtain ⟨entity, hstored, _⟩ := h.found hfound
    rw [if_pos htruthy, if_pos htruthy, hfound, cacheAndReturn, hprint, if_neg Bool.false_ne_true]
    refine ⟨congrArg Except.ok hattributes, rfl, ?_⟩
    apply h.set hfound
    intro other later
    rw [entryText_congr hattributes, hstored.new_eq other host later (clock 0)]
  | none =>
    cases hfound : findBySubscriptionId? s.subscriptions subscriptionId with
    | none => exact ⟨rfl, rfl, h⟩
    | some doc =>
      obtain ⟨entity, hstored, _⟩ := h.found hfound
      refine ⟨rfl, rfl, h.set hfound fun other later => ?_⟩
      exact congrArg entryText (hstored.new_eq host other (clock 0) later)

/-- Data that an entity can be built of and whose entity carries the identifier that it is saved under. -/
structure OwnData (host : Host) (clock : Clock) (subscriptionId : String) where
  data : Value
  proper : data.Proper
  printable : (data.prop "_id").unprintable = false
  owned : (SubscriptionEntity.new host (clock 0) data).subscriptionId = .str subscriptionId

theorem OwnData.storedFor {host : Host} {clock : Clock} {subscriptionId : String}
    (own : OwnData host clock subscriptionId) (id : String) :
    StoredFor ⟨id, fieldsToBson (SubscriptionEntity.new host (clock 0) own.data).attributes⟩ subscriptionId
      (SubscriptionEntity.new host (clock 0) own.data) :=
  ⟨rfl, own.owned, new_proper host (clock 0) own.proper⟩

/-- The data that names a subscription and nothing else. -/
def OwnData.ofId (host : Host) (clock : Clock) (subscriptionId : String) : OwnData host clock subscriptionId where
  data := .obj [("subscriptionId", .str subscriptionId)]
  proper := .obj (by simp) (by simpa using .str subscriptionId)
  printable := rfl
  owned := rfl

/-- The write of a save leaves exactly its own document for its subscription,
and what is found for other subscriptions as it was. -/
structure SavedAs (before after : Collection ids) (subscriptionId id : String) (doc : Document) : Prop where
  reread : after.get id = some doc
  found : findBySubscriptionId? after subscriptionId = some doc
  stored : ∃ entity, StoredFor doc subscriptionId entity
  others : ∀ other, other ≠ subscriptionId → findBySubscriptionId? after other = findBySubscriptionId? before other
  documents : ∀ old ∈ after.documents, old = doc ∨ old ∈ before.documents

theorem savedAs_insertOne (collection : Collection ids) {host : Host} {clock : Clock} {subscriptionId : String}
    (own : OwnData host clock subscriptionId) (hnone : findBySubscriptionId? collection subscriptionId = none) :
    SavedAs collection (collection.insertOne (SubscriptionEntity.new host (clock 0) own.data).attributes)
      subscriptionId collection.nextId
      ⟨collection.nextId, fieldsToBson (SubscriptionEntity.new host (clock 0) own.data).attributes⟩ where
  reread := Collection.get_insertOne collection _
  found := by
    have hmatches := ((own.storedFor collection.nextId).matches_iff subscriptionId).mpr rfl
    rw [findBySubscriptionId?, Collection.findOne_insertOne, ← findBySubscriptionId?, hnone, if_pos hmatches,
      Option.none_or]
  stored := ⟨_, own.storedFor collection.nextId⟩
  others := by
    intro other hother
    have hnot := mt ((own.storedFor collection.nextId).matches_iff other).mp (Ne.symm hother)
    rw [findBySubscriptionId?, Collection.findOne_insertOne, if_neg hnot, Option.or_none, findBySubscriptionId?]
  documents := by
    intro old hold
    obtain hold | hnew := List.mem_append.mp hold
    · exact Or.inr hold
    · exact Or.inl (List.mem_singleton.mp hnew)

theorem savedAs_updateOne {collection : Collection ids} {host : Host} {clock : Clock} {subscriptionId : String}
    (own : OwnData host clock subscriptionId) {doc : Document} {entity : SubscriptionEntity}
    (hfound : findBySubscriptionId? collection subscriptionId = some doc)
    (hstored : StoredFor doc subscriptionId entity) :
    SavedAs collection (collection.updateOne doc.id (SubscriptionEntity.new host (clock 0) own.data).attributes)
      subscriptionId doc.id
      ⟨doc.id, fieldsToBson (SubscriptionEntity.new host (clock 0) own.data).attributes⟩ := by
  have hupdate : doc.update (SubscriptionEntity.new host (clock 0) own.data).attributes =
      ⟨doc.id, fieldsToBson (SubscriptionEntity.new host (clock 0) own.data).attributes⟩ := by
    rw [Document.update, hstored.fields, setFields_attributes]
  have hown := own.storedFor doc.id
  have hmem := (Collection.mem_of_findOne hfound).1
  refine ⟨?_, ?_, ⟨_, hown⟩, ?_, ?_⟩
  · rw [Collection.get_updateOne hmem, hupdate]
  · have hmatches := (hown.matches_iff subscriptionId).mpr rfl
    rw [← hupdate] at hmatches ⊢
    exact Collection.findOne_updateOne_self hfound hmatches
  · intro other hother
    have hold := mt (hstored.matches_iff other).mp (Ne.symm hother)
    have hnew := mt (hown.matches_iff other).mp (Ne.symm hother)
    rw [← hupdate] at hnew
    exact Collection.findOne_updateOne_of_not_matches hmem (by simpa using hold) (by simpa using hnew)
  · intro old hold
    obtain ⟨source, hsource, rfl⟩ := Collection.mem_updateOne.mp hold
    by_cases hid : source.id = doc.id
    · rw [if_pos hid, List.inj_on_of_nodup_map collection.distinct hsource hmem hid, hupdate]
      exact Or.inl rfl
    · rw [if_neg hid]
      exact Or.inr hsource

/-- The write of a save leaves a document with the attributes of its own entity. -/
theorem Owned.savedAs {subscriptions : Collection ids} (h : Owned subscriptions) {host : Host} {clock : Clock}
    {subscriptionId : String} (own : OwnData host clock subscriptionId) :
    ∃ id, SavedAs subscriptions
      (written subscriptions subscriptionId (SubscriptionEntity.new host (clock 0) own.data).attributes).1
        subscriptionId
      (written subscriptions subscriptionId (SubscriptionEntity.new host (clock 0) own.data).attributes).2
      ⟨id, fieldsToBson (SubscriptionEntity.new host (clock 0) own.data).attributes⟩ := by
  cases hfound : findBySubscriptionId? subscriptions subscriptionId with
  | none =>
    rw [written, hfound]
    exact ⟨_, savedAs_insertOne subscriptions own hfound⟩
  | some doc =>
    obtain ⟨entity, hstored⟩ := h.found hfound
    rw [written, hfound]
    exact ⟨_, savedAs_updateOne own hfound hstored⟩

theorem Owned.save {s : Infra ids} (h : Owned s.subscriptions) {host : Host} {clock : Clock} {subscriptionId : String}
    (own : OwnData host clock subscriptionId) :
    Owned (Program.run exec (save host clock subscriptionId own.data) s).2.subscriptions := by
  obtain ⟨id, hsaved⟩ := h.savedAs own
  rw [run_save host clock own.printable]
  dsimp only
  rw [hsaved.reread, afterReread]
  intro old hold
  obtain rfl | hbefore := hsaved.documents old hold
  · exact ⟨subscriptionId, hsaved.stored⟩
  · exact h old hbefore

/-- A save of an entity with finite attributes leaves a coherent store coherent. What it
returns and what it writes to the collection do not depend on the cache. -/
theorem Coherent.save {s : Infra ids} (h : Coherent s) {host : Host} {clock : Clock} {subscriptionId : String}
    (own : OwnData host clock subscriptionId)
    (hfinite : FiniteAttributes (SubscriptionEntity.new host (clock 0) own.data)) :
    Coherent (Program.run exec (save host clock subscriptionId own.data) s).2 := by
  obtain ⟨id, hsaved⟩ := h.owned.savedAs own
  have hstored := own.storedFor id
  rw [run_save host clock own.printable]
  dsimp only
  rw [hsaved.reread, afterReread]
  refine ⟨?_, ?_⟩
  · intro old hold
    obtain rfl | hbefore := hsaved.documents old hold
    · exact ⟨subscriptionId, _, hstored, hfinite⟩
    · exact h.stored old hbefore
  · intro other text hget
    by_cases hother : other = subscriptionId
    · subst hother
      rw [KeyValue.get_set_self, Option.some.injEq] at hget
      subst hget
      exact ⟨_, hsaved.found, fun later now => congrArg entryText (hstored.new_eq host later (clock 1) now)⟩
    · rw [KeyValue.get_set_of_ne _ _ fun heq => hother (cacheKey_injective heq)] at hget
      rw [hsaved.others other hother]
      exact h.cached other text hget

/-- A deletion leaves what is found for other subscriptions. -/
theorem Owned.find_removed {subscriptions : Collection ids} (h : Owned subscriptions) {subscriptionId other : String}
    (hother : other ≠ subscriptionId) :
    findBySubscriptionId? (removed subscriptions subscriptionId) other =
      findBySubscriptionId? subscriptions other := by
  rw [removed]
  cases hfound : findBySubscriptionId? subscriptions subscriptionId with
  | none => rfl
  | some doc =>
    obtain ⟨entity, hstored⟩ := h.found hfound
    have hnot := mt (hstored.matches_iff other).mp (Ne.symm hother)
    exact Collection.findOne_deleteOne_of_not_matches (Collection.mem_of_findOne hfound).1 (by simpa using hnot)

theorem mem_of_mem_removed {subscriptions : Collection ids} {subscriptionId : String} {doc : Document}
    (h : doc ∈ (removed subscriptions subscriptionId).documents) : doc ∈ subscriptions.documents := by
  rw [removed] at h
  cases hfound : findBySubscriptionId? subscriptions subscriptionId with
  | none =>
    rw [hfound] at h
    exact h
  | some found =>
    rw [hfound] at h
    exact List.mem_of_mem_filter h

theorem Owned.delete {s : Infra ids} (h : Owned s.subscriptions) (subscriptionId : String) :
    Owned (Program.run exec (delete subscriptionId) s).2.subscriptions := by
  rw [run_delete]
  exact fun doc hdoc => h doc (mem_of_mem_removed hdoc)

/-- A deletion leaves a coherent store coherent. -/
theorem Coherent.delete {s : Infra ids} (h : Coherent s) (subscriptionId : String) :
    Coherent (Program.run exec (delete subscriptionId) s).2 := by
  rw [run_delete]
  refine ⟨?_, ?_⟩
  · exact fun doc hdoc => h.stored doc (mem_of_mem_removed hdoc)
  · intro other text hget
    by_cases hother : other = subscriptionId
    · subst hother
      rw [KeyValue.get_delete_self] at hget
      cases hget
    · rw [h.owned.find_removed hother]
      exact h.cached other text (KeyValue.get_of_get_delete hget)

/-- The outcome and the collection that a program leaves, the cache aside. -/
def visible {A : Type} (result : Except Failure A × Infra ids) : Except Failure A × Collection ids :=
  (result.1, result.2.subscriptions)

section withoutRedis

variable (host : Host) (clock : Clock) (subscriptionId : String) (data : Value) (s : Infra ids)

theorem visible_get_withoutRedis :
    visible (Program.run execWithoutRedis (get host clock subscriptionId) s) =
      (foundOutcome host (clock 0) (findBySubscriptionId? s.subscriptions subscriptionId), s.subscriptions) := by
  have hread : Program.run execWithoutRedis (get host clock subscriptionId) s =
      Program.run execWithoutRedis (if (foundValue
        (findBySubscriptionId? s.subscriptions subscriptionId)).truthy then do
        let subscription ← newEntity host (clock 0) (foundValue (findBySubscriptionId? s.subscriptions subscriptionId))
        let _ ← saveOnCache subscriptionId subscription.getAttributes
        return subscription
      else Program.throw subscriptionNotFound) { s with redis := KeyValue.empty } := rfl
  rw [hread]
  cases findBySubscriptionId? s.subscriptions subscriptionId <;> rfl

/-- The entity that `save` returns for the document that it read again. -/
def rereadEntity (reread : Option Document) : SubscriptionEntity :=
  match reread with
  | some doc => SubscriptionEntity.new host (clock 2) doc.toValue
  | none => SubscriptionEntity.new host (clock 2) (.obj [])

/-- What `save` returns and leaves in the collection. -/
def savedOutcome (subscriptions : Collection ids) : Except Failure SubscriptionEntity × Collection ids :=
  let write := written subscriptions subscriptionId (SubscriptionEntity.new host (clock 0) data).attributes
  (.ok (rereadEntity host clock (write.1.get write.2)), write.1)

theorem visible_reread_withoutRedis (id : String) :
    visible (Program.run execWithoutRedis (rereadAndCache host clock subscriptionId id) s) =
      (.ok (rereadEntity host clock (s.subscriptions.get id)), s.subscriptions) := by
  have hget := Program.run_perform execWithoutRedis (.get id) s
  rw [rereadAndCache, perform, Program.run_bind_of_ok execWithoutRedis hget]
  cases hread : s.subscriptions.get id <;> rfl

theorem visible_delete_withoutRedis :
    visible (Program.run execWithoutRedis (delete subscriptionId) s) =
      visible (Program.run exec (delete subscriptionId) s) := by
  have hfind := Program.run_perform execWithoutRedis (.findOne "subscriptionId" subscriptionId) s
  have hfind' := Program.run_perform exec (.findOne "subscriptionId" subscriptionId) s
  rw [delete, findBySubscriptionId, perform, Program.run_bind_of_ok execWithoutRedis hfind,
    Program.run_bind_of_ok exec hfind']
  cases s.subscriptions.findOne "subscriptionId" subscriptionId <;> rfl

variable {data} (hprint : (data.prop "_id").unprintable = false)

include hprint

theorem visible_save : visible (Program.run exec (save host clock subscriptionId data) s) =
    savedOutcome host clock subscriptionId data s.subscriptions := by
  rw [run_save host clock hprint, savedOutcome]
  dsimp only
  generalize written s.subscriptions _ _ = write
  cases write.1.get write.2 <;> rfl

theorem visible_save_withoutRedis :
    visible (Program.run execWithoutRedis (save host clock subscriptionId data) s) =
      savedOutcome host clock subscriptionId data s.subscriptions := by
  have hfind := Program.run_perform execWithoutRedis (.findOne "subscriptionId" subscriptionId) s
  rw [save_of_printable host clock hprint, findBySubscriptionId, perform,
    Program.run_bind_of_ok execWithoutRedis hfind, savedOutcome, written,
    findBySubscriptionId?]
  cases s.subscriptions.findOne "subscriptionId" subscriptionId with
  | none => exact visible_reread_withoutRedis host clock subscriptionId _ s.subscriptions.nextId
  | some doc => exact visible_reread_withoutRedis host clock subscriptionId _ doc.id

end withoutRedis

/-- What may happen between two calls, or a call with its arguments. -/
inductive Event (host : Host)
  | save (subscriptionId : String) (clock : Clock) (own : OwnData host clock subscriptionId)
  | get (subscriptionId : String) (clock : Clock)
  | delete (subscriptionId : String)
  | expire (key : String)

/-- A save is of an entity with finite attributes. -/
def Event.SavesFinite {host : Host} : Event host → Prop
  | save _ clock own => FiniteAttributes (SubscriptionEntity.new host (clock 0) own.data)
  | _ => True

/-- The outcome of a call as a client sees it, with its subscription serialised. -/
inductive Outcome
  | subscription (outcome : Except Failure (Option json.Value))
  | deleted (outcome : Except Failure Bool)
  | none

variable {host : Host}

def Event.step (exec : Exec Call Call.Reply Failure (Infra ids)) (s : Infra ids) :
    Event host → Outcome × Infra ids
  | save subscriptionId clock own =>
    let result := Program.run exec (subscription_service.save host clock subscriptionId own.data) s
    (.subscription (serialised result.1), result.2)
  | get subscriptionId clock =>
    let result := Program.run exec (subscription_service.get host clock subscriptionId) s
    (.subscription (serialised result.1), result.2)
  | delete subscriptionId =>
    let result := Program.run exec (subscription_service.delete subscriptionId) s
    (.deleted result.1, result.2)
  | expire key => (.none, s.expire key)

/-- The outcomes of calls that run one after another. -/
def outcomes (exec : Exec Call Call.Reply Failure (Infra ids)) : List (Event host) → Infra ids → List Outcome
  | [], _ => []
  | event :: rest, s => (event.step exec s).1 :: outcomes exec rest (event.step exec s).2

/-- One event has the same outcome with and without the cache, leaves the same
collection, and keeps the cache coherent. -/
theorem Coherent.step {s t : Infra ids} (h : Coherent s) (hsame : t.subscriptions = s.subscriptions)
    {event : Event host} (hfinite : event.SavesFinite) :
    (event.step exec s).1 = (event.step execWithoutRedis t).1 ∧
    (event.step execWithoutRedis t).2.subscriptions = (event.step exec s).2.subscriptions ∧
    Coherent (event.step exec s).2 := by
  cases event with
  | save subscriptionId clock own =>
    have hcached := visible_save host clock subscriptionId s own.printable
    have halone := visible_save_withoutRedis host clock subscriptionId t own.printable
    rw [hsame, ← hcached] at halone
    refine ⟨?_, congrArg Prod.snd halone, h.save own hfinite⟩
    exact congrArg (fun outcome => Outcome.subscription (serialised outcome)) (congrArg Prod.fst halone).symm
  | get subscriptionId clock =>
    obtain ⟨houtcome, hsubscriptions, hcoherent⟩ := h.get host clock subscriptionId
    have halone := visible_get_withoutRedis host clock subscriptionId t
    rw [hsame] at halone
    refine ⟨congrArg Outcome.subscription ?_, (congrArg Prod.snd halone).trans hsubscriptions.symm, hcoherent⟩
    rw [houtcome]
    exact congrArg serialised (congrArg Prod.fst halone).symm
  | delete subscriptionId =>
    have halone := visible_delete_withoutRedis subscriptionId t
    have hcollection : visible (Program.run exec (subscription_service.delete subscriptionId) t) =
        visible (Program.run exec (subscription_service.delete subscriptionId) s) := by
      rw [run_delete, run_delete, visible, visible, hsame]
    rw [hcollection] at halone
    refine ⟨congrArg Outcome.deleted (congrArg Prod.fst halone).symm, congrArg Prod.snd halone, h.delete subscriptionId⟩
  | expire key => exact ⟨rfl, hsame, h.expire key⟩

theorem Coherent.outcomes_eq {s t : Infra ids} (h : Coherent s) (hsame : t.subscriptions = s.subscriptions)
    {events : List (Event host)} (hfinite : ∀ event ∈ events, event.SavesFinite) :
    outcomes exec events s = outcomes execWithoutRedis events t := by
  induction events generalizing s t with
  | nil => rfl
  | cons event rest ih =>
    obtain ⟨hevent, hrest⟩ := List.forall_mem_cons.mp hfinite
    obtain ⟨houtcome, hcollection, hcoherent⟩ := h.step hsame hevent
    rw [outcomes, outcomes, houtcome, ih hcoherent hcollection hrest]

/-- The cache is transparent to data with finite attributes: calls that run one after another,
with entries expiring between them, have the outcomes that they have without any cache. -/
theorem outcomes_eq_withoutRedis {events : List (Event host)} (hfinite : ∀ event ∈ events, event.SavesFinite) :
    outcomes exec events (Infra.empty : Infra ids) = outcomes execWithoutRedis events (Infra.empty : Infra ids) :=
  coherent_empty.outcomes_eq rfl hfinite

/-- A subscription that is saved, read from the cache, from the database, and deleted. -/
def plainEvents : List (Event Host.utc) :=
  [.save "a" (fun _ => Time.epoch) (.ofId Host.utc _ "a"), .get "a" fun _ => Time.epoch, .expire (cacheKey "a"),
    .get "a" fun _ => Time.epoch, .delete "a", .get "a" fun _ => Time.epoch]

theorem outcomes_eq_withoutRedis_plainEvents :
    outcomes exec plainEvents (Infra.empty : Infra IdSource.counting) =
      outcomes execWithoutRedis plainEvents (Infra.empty : Infra IdSource.counting) := by
  apply outcomes_eq_withoutRedis
  have hfinite : FiniteAttributes
      (SubscriptionEntity.new Host.utc Time.epoch (.obj [("subscriptionId", .str "a")])) := by
    constructor <;>
      · intro n h
        cases h
  simp [plainEvents, Event.SavesFinite, OwnData.ofId, hfinite]

/-- A client id that JSON.parse reads as infinite. -/
def hugeData : json.Value :=
  .obj [("subscriptionId", .str "a"), ("dataValues", .obj [("clientId", .num (json.Number.ofDecimal false 1 400))])]

theorem ofJson_hugeData : ofJson hugeData =
    .obj [("subscriptionId", .str "a"), ("dataValues", .obj [("clientId", .nonFinite (.infinity false))])] := by
  have hhuge : (json.Number.ofDecimal false 1 400).isFinite = false := by decide +kernel
  have hpositive : (json.Number.ofDecimal false 1 400).negative = false := by decide
  simp [hugeData, ofJson, fieldsOfJson, Value.ofNumber, hhuge, hpositive]

def hugeOwn : OwnData Host.utc (fun _ => Time.epoch) "a" where
  data := ofJson hugeData
  proper := by
    rw [ofJson_hugeData]
    simp [Value.proper_obj_iff, Value.Proper.str, Value.Proper.nonFinite]
  printable := by
    rw [ofJson_hugeData]
    rfl
  owned := by
    rw [ofJson_hugeData]
    rfl

/-- What is stored of it, as it is read from the database. -/
def hugeEntity : SubscriptionEntity where
  databaseId := .str "0"
  subscriptionId := .str "a"
  clientId := .nonFinite (.infinity false)
  createdAt := some Time.epoch
  updatedAt := .null
  newConnectionsListen := false

/-- The collection once the data is saved. -/
def hugeStored : Collection IdSource.counting :=
  Infra.empty.subscriptions.insertOne { hugeEntity with databaseId := .undefined }.attributes

theorem run_save_hugeOwn :
    Program.run exec (save Host.utc (fun _ => Time.epoch) "a" hugeOwn.data) (Infra.empty : Infra IdSource.counting) =
      (.ok hugeEntity,
        { (Infra.empty : Infra IdSource.counting) with
          subscriptions := hugeStored
          redis := KeyValue.empty.set (cacheKey "a") (entryText hugeEntity) }) := by
  have hnew : SubscriptionEntity.new Host.utc Time.epoch hugeOwn.data =
      { hugeEntity with databaseId := .undefined } := by
    change SubscriptionEntity.new Host.utc Time.epoch (ofJson hugeData) = _
    rw [ofJson_hugeData]
    rfl
  rw [run_save Host.utc _ hugeOwn.printable, hnew]
  rfl

theorem toJson_hugeEntity : hugeEntity.getAttributes.toJson =
    some (attributesText (.str "0") (.str "a") (some .null) Time.epoch none false) := rfl

/-- In the cache the client id is null, and what is read from there has none. -/
theorem get_hugeEntity {s : Infra ids} (hcached : s.redis.get (cacheKey "a") = some (entryText hugeEntity)) :
    serialised (Program.run exec (get Host.utc (fun _ => Time.epoch) "a") s).1 =
      .ok (some (attributesText (.str "0") (.str "a") none Time.epoch none false)) := by
  have hproper : (attributesText (.str "0") (.str "a") (some .null) Time.epoch none false).Proper := by
    simp [attributesText, optionalField, json.Value.proper_obj_iff, json.Value.Proper.str, json.Value.Proper.null,
      json.Value.Proper.bool]
  have hread : savedSubscription s "a" =
      ofJson (attributesText (.str "0") (.str "a") (some .null) Time.epoch none false) := by
    rw [savedSubscription, hcached, reading_entryText hproper toJson_hugeEntity]
    rfl
  have hprint : ((savedSubscription s "a").prop "_id").unprintable = false := by
    rw [hread]
    rfl
  have htruthy : (savedSubscription s "a").truthy = true := by
    rw [hread]
    rfl
  rw [run_get, if_pos htruthy, cacheAndReturn, hprint, if_neg Bool.false_ne_true, hread]
  dsimp only
  rw [new_ofJson, Host.utc.fromISO_toISOString]
  rfl

theorem get_withoutRedis_hugeEntity {s : Infra IdSource.counting} (hstored : s.subscriptions = hugeStored) :
    serialised (Program.run execWithoutRedis (get Host.utc (fun _ => Time.epoch) "a") s).1 =
      .ok (some (attributesText (.str "0") (.str "a") (some .null) Time.epoch none false)) := by
  have hfound := congrArg Prod.fst (visible_get_withoutRedis Host.utc (fun _ => Time.epoch) "a" s)
  rw [hstored] at hfound
  exact congrArg serialised hfound

/-- An infinite client id is stored as it is, and cached as null. -/
theorem outcomes_ne_withoutRedis :
    ¬ ∀ events : List (Event Host.utc), outcomes exec events (Infra.empty : Infra IdSource.counting) =
      outcomes execWithoutRedis events (Infra.empty : Infra IdSource.counting) := by
  intro h
  have hsame := h [.save "a" (fun _ => Time.epoch) hugeOwn, .get "a" fun _ => Time.epoch]
  have hget := (List.cons.inj (List.cons.inj hsame).2).1
  have hstored := visible_save_withoutRedis Host.utc (fun _ => Time.epoch) "a" (Infra.empty : Infra IdSource.counting)
    hugeOwn.printable
  rw [← visible_save Host.utc (fun _ => Time.epoch) "a" _ hugeOwn.printable, run_save_hugeOwn] at hstored
  have hcached : (Program.run exec (save Host.utc (fun _ => Time.epoch) "a" hugeOwn.data)
      (Infra.empty : Infra IdSource.counting)).2.redis.get (cacheKey "a") = some (entryText hugeEntity) := by
    rw [run_save_hugeOwn]
    exact KeyValue.get_set_self ..
  have hwith := congrArg Outcome.subscription (get_hugeEntity hcached)
  have hwithout := congrArg Outcome.subscription (get_withoutRedis_hugeEntity (congrArg Prod.snd hstored))
  have hequal := hwith.symm.trans (hget.trans hwithout)
  simp [attributesText, optionalField] at hequal

end node_backend.subscription_service
