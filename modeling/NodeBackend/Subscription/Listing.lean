import NodeBackend.Hook.Webhook
import NodeBackend.Program.Simulation
import NodeBackend.Subscription.Partial

namespace node_backend.subscription_service

open js store program
open node_backend.infra node_backend.subscription_entity node_backend.exceptions
open node_backend.webhook_service (HookEntry Redis Plain)

/-- What is awaited by a listing: commands to Redis, or a request for all documents. -/
inductive ListCall
  | cache (call : webhook_service.Call)
  | findMany

abbrev ListCall.Reply : ListCall → Type
  | cache call => call.Reply
  | findMany => List Document

abbrev ListPromise (A : Type) : Type :=
  Program ListCall ListCall.Reply Failure A

/-- A pair that RedisClient.getByKeyPattern gives for a key. -/
def pairValue (entry : HookEntry) : Value :=
  match entry.key with
  | some key => .obj [("key", .str key), ("value", entry.value)]
  | none => .obj []

/-- SubscriptionService.listFromCache. -/
def listFromCache : ListPromise (List Value) :=
  List.map pairValue <$> (webhook_service.getByKeyPattern (SUBSCRIPTIONS ++ ":*")).embed .cache

/-- An entity of each value, in order. -/
def newEntities (host : Host) (clock : Clock) : List Value → Except TypeError (List SubscriptionEntity)
  | [] => .ok []
  | value :: rest => do
    let subscription ← construct host (clock 0) value
    let subscriptions ← newEntities host (fun n => clock (n + 1)) rest
    return subscription :: subscriptions

/-- SubscriptionService.list. -/
def list (host : Host) (clock : Clock) (useCache : Bool) : ListPromise (List SubscriptionEntity) := do
  let cachedSubscriptions ← listFromCache
  let foundedSubscriptions ←
    if !useCache || cachedSubscriptions.isEmpty then List.map Document.toValue <$> Program.perform ListCall.findMany
    else pure cachedSubscriptions
  Program.ofExcept ((newEntities host clock foundedSubscriptions).mapError .typeError)

variable {ids : IdSource}

/-- Reply and effect of a call that does not fail. -/
def listExec (redis : Redis) : Exec ListCall ListCall.Reply Failure (Infra ids)
  | .cache call, s =>
    let served := webhook_service.exec redis call s.redis
    (served.1, { s with redis := served.2 })
  | .findMany, s => (.ok s.subscriptions.documents, s)

def expireAll (keys : List String) (s : Infra ids) : Infra ids :=
  keys.foldl (fun s key => s.expire key) s

/-- What a listing gives where before its nth call some entries expire. -/
def listed (host : Host) (clock : Clock) (redis : Redis) (expired : Nat → List String) (useCache : Bool)
    (s : Infra ids) : Except Failure (List SubscriptionEntity) :=
  (Program.runFrom (fun n call s => listExec redis call (expireAll (expired n) s)) 0 (list host clock useCache) s).1

/-- Both listings return, and with the same attributes, serialised. -/
def Agree (cached database : Except Failure (List SubscriptionEntity)) : Prop :=
  ∃ first second, cached = .ok first ∧ database = .ok second ∧
    ∀ attributes : Option json.Value, (∃ subscription ∈ first, subscription.getAttributes.toJson = attributes) ↔
      ∃ subscription ∈ second, subscription.getAttributes.toJson = attributes

theorem expireAll_subscriptions (keys : List String) (s : Infra ids) :
    (expireAll keys s).subscriptions = s.subscriptions := by
  induction keys generalizing s with
  | nil => rfl
  | cons key keys ih => exact ih (s.expire key)

/-- A call of a listing, with any expiries before it. -/
def ListStep (redis : Redis) : Step ListCall ListCall.Reply Failure (Infra ids) := fun call s reply s' =>
  ∃ expired, listExec redis call (expireAll expired s) = (reply, s')

theorem listStep_subscriptions {redis : Redis} {call : ListCall} {s s' : Infra ids} {reply : Except Failure call.Reply}
    (h : ListStep redis call s reply s') :
    s'.subscriptions = s.subscriptions ∧ ∃ value, reply = .ok value := by
  obtain ⟨expired, hexec⟩ := h
  obtain ⟨hreply, hstate⟩ := Prod.mk.inj hexec
  subst hreply hstate
  cases call with
  | cache call => exact ⟨expireAll_subscriptions expired s, by cases call <;> exact ⟨_, rfl⟩⟩
  | findMany => exact ⟨expireAll_subscriptions expired s, _, rfl⟩

/-- However entries expire meanwhile, each key gives one pair. -/
theorem readEntries_ensures (redis : Redis) (keys : List String) (s : Infra ids) :
    (webhook_service.readEntries keys).Ensures (fun call => ListStep redis (.cache call)) s
      (fun entries s' => entries.map HookEntry.key = keys.map some ∧ s'.subscriptions = s.subscriptions)
      fun _ _ => False := by
  induction keys generalizing s with
  | nil => exact ⟨rfl, rfl⟩
  | cons key rest ih =>
    intro reply s' hstep
    obtain ⟨hsame, value, rfl⟩ := listStep_subscriptions hstep
    change (webhook_service.readEntries rest >>= fun entries =>
      pure (webhook_service.hookEntry key (.ok value) :: entries)).Ensures _ _ _ _
    apply Program.Ensures.bind (ih s')
    intro entries s'' ⟨hkeys, hsame'⟩
    exact ⟨by simp [webhook_service.hookEntry, hkeys], hsame'.trans hsame⟩

/-- Entities that can be built of all values, by what is asked of them. -/
theorem newEntities_ok {A : Type} (host : Host) (clock : Clock) {values : List Value} (view : SubscriptionEntity → A)
    (seen : Value → A)
    (h : ∀ value ∈ values, ∀ now, ∃ subscription, construct host now value = .ok subscription ∧
      view subscription = seen value) :
    ∃ subscriptions, newEntities host clock values = .ok subscriptions ∧
      subscriptions.map view = values.map seen := by
  induction values generalizing clock with
  | nil => exact ⟨[], rfl, rfl⟩
  | cons value rest ih =>
    obtain ⟨subscription, hsubscription, hview⟩ := h value List.mem_cons_self (clock 0)
    obtain ⟨subscriptions, hsubscriptions, hviews⟩ := ih (fun n => clock (n + 1)) fun other hother =>
      h other (List.mem_cons_of_mem _ hother)
    refine ⟨subscription :: subscriptions, ?_, by rw [List.map_cons, List.map_cons, hview, hviews]⟩
    rw [newEntities, hsubscription]
    change (do let subscriptions ← newEntities host (fun n => clock (n + 1)) rest; _) = _
    rw [hsubscriptions]
    rfl

/-- What the cache holds is below the value of a pair, so an entity that is built of
the pair has no identifier. -/
theorem construct_pairValue (host : Host) (now : Time) (entry : HookEntry) :
    ∃ subscription, construct host now (pairValue entry) = .ok subscription ∧
      subscription.databaseId = .undefined := by
  unfold pairValue
  cases entry.key <;> exact ⟨_, rfl, rfl⟩

theorem construct_toValue (host : Host) (now : Time) {doc : Document} {entity : SubscriptionEntity}
    (hstored : doc.fields = fieldsToBson entity.attributes) :
    ∃ subscription, construct host now doc.toValue = .ok subscription ∧
      subscription.getAttributes.toJson =
        (SubscriptionEntity.new Host.utc Time.epoch doc.toValue).getAttributes.toJson := by
  refine ⟨_, construct_of_printable rfl host now, ?_⟩
  rw [new_stored host now hstored, new_stored Host.utc Time.epoch hstored]

/-- Serialised attributes begin with an identifier where there is one. -/
theorem toJson_of_written {subscription : SubscriptionEntity} {written : json.Value}
    (hwritten : subscription.databaseId.toJson = some written) :
    ∃ rest, subscription.getAttributes.toJson = some (.obj (("id", written) :: rest)) := by
  unfold SubscriptionEntity.getAttributes SubscriptionEntity.attributes
  rw [Value.toJson, fieldsToJson, hwritten]
  exact ⟨_, rfl⟩

theorem toJson_of_undefined {subscription : SubscriptionEntity} (h : subscription.databaseId = .undefined) :
    subscription.getAttributes.toJson =
      some (.obj (fieldsToJson subscription.attributes.tail)) := by
  unfold SubscriptionEntity.getAttributes SubscriptionEntity.attributes
  rw [h]
  rfl

/-- An entity without identifier is written unlike every one that has one. -/
theorem toJson_ne {blank subscription : SubscriptionEntity} (hblank : blank.databaseId = .undefined)
    {written : json.Value} (hwritten : subscription.databaseId.toJson = some written) :
    blank.getAttributes.toJson ≠ subscription.getAttributes.toJson := by
  obtain ⟨rest, hattributes⟩ := toJson_of_written hwritten
  rw [hattributes, toJson_of_undefined hblank]
  intro heq
  have hfields : fieldsToJson blank.attributes.tail = ("id", written) :: rest := by
    injection Option.some.inj heq
  have hkey : "id" ∈ (fieldsToJson blank.attributes.tail).map Prod.fst := by simp [hfields]
  have hmem := (fieldsToJson_keys_sublist blank.attributes.tail).subset hkey
  simp [SubscriptionEntity.attributes] at hmem

/-- What a listing builds its entities of, once the keys are known. -/
def Listed (useCache : Bool) (keys : List String) (subscriptions : Collection ids)
    (listed : List SubscriptionEntity) : Prop :=
  if useCache = true ∧ keys ≠ [] then listed ≠ [] ∧ ∀ subscription ∈ listed, subscription.databaseId = .undefined
  else listed.map (fun subscription => subscription.getAttributes.toJson) = subscriptions.documents.map fun doc =>
    (SubscriptionEntity.new Host.utc Time.epoch doc.toValue).getAttributes.toJson

theorem listed_pairs (host : Host) (clock : Clock) {entries : List HookEntry} (hentries : entries ≠ []) :
    ∃ listed, newEntities host clock (entries.map pairValue) = .ok listed ∧ listed ≠ [] ∧
      ∀ subscription ∈ listed, subscription.databaseId = .undefined := by
  have hpairs : ∀ value ∈ entries.map pairValue, ∀ now, ∃ subscription,
      construct host now value = .ok subscription ∧ subscription.databaseId = .undefined := by
    intro value hvalue now
    obtain ⟨entry, _, rfl⟩ := List.mem_map.mp hvalue
    exact construct_pairValue host now entry
  obtain ⟨listed, hlisted, hviews⟩ :=
    newEntities_ok host clock SubscriptionEntity.databaseId (fun _ => .undefined) hpairs
  refine ⟨listed, hlisted, ?_, ?_⟩
  · rintro rfl
    simp at hviews
    exact hentries hviews
  · intro subscription hsubscription
    have hmem : subscription.databaseId ∈ listed.map SubscriptionEntity.databaseId := List.mem_map_of_mem hsubscription
    rw [hviews] at hmem
    obtain ⟨_, _, hundefined⟩ := List.mem_map.mp hmem
    exact hundefined.symm

theorem listed_documents (host : Host) (clock : Clock) {subscriptions : Collection ids}
    (hstored : AttributesStored subscriptions) :
    ∃ listed, newEntities host clock (subscriptions.documents.map Document.toValue) = .ok listed ∧
      listed.map (fun subscription => subscription.getAttributes.toJson) = subscriptions.documents.map fun doc =>
        (SubscriptionEntity.new Host.utc Time.epoch doc.toValue).getAttributes.toJson := by
  have hdocuments : ∀ value ∈ subscriptions.documents.map Document.toValue, ∀ now, ∃ subscription,
      construct host now value = .ok subscription ∧ subscription.getAttributes.toJson =
        (SubscriptionEntity.new Host.utc Time.epoch value).getAttributes.toJson := by
    intro value hvalue now
    obtain ⟨doc, hdoc, rfl⟩ := List.mem_map.mp hvalue
    obtain ⟨entity, hentity⟩ := hstored doc hdoc
    exact construct_toValue host now hentity
  obtain ⟨listed, hlisted, hviews⟩ := newEntities_ok host clock
    (fun subscription => subscription.getAttributes.toJson)
    (fun value => (SubscriptionEntity.new Host.utc Time.epoch value).getAttributes.toJson) hdocuments
  refine ⟨listed, hlisted, ?_⟩
  rw [hviews, List.map_map]
  rfl

theorem ensures_newEntities {host : Host} {clock : Clock} {values : List Value} {listed : List SubscriptionEntity}
    {redis : Redis} {s : Infra ids} {P : List SubscriptionEntity → Prop}
    (hlisted : newEntities host clock values = .ok listed) (h : P listed) :
    (Program.ofExcept ((newEntities host clock values).mapError Failure.typeError) :
        ListPromise (List SubscriptionEntity)).Ensures
      (ListStep redis) s (fun listed _ => P listed) fun _ _ => False := by
  rw [hlisted]
  exact h

/-- What a listing returns once it has the keys, however entries expire meanwhile. -/
theorem list_ensures (host : Host) (clock : Clock) (redis : Redis) (useCache : Bool) (keys : List String)
    {s : Infra ids} (hstored : AttributesStored s.subscriptions) :
    ((List.map pairValue <$> (webhook_service.readEntries keys).embed ListCall.cache >>= fun cachedSubscriptions => do
        let foundedSubscriptions ←
          if !useCache || cachedSubscriptions.isEmpty then
            List.map Document.toValue <$> Program.perform ListCall.findMany
          else pure cachedSubscriptions
        Program.ofExcept ((newEntities host clock foundedSubscriptions).mapError .typeError)) :
      ListPromise (List SubscriptionEntity)).Ensures (ListStep redis) s
      (fun listed _ => Listed useCache keys s.subscriptions listed) fun _ _ => False := by
  refine Program.Ensures.bind (R := fun values s' => (∃ entries : List HookEntry, values = entries.map pairValue ∧
    entries.map HookEntry.key = keys.map some) ∧ s'.subscriptions = s.subscriptions) ?_ ?_
  · rw [Program.map_eq]
    apply Program.Ensures.bind (Program.Ensures.embed (readEntries_ensures redis keys s))
    intro entries s' ⟨hkeys, hsame⟩
    exact ⟨⟨entries, rfl, hkeys⟩, hsame⟩
  · intro values s' ⟨⟨entries, hvalues, hkeys⟩, hsame⟩
    subst hvalues
    have hempty : entries = [] ↔ keys = [] := by
      rw [← List.length_eq_zero_iff, ← List.length_eq_zero_iff, ← List.length_map HookEntry.key, hkeys, List.length_map]
    by_cases hcache : useCache = true ∧ keys ≠ []
    · have hentries : entries ≠ [] := fun h => hcache.2 (hempty.mp h)
      obtain ⟨listed, hlisted, hblank⟩ := listed_pairs host clock hentries
      rw [if_neg (by simp [hcache.1, hentries])]
      apply ensures_newEntities hlisted
      rw [Listed, if_pos hcache]
      exact hblank
    · have hdatabase : (!useCache || (entries.map pairValue).isEmpty) = true := by
        cases useCache with
        | false => rfl
        | true => simpa [hempty] using hcache
      rw [if_pos hdatabase]
      intro reply s'' hstep
      obtain ⟨expired, hexec⟩ := hstep
      obtain ⟨hreply, _⟩ := Prod.mk.inj hexec
      subst hreply
      obtain ⟨listed, hlisted, hviews⟩ := listed_documents host clock hstored
      rw [← hsame, ← expireAll_subscriptions expired s'] at hlisted
      apply ensures_newEntities hlisted
      rw [Listed, if_neg hcache]
      exact hviews

/-- The keys that a listing gets. -/
def keysOf (redis : Redis) (s : Infra ids) : List String :=
  redis.keys (SUBSCRIPTIONS ++ ":*") (s.redis.entries.map Prod.fst)

theorem listed_ok (host : Host) (clock : Clock) (redis : Redis) (expired : Nat → List String) (useCache : Bool)
    {s : Infra ids} (hstored : AttributesStored s.subscriptions) :
    ∃ subscriptions, listed host clock redis expired useCache s = .ok subscriptions ∧
      Listed useCache (keysOf redis (expireAll (expired 0) s)) s.subscriptions subscriptions := by
  have hstored' : AttributesStored (expireAll (expired 0) s).subscriptions := by
    rw [expireAll_subscriptions]
    exact hstored
  have hserved : ∀ n call (s : Infra ids), ListStep redis call s (listExec redis call (expireAll (expired n) s)).1
      (listExec redis call (expireAll (expired n) s)).2 := fun n call s => ⟨expired n, rfl⟩
  obtain ⟨subscriptions, hok, hlisted⟩ | ⟨_, _, hfalse⟩ := (list_ensures host clock redis useCache
    (keysOf redis (expireAll (expired 0) s)) hstored').runFrom hserved 1
  · rw [expireAll_subscriptions] at hlisted
    exact ⟨subscriptions, hok, hlisted⟩
  · exact hfalse.elim

/-- There are no keys exactly where no subscription is in the cache. -/
theorem keysOf_eq_nil_iff (redis : Redis) (s : Infra ids) :
    keysOf redis s = [] ↔ ∀ subscriptionId, s.redis.get (cacheKey subscriptionId) = none := by
  have hpattern : SUBSCRIPTIONS ++ ":*" = "subscriptions:" ++ "*" := rfl
  have hplain : Plain "subscriptions:" := by
    unfold Plain
    decide
  unfold keysOf
  rw [hpattern, List.eq_nil_iff_forall_not_mem]
  constructor
  · intro hnone subscriptionId
    by_contra hget
    have hmem := KeyValue.mem_keys_iff.mpr hget
    apply hnone (cacheKey subscriptionId)
    rw [redis.plain _ _ hplain _ hmem]
    exact ⟨subscriptionId.toList, by simp [cacheKey, generateKey, SUBSCRIPTIONS]⟩
  · intro hnone key hkey
    have hmem := redis.mem _ _ key hkey
    rw [redis.plain _ _ hplain key hmem] at hkey
    obtain ⟨rest, hrest⟩ := hkey
    have htext : key = cacheKey (String.ofList rest) := by
      apply String.toList_injective
      rw [← hrest]
      simp [cacheKey, generateKey, SUBSCRIPTIONS]
    exact KeyValue.mem_keys_iff.mp hmem (htext ▸ hnone (String.ofList rest))

/-- JSON has something for whatever a document keeps. -/
theorem toBson_written (v : Value) : ∃ written, (toBson v).toJson = some written := by
  cases v with
  | date time => cases time <;> exact ⟨_, rfl⟩
  | _ => exact ⟨_, rfl⟩

theorem written_of_stored {doc : Document} {entity : SubscriptionEntity}
    (hstored : doc.fields = fieldsToBson entity.attributes) :
    ∃ written, (SubscriptionEntity.new Host.utc Time.epoch doc.toValue).databaseId.toJson = some written := by
  rw [new_stored Host.utc Time.epoch hstored, orDefault]
  split
  · exact ⟨_, rfl⟩
  · exact toBson_written _

/-- A listing by the cache agrees with one by the database exactly where, when it asks
for the keys, no subscription is in the cache. -/
theorem list_agree_iff (host : Host) (accesses : List Access) (redis : Redis) (clock clock' : Clock)
    (expired expired' : Nat → List String) :
    Agree (listed host clock redis expired true (afterAccesses host accesses : Infra ids))
        (listed host clock' redis expired' false (afterAccesses host accesses : Infra ids)) ↔
      ∀ subscriptionId,
        (expireAll (expired 0) (afterAccesses host accesses : Infra ids)).redis.get
          (cacheKey subscriptionId) = none := by
  have hstored : AttributesStored (afterAccesses host accesses : Infra ids).subscriptions :=
    afterAccesses_stored host accesses
  generalize (afterAccesses host accesses : Infra ids) = s at hstored
  obtain ⟨cached, hcached, hfirst⟩ := listed_ok host clock redis expired true hstored
  obtain ⟨database, hdatabase, hsecond⟩ := listed_ok host clock' redis expired' false hstored
  rw [← keysOf_eq_nil_iff redis]
  rw [Listed, if_neg (by simp)] at hsecond
  constructor
  · intro hagree
    obtain ⟨first, second, hfirst', hsecond', hsame⟩ := hagree
    cases hcached.symm.trans hfirst'
    cases hdatabase.symm.trans hsecond'
    by_contra hkeys
    rw [Listed, if_pos ⟨rfl, hkeys⟩] at hfirst
    obtain ⟨hne, hblank⟩ := hfirst
    obtain ⟨subscription, hsubscription⟩ := List.exists_mem_of_ne_nil _ hne
    obtain ⟨other, hother, heq⟩ := (hsame _).mp ⟨subscription, hsubscription, rfl⟩
    have hmem : other.getAttributes.toJson ∈ database.map fun subscription => subscription.getAttributes.toJson :=
      List.mem_map_of_mem hother
    rw [hsecond] at hmem
    obtain ⟨doc, hdoc, hread⟩ := List.mem_map.mp hmem
    obtain ⟨entity, hentity⟩ := hstored doc hdoc
    obtain ⟨written, hwritten⟩ := written_of_stored hentity
    exact toJson_ne (hblank _ hsubscription) hwritten (hread.trans heq).symm
  · intro hkeys
    rw [Listed, if_neg (by simp [hkeys])] at hfirst
    refine ⟨cached, database, hcached, hdatabase, fun attributes => ?_⟩
    rw [← List.mem_map (f := fun subscription : SubscriptionEntity => subscription.getAttributes.toJson), hfirst,
      ← hsecond, List.mem_map]

/-- A stored subscription, read once, is in the cache. Its listing gives an entity of
the pair of its key and its value. -/
theorem list_not_agree : ¬ ∀ (host : Host) (accesses : List Access) (redis : Redis) (clock clock' : Clock)
    (expired expired' : Nat → List String),
    Agree (listed host clock redis expired true (afterAccesses host accesses : Infra IdSource.counting))
      (listed host clock' redis expired' false (afterAccesses host accesses : Infra IdSource.counting)) := by
  intro h
  obtain ⟨first, second, hfirst, hsecond, hsame⟩ := h Host.utc [.save (fun _ => Time.epoch) "a" bareData] Redis.prefixes
    (fun _ => Time.epoch) (fun _ => Time.epoch) (fun _ => []) (fun _ => [])
  cases hfirst
  cases hsecond
  obtain ⟨subscription, hsubscription, heq⟩ := (hsame _).mp ⟨_, List.mem_cons_self, rfl⟩
  cases List.mem_singleton.mp hsubscription
  exact toJson_ne rfl (show _ = some (json.Value.str "0") from rfl) heq.symm

end node_backend.subscription_service
