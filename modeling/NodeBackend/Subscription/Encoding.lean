import NodeBackend.Subscription.Runs

namespace node_backend.subscription_service

open js store
open node_backend.infra node_backend.subscription_entity

/-- The entity that a stored document reads as. Nullish fields fall back to
their defaults, and the identifier to that of the document. -/
theorem new_stored (host : Host) (now : Time) {doc : Document} {entity : SubscriptionEntity}
    (hfields : doc.fields = fieldsToBson entity.attributes) :
    SubscriptionEntity.new host now doc.toValue =
      { databaseId := orDefault (toBson entity.databaseId) (.str doc.id)
        subscriptionId := orDefault (toBson entity.subscriptionId) (.str "")
        clientId := orDefault (toBson (entity.clientId.coalesce .undefined)) .null
        createdAt := some (entity.createdAt.getD Time.epoch)
        updatedAt := orDefault (toBson (entity.updatedAt.coalesce .undefined)) .null
        newConnectionsListen := entity.newConnectionsListen } := by
  obtain ⟨id, fields⟩ := doc
  dsimp only at hfields
  subst hfields
  obtain ⟨databaseId, subscriptionId, clientId, createdAt, updatedAt, listen⟩ := entity
  cases createdAt <;>
    simp [SubscriptionEntity.new, SubscriptionEntity.attributes, Document.toValue, fieldsToBson, toBson, flattened,
      Value.prop, List.lookup_cons, object, Value.spread, Value.coalesce, Value.isNullOrUndefined, Value.truthy,
      getDate, subscription_entity.stringOf, json.setFields, json.setField]

/-- A value that JSON writes as something other than null. -/
def Solid (v : Value) : Prop :=
  ∃ written, v.toJson = some written ∧ written ≠ .null

/-- An optional attribute: nullish, and left out of the text, or solid. -/
def Attribute (v : Value) : Prop :=
  v.isNullOrUndefined = true ∨ Solid v

/-- An entity as one read from a stored document is: its identifiers are there,
its dates denote times, and no object in it repeats a key. -/
structure Settled (entity : SubscriptionEntity) : Prop where
  databaseId : Solid entity.databaseId
  subscriptionId : Solid entity.subscriptionId
  clientId : Attribute entity.clientId
  createdAt : entity.createdAt.isSome = true
  updatedAt : Attribute entity.updatedAt
  proper : entity.getAttributes.Proper

/-- A field of an object text, left out where there is none. -/
def optionalField (key : String) (written : Option json.Value) : List (String × json.Value) :=
  match written with
  | some written => [(key, written)]
  | none => []

/-- The serialised attributes of an entity, by their parts. -/
def attributesText (databaseId subscriptionId : json.Value) (clientId : Option json.Value) (createdAt : Time)
    (updatedAt : Option json.Value) (newConnections : Bool) : json.Value :=
  .obj [("id", databaseId), ("subscriptionId", subscriptionId),
    ("dataValues", .obj (optionalField "clientId" clientId ++
      (("createdAt", .str createdAt.toISOString) :: optionalField "updatedAt" updatedAt))),
    ("listen", .obj [("newConnections", .bool newConnections)])]

/-- The parts of a serialised entity: none of them is null. -/
def Written (written : Option json.Value) : Prop :=
  written ≠ some .null

theorem Attribute.written {v : Value} (h : Attribute v) :
    Written (v.coalesce .undefined).toJson ∧ ((v.coalesce .undefined).toJson = none → v.isNullOrUndefined = true) := by
  obtain hnull | ⟨written, hwritten, hne⟩ := h
  · rw [Value.coalesce, if_pos hnull]
    exact ⟨by simp [Written, Value.toJson], fun _ => hnull⟩
  · have hpresent : v.isNullOrUndefined = false := by
      cases v <;> first | rfl | (cases hwritten <;> exact absurd rfl hne)
    rw [Value.coalesce, hpresent]
    refine ⟨?_, ?_⟩
    · intro heq
      rw [if_neg (by simp), hwritten] at heq
      exact hne (Option.some.inj heq)
    · intro heq
      rw [if_neg (by simp), hwritten] at heq
      cases heq

theorem Settled.toJson {entity : SubscriptionEntity} (h : Settled entity) :
    ∃ databaseId subscriptionId createdAt,
      databaseId ≠ .null ∧ subscriptionId ≠ .null ∧
      Written (entity.clientId.coalesce .undefined).toJson ∧ Written (entity.updatedAt.coalesce .undefined).toJson ∧
      entity.getAttributes.toJson = some (attributesText databaseId subscriptionId
        (entity.clientId.coalesce .undefined).toJson createdAt
        (entity.updatedAt.coalesce .undefined).toJson entity.newConnectionsListen) := by
  obtain ⟨databaseId, hdatabaseId, hdatabaseNe⟩ := h.databaseId
  obtain ⟨subscriptionId, hsubscriptionId, hsubscriptionNe⟩ := h.subscriptionId
  obtain ⟨createdAt, hcreatedAt⟩ := Option.isSome_iff_exists.mp h.createdAt
  refine ⟨databaseId, subscriptionId, createdAt, hdatabaseNe, hsubscriptionNe, h.clientId.written.1,
    h.updatedAt.written.1, ?_⟩
  simp only [SubscriptionEntity.getAttributes, SubscriptionEntity.attributes, Value.toJson, fieldsToJson,
    hdatabaseId, hsubscriptionId, hcreatedAt, attributesText]
  cases (entity.clientId.coalesce .undefined).toJson <;> cases (entity.updatedAt.coalesce .undefined).toJson <;>
    simp [optionalField]

theorem new_ofJson (host : Host) (now : Time) (databaseId subscriptionId : json.Value)
    (clientId updatedAt : Option json.Value) (createdAt : Time) (newConnections : Bool) :
    SubscriptionEntity.new host now
        (ofJson (attributesText databaseId subscriptionId clientId createdAt updatedAt newConnections)) =
      { databaseId := orDefault (ofJson databaseId) .undefined
        subscriptionId := orDefault (ofJson subscriptionId) (.str "")
        clientId := orDefault ((clientId.map ofJson).getD .undefined) .null
        createdAt := host.fromISO createdAt.toISOString
        updatedAt := orDefault ((updatedAt.map ofJson).getD .undefined) .null
        newConnectionsListen := newConnections } := by
  cases clientId <;> cases updatedAt <;>
    simp [SubscriptionEntity.new, flattened, attributesText, optionalField, ofJson, fieldsOfJson, Value.prop,
      List.lookup_cons, object, Value.spread, Value.coalesce, Value.isNullOrUndefined, Value.truthy, getDate,
      json.setFields, json.setField]

theorem isNullOrUndefined_ofNumber (n : json.Number) : (Value.ofNumber n).isNullOrUndefined = false := by
  rw [Value.ofNumber]
  split <;> rfl

theorem isNullOrUndefined_ofJson {written : json.Value} (hne : written ≠ .null) :
    (ofJson written).isNullOrUndefined = false := by
  cases written with
  | null => exact absurd rfl hne
  | num n => exact isNullOrUndefined_ofNumber n
  | _ => rfl

theorem orDefault_ofJson {written : json.Value} (hne : written ≠ .null) (default : Value) :
    orDefault (ofJson written) default = ofJson written := by
  rw [orDefault, isNullOrUndefined_ofJson hne, if_neg (by simp)]

/-- An optional attribute that was read from a text is written as it was. -/
theorem Written.toJson {written : Option json.Value} (h : Written written)
    (hproper : ∀ value ∈ written, value.Proper) :
    ((orDefault ((written.map ofJson).getD .undefined) .null).coalesce .undefined).toJson = written := by
  cases written with
  | none => rfl
  | some written =>
    have hne : written ≠ .null := fun heq => h (congrArg some heq)
    rw [Option.map_some, Option.getD_some, orDefault_ofJson hne, Value.coalesce, isNullOrUndefined_ofJson hne,
      if_neg (by simp), toJson_ofJson (hproper written rfl)]

theorem attributesText_proper {databaseId subscriptionId : json.Value} {clientId updatedAt : Option json.Value}
    {createdAt : Time} {newConnections : Bool}
    (hproper : (attributesText databaseId subscriptionId clientId createdAt updatedAt newConnections).Proper) :
    databaseId.Proper ∧ subscriptionId.Proper ∧ (∀ value ∈ clientId, value.Proper) ∧
      ∀ value ∈ updatedAt, value.Proper := by
  cases clientId <;> cases updatedAt <;>
    simp_all [attributesText, optionalField, json.Value.proper_obj_iff]

/-- Reading a serialised entity and serialising it again changes nothing. -/
theorem toJson_new_ofJson (host : Host) (now : Time) {databaseId subscriptionId : json.Value}
    {clientId updatedAt : Option json.Value} (createdAt : Time) (newConnections : Bool)
    (hdatabaseId : databaseId ≠ .null) (hsubscriptionId : subscriptionId ≠ .null)
    (hclientId : Written clientId) (hupdatedAt : Written updatedAt)
    (hproper : (attributesText databaseId subscriptionId clientId createdAt updatedAt newConnections).Proper) :
    (SubscriptionEntity.new host now
        (ofJson (attributesText databaseId subscriptionId clientId createdAt updatedAt
          newConnections))).getAttributes.toJson =
      some (attributesText databaseId subscriptionId clientId createdAt updatedAt newConnections) := by
  obtain ⟨hdatabase, hsubscription, hclient, hupdated⟩ := attributesText_proper hproper
  rw [new_ofJson, orDefault_ofJson hdatabaseId, orDefault_ofJson hsubscriptionId, host.fromISO_toISOString]
  simp only [SubscriptionEntity.getAttributes, SubscriptionEntity.attributes, Value.toJson, fieldsToJson,
    toJson_ofJson hdatabase, toJson_ofJson hsubscription, hclientId.toJson hclient, hupdatedAt.toJson hupdated,
    attributesText]
  cases clientId <;> cases updatedAt <;> simp [optionalField]

/-- The cache entry of an entity is the text of its serialised attributes. -/
theorem entryText_eq {entity : SubscriptionEntity} {written : json.Value}
    (h : entity.getAttributes.toJson = some written) : entryText entity = written.stringify := by
  rw [entryText, SubscriptionEntity.getAttributes, data_parser_helper.text, ← SubscriptionEntity.getAttributes,
    data_parser_helper.parseObjectToString, Value.stringify, h, Option.map_some, Option.getD_some]

theorem reading_entryText {entity : SubscriptionEntity} {written : json.Value} (hproper : written.Proper)
    (h : entity.getAttributes.toJson = some written) :
    redis_client.reading (some (entryText entity)) = ofJson written := by
  rw [redis_client.reading_some, redis_client.parseValue, entryText_eq h,
    data_parser_helper.toObject_stringify hproper]

/-- What the cache holds of a settled entity reads as one with the same
serialised attributes. -/
theorem Settled.new_reading {entity : SubscriptionEntity} (h : Settled entity) (host : Host) (now : Time) :
    (redis_client.reading (some (entryText entity))).truthy = true ∧
    ((redis_client.reading (some (entryText entity))).prop "_id").unprintable = false ∧
    (SubscriptionEntity.new host now (redis_client.reading (some (entryText entity)))).getAttributes.toJson =
      entity.getAttributes.toJson := by
  obtain ⟨databaseId, subscriptionId, createdAt, hdatabaseId, hsubscriptionId, hclientId, hupdatedAt, htext⟩ := h.toJson
  have hproper := h.proper.toJson htext
  rw [reading_entryText hproper htext, htext]
  exact ⟨rfl, rfl, toJson_new_ofJson host now createdAt _ hdatabaseId hsubscriptionId hclientId hupdatedAt hproper⟩

/-- Entities with the same serialised attributes have the same cache entry. -/
theorem entryText_congr {entity other : SubscriptionEntity}
    (h : entity.getAttributes.toJson = other.getAttributes.toJson) : entryText entity = entryText other := by
  rw [SubscriptionEntity.getAttributes, SubscriptionEntity.getAttributes] at h
  rw [entryText, entryText, SubscriptionEntity.getAttributes, SubscriptionEntity.getAttributes,
    data_parser_helper.text, data_parser_helper.text, data_parser_helper.parseObjectToString,
    data_parser_helper.parseObjectToString, Value.stringify, Value.stringify, h]

/-- A value that is no number beyond the finite ones. -/
def Finite (v : Value) : Prop :=
  ∀ n, v ≠ .nonFinite n

theorem Finite.coalesce {v : Value} (h : Finite v) : Finite (v.coalesce .undefined) := by
  intro n
  rw [Value.coalesce]
  split
  · simp
  · exact h n

theorem toBson_solid {v : Value} (hfinite : Finite v) (h : (toBson v).isNullOrUndefined = false) :
    Solid (toBson v) := by
  cases v with
  | undefined => cases h
  | null => cases h
  | bool b => exact ⟨_, rfl, by simp⟩
  | num n => exact ⟨_, rfl, by simp⟩
  | nonFinite n => exact absurd rfl (hfinite n)
  | str s => exact ⟨_, rfl, by simp⟩
  | date time =>
    cases time with
    | none => exact ⟨_, rfl, by simp⟩
    | some t => exact ⟨_, rfl, by simp⟩
  | objectId hex => exact ⟨_, rfl, by simp⟩
  | arr items => exact ⟨_, rfl, by simp⟩
  | obj fields => exact ⟨_, rfl, by simp⟩

theorem orDefault_toBson_solid {v default : Value} (hfinite : Finite v) (hdefault : Solid default) :
    Solid (orDefault (toBson v) default) := by
  rw [orDefault]
  by_cases h : (toBson v).isNullOrUndefined = true
  · rwa [if_pos h]
  · rw [if_neg h]
    exact toBson_solid hfinite (by simpa using h)

theorem orDefault_toBson_attribute {v : Value} (hfinite : Finite v) : Attribute (orDefault (toBson v) .null) := by
  rw [orDefault]
  by_cases h : (toBson v).isNullOrUndefined = true
  · rw [if_pos h]
    exact Or.inl rfl
  · rw [if_neg h]
    exact Or.inr (toBson_solid hfinite (by simpa using h))

theorem orDefault_proper {value default : Value} (hvalue : value.Proper) (hdefault : default.Proper) :
    (orDefault value default).Proper := by
  rw [orDefault]
  split <;> assumption

theorem coalesce_proper {value default : Value} (hvalue : value.Proper) (hdefault : default.Proper) :
    (value.coalesce default).Proper := by
  rw [Value.coalesce]
  split <;> assumption

/-- The attributes of an entity are proper as soon as the values in them are. -/
theorem getAttributes_proper {entity : SubscriptionEntity} (hdatabaseId : entity.databaseId.Proper)
    (hsubscriptionId : entity.subscriptionId.Proper) (hclientId : entity.clientId.Proper)
    (hupdatedAt : entity.updatedAt.Proper) : entity.getAttributes.Proper := by
  rw [SubscriptionEntity.getAttributes, SubscriptionEntity.attributes, Value.proper_obj_iff]
  refine ⟨by simp, ?_⟩
  simp only [List.forall_mem_cons, List.not_mem_nil, false_imp_iff, implies_true, and_true, Value.proper_obj_iff]
  refine ⟨hdatabaseId, hsubscriptionId, ⟨by simp, coalesce_proper hclientId .undefined, .date _,
    coalesce_proper hupdatedAt .undefined⟩, by simp, .bool _⟩

theorem prop_proper {v : Value} (hproper : v.Proper) (key : String) : (v.prop key).Proper := by
  rw [prop_spread]
  cases hlookup : v.spread.lookup key with
  | none => exact .undefined
  | some value =>
    cases v with
    | obj fields => exact (Value.proper_obj_iff.mp hproper).2 (key, value) (json.mem_of_lookup hlookup)
    | _ => cases hlookup

theorem spread_proper {v : Value} (hproper : v.Proper) : ∀ field ∈ v.spread, field.2.Proper := by
  cases v with
  | obj fields => exact (Value.proper_obj_iff.mp hproper).2
  | _ => simp [Value.spread]

theorem flattened_proper {data : Value} (hproper : data.Proper) : (flattened data).Proper := by
  rw [flattened, object, Value.proper_obj_iff]
  refine ⟨json.setFields_nodup _ List.nodup_nil, fun field hfield => ?_⟩
  obtain hnone | hfield := json.mem_setFields hfield
  · cases hnone
  · simp only [List.flatten_cons, List.flatten_nil, List.append_nil, List.mem_append] at hfield
    obtain htop | hlisten | hvalues := hfield
    · exact spread_proper hproper field htop
    · exact spread_proper (prop_proper hproper _) field hlisten
    · exact spread_proper (prop_proper hproper _) field hvalues

theorem new_proper (host : Host) (now : Time) {data : Value} (hproper : data.Proper) :
    (SubscriptionEntity.new host now data).databaseId.Proper ∧
    (SubscriptionEntity.new host now data).clientId.Proper ∧
    (SubscriptionEntity.new host now data).updatedAt.Proper := by
  have hvalues := flattened_proper hproper
  refine ⟨orDefault_proper (prop_proper hvalues _) ?_, orDefault_proper (prop_proper hvalues _) .null,
    orDefault_proper (prop_proper hvalues _) .null⟩
  split
  · exact .str _
  · exact .undefined

/-- A save over the fields of an earlier save leaves only its own. -/
theorem setFields_attributes (entity other : SubscriptionEntity) :
    json.setFields (fieldsToBson entity.attributes) (fieldsToBson other.attributes) =
      fieldsToBson other.attributes := rfl

end node_backend.subscription_service
