import NodeBackend.Subscription.Encoding

namespace node_backend.subscription_entity

open js
open node_backend.subscription_service

/-- An entity by the types that its fields are declared with, its dates valid. Only an
entity that was never stored lacks the identifier of a register. -/
structure Declared where
  databaseId : Option String
  subscriptionId : String
  clientId : Option String
  createdAt : Time
  updatedAt : Option Time
  newConnectionsListen : Bool

def Declared.entity (declared : Declared) : SubscriptionEntity where
  databaseId := declared.databaseId.elim .undefined .str
  subscriptionId := .str declared.subscriptionId
  clientId := declared.clientId.elim .null .str
  createdAt := some declared.createdAt
  updatedAt := declared.updatedAt.elim .null fun time => .date (some time)
  newConnectionsListen := declared.newConnectionsListen

/-- The entity that is built from the cached form of another. -/
def recode (host : Host) (now : Time) (entity : SubscriptionEntity) : Except TypeError SubscriptionEntity := do
  let text ← data_parser_helper.toString false entity.getAttributes
  construct host now (data_parser_helper.toObject text)

variable (host : Host) (now : Time) (declared : Declared)

/-- What is written for a declared entity. -/
def Declared.written : json.Value :=
  .obj (optionalField "id" (declared.databaseId.map .str) ++ [("subscriptionId", .str declared.subscriptionId),
    ("dataValues", .obj (optionalField "clientId" (declared.clientId.map .str) ++
      (("createdAt", .str declared.createdAt.toISOString) ::
        optionalField "updatedAt" (declared.updatedAt.map fun time => .str time.toISOString)))),
    ("listen", .obj [("newConnections", .bool declared.newConnectionsListen)])])

theorem Declared.toJson_eq : declared.entity.getAttributes.toJson = some declared.written := by
  obtain ⟨databaseId, subscriptionId, clientId, createdAt, updatedAt, listen⟩ := declared
  cases databaseId <;> cases clientId <;> cases updatedAt <;> rfl

theorem Declared.written_proper : declared.written.Proper := by
  refine Value.Proper.toJson (getAttributes_proper ?_ (.str _) ?_ ?_) declared.toJson_eq
  · cases h : declared.databaseId <;> simp [Declared.entity, h, Value.Proper.undefined, Value.Proper.str]
  · cases h : declared.clientId <;> simp [Declared.entity, h, Value.Proper.null, Value.Proper.str]
  · cases h : declared.updatedAt <;> simp [Declared.entity, h, Value.Proper.null, Value.Proper.date]

/-- The date of an update, as the constructor takes it over from the text. -/
def Declared.updateText : Value :=
  declared.updatedAt.elim .null fun time => .str time.toISOString

theorem Declared.new_written :
    SubscriptionEntity.new host now (ofJson declared.written) =
      { declared.entity with updatedAt := declared.updateText } := by
  have hcreatedAt := host.fromISO_toISOString declared.createdAt
  obtain ⟨databaseId, subscriptionId, clientId, createdAt, updatedAt, listen⟩ := declared
  have hnew : SubscriptionEntity.new host now (ofJson (Declared.written
        ⟨databaseId, subscriptionId, clientId, createdAt, updatedAt, listen⟩)) =
      { Declared.entity ⟨databaseId, subscriptionId, clientId, createdAt, updatedAt, listen⟩ with
        createdAt := host.fromISO createdAt.toISOString
        updatedAt := Declared.updateText ⟨databaseId, subscriptionId, clientId, createdAt, updatedAt, listen⟩ } := by
    cases databaseId <;> cases clientId <;> cases updatedAt <;>
      simp [SubscriptionEntity.new, flattened, Declared.written, Declared.entity, Declared.updateText, optionalField,
        ofJson, fieldsOfJson, Value.prop, List.lookup_cons, object, Value.spread, orDefault, getDate, Value.coalesce,
        Value.isNullOrUndefined, Value.truthy, json.setFields, json.setField]
  rw [hnew, hcreatedAt]
  rfl

/-- Everything comes back as it was but the date of an update, which stays a text. -/
theorem Declared.recode_eq :
    recode host now declared.entity = .ok { declared.entity with updatedAt := declared.updateText } := by
  have htext : data_parser_helper.text false declared.entity.getAttributes = declared.written.stringify := by
    rw [SubscriptionEntity.getAttributes, data_parser_helper.text, ← SubscriptionEntity.getAttributes,
      data_parser_helper.parseObjectToString, Value.stringify, declared.toJson_eq, Option.map_some, Option.getD_some]
  have hprint : declared.entity.getAttributes.unprintable = false := rfl
  have hobject := data_parser_helper.toObject_stringify declared.written_proper
  rw [recode, data_parser_helper.toString_of_printable false hprint, htext]
  change construct host now (data_parser_helper.toObject declared.written.stringify) = _
  rw [hobject, construct_of_printable _ host now, declared.new_written]
  obtain ⟨databaseId, subscriptionId, clientId, createdAt, updatedAt, listen⟩ := declared
  cases databaseId <;> rfl

/-- Decoding the cached form of an entity gives its attributes back exactly if it was
never updated. -/
theorem recode_attributes_iff :
    (∃ decoded, recode host now declared.entity = .ok decoded ∧
      decoded.getAttributes = declared.entity.getAttributes) ↔ declared.updatedAt = none := by
  rw [declared.recode_eq host now]
  constructor
  · intro h
    obtain ⟨decoded, hdecoded, hattributes⟩ := h
    rw [← Except.ok.inj hdecoded] at hattributes
    cases hupdate : declared.updatedAt with
    | none => rfl
    | some time =>
      simp [SubscriptionEntity.getAttributes, SubscriptionEntity.attributes, Declared.updateText, Declared.entity,
        hupdate, Value.coalesce, Value.isNullOrUndefined] at hattributes
  · intro hnone
    refine ⟨_, rfl, ?_⟩
    simp [SubscriptionEntity.getAttributes, SubscriptionEntity.attributes, Declared.updateText, Declared.entity, hnone]

/-- An entity that was updated at the epoch. -/
def updatedEntity : Declared where
  databaseId := some "0"
  subscriptionId := "s"
  clientId := none
  createdAt := Time.epoch
  updatedAt := some Time.epoch
  newConnectionsListen := true

theorem recode_attributes_ne :
    ¬ ∀ (declared : Declared), ∃ decoded, recode Host.utc Time.epoch declared.entity = .ok decoded ∧
      decoded.getAttributes = declared.entity.getAttributes := by
  intro hclaim
  obtain ⟨decoded, hdecoded, hattributes⟩ := hclaim updatedEntity
  rw [updatedEntity.recode_eq Host.utc Time.epoch] at hdecoded
  rw [← Except.ok.inj hdecoded] at hattributes
  simp [SubscriptionEntity.getAttributes, SubscriptionEntity.attributes, Declared.updateText, Declared.entity,
    updatedEntity, Value.coalesce, Value.isNullOrUndefined] at hattributes

end node_backend.subscription_entity
