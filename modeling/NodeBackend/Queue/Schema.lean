import NodeBackend.Queue.EventsQueueHandler

namespace node_backend.events_queue_handler

open js
open node_backend.infra

/-- A text that Joi.string() takes, where it need not be given. -/
def OptionalString (value : Value) : Prop :=
  value = .undefined ∨ ∃ text, value = .str text ∧ text ≠ ""

/-- Data of the form that eventPayloadSchema describes, with a natural number for a
version. -/
structure WellFormed (data : Value) : Prop where
  object : ∃ fields, data = .obj fields
  schema : ∃ schema : QueueSchemasEnum, data.prop "schema" = .str schema.text
  payload : ∃ fields, data.prop "payload" = .obj fields
  event : ∃ event, (data.prop "payload").prop "event" = .str event ∧ event ≠ ""
  id : OptionalString (data.prop "id")
  schemaVersion : data.prop "schemaVersion" = .undefined ∨
    ∃ n : Nat, n < 2 ^ 53 ∧ data.prop "schemaVersion" = .ofNumber (json.Number.ofDecimal false n 0)
  source : OptionalString (data.prop "source")
  timestamp : OptionalString (data.prop "timestamp")

/-- Data of the form that it describes is taken, and of the payloads that are kept the
fields are, known or not. -/
def Accepts (eventPayloadSchema : Value → Except ValidationError EventPayloadInterface) (Kept : Value → Prop) : Prop :=
  ∀ data, WellFormed data → Kept (data.prop "payload") → ∃ value, eventPayloadSchema data = .ok value ∧
    data.prop "schema" = .str value.schema.text ∧ value.payload = data.prop "payload"

/-- A payload that Joi keeps: it copies the fields by assignment, which makes of a
`__proto__` no field. -/
def Assignable (payload : Value) : Prop :=
  payload.prop "__proto__" = .undefined

def RejectsNull (eventPayloadSchema : Value → Except ValidationError EventPayloadInterface) : Prop :=
  ∀ value, eventPayloadSchema .null ≠ .ok value

theorem text_injective : Function.Injective QueueSchemasEnum.text := by
  intro first second h
  cases first <;> cases second <;> first | rfl | simp [QueueSchemasEnum.text] at h

/-- Object.values(QueueSchemasEnum). -/
def schemas : List QueueSchemasEnum :=
  [.domainEvent, .broadcast, .newConnection, .disableLogin, .disableAllRoutes]

/-- A validator that looks at the schema and at the event of the payload. -/
def validateEvent (data : Value) : Except ValidationError EventPayloadInterface :=
  match data.prop "schema", (data.prop "payload").prop "event" with
  | .str text, .str event =>
    match schemas.find? fun schema => schema.text == text with
    | some schema =>
      if event = "" then .error ⟨"ValidationError", ["\"payload.event\" is not allowed to be empty"]⟩
      else .ok ⟨data, schema, data.prop "payload", event⟩
    | none => .error ⟨"ValidationError", ["\"schema\" must be one of [" ++
        (String.intercalate ", " (schemas.map QueueSchemasEnum.text) ++ "]")]⟩
  | _, _ => .error ⟨"ValidationError", ["\"payload.event\" is required"]⟩

theorem find_schemas (schema : QueueSchemasEnum) :
    schemas.find? (fun other => other.text == schema.text) = some schema := by
  cases schema <;> decide

def validatingHandler : EventsQueueHandler where
  eventPayloadSchema := validateEvent
  envSecretHash := some "hash"

theorem validatingHandler_accepts (Kept : Value → Prop) : Accepts validatingHandler.eventPayloadSchema Kept := by
  intro data h _
  obtain ⟨schema, hschema⟩ := h.schema
  obtain ⟨event, hevent, hne⟩ := h.event
  refine ⟨⟨data, schema, data.prop "payload", event⟩, ?_, hschema, rfl⟩
  change validateEvent data = _
  unfold validateEvent
  rw [hschema, hevent]
  simp only [find_schemas, if_neg hne]

theorem validatingHandler_rejectsNull : RejectsNull validatingHandler.eventPayloadSchema := by
  intro value h
  cases h

end node_backend.events_queue_handler
