import NodeBackend.Common.DataParser
import NodeBackend.Core.Infra
import NodeBackend.Program.History

namespace node_backend.events_queue_handler

open js program
open node_backend.exceptions node_backend.infra

/-- A message of the queue. Its objectId is the one that the driver writes into the
object with the first attempt to insert it. -/
structure Message where
  messageId : Option String
  receiptHandle : Option String
  body : Option String
  objectId : String

inductive EmitterEventsEnum
  | disableLogin
  | disableAllRoutes
  | emitPrivate
  | broadcast
  deriving DecidableEq, Repr

def EmitterEventsEnum.text : EmitterEventsEnum → String
  | disableLogin => "disable_login"
  | disableAllRoutes => "disable_all_routes"
  | emitPrivate => "emit_private"
  | broadcast => "broadcast"

def WebSocketRoomsEnum.text : WebSocketRoomsEnum → String
  | .newConnections => "new_connections"

/-- QueueDomainEventsEnum.NEW_HOOK. -/
def NEW_HOOK : String := "NEW_HOOK"

/-- What the consumption of a message asks of other components: an insert into
unprocessedMessages, a DeleteMessageCommand, a report to Sentry, the pull of the
hooks of a schema, or an event of the emitter. -/
inductive Call
  | insertOne (document : Message)
  | deleteMessage (queueUrl receiptHandle : String)
  | captureException (error : Failure) (consumer queueUrl : String) (originalPayload messageId : Option String)
  | pullHook (hookSchema : String) (data : Value)
  | send (event : EmitterEventsEnum) (args : List Value)

abbrev Call.Reply : Call → Type
  | insertOne _ => Option String
  | deleteMessage _ _ => Option Nat
  | captureException _ _ _ _ _ => Unit
  | pullHook _ _ => Unit
  | send _ _ => Bool

abbrev Promise (A : Type) : Type :=
  Program Call Call.Reply Failure A

def perform (call : Call) : Promise call.Reply :=
  Program.perform call

/-- A validated value, with the parts that the handler reads. -/
structure EventPayloadInterface where
  value : Value
  schema : QueueSchemasEnum
  payload : Value
  event : String

/-- What Joi reports of a value. -/
structure ValidationError where
  name : String
  messages : List String

/-- The handler's own data: the schema that Joi validates with, and the hash of the
environment's name. -/
structure EventsQueueHandler where
  eventPayloadSchema : Value → Except ValidationError EventPayloadInterface
  envSecretHash : Option String

variable (handler : EventsQueueHandler)

/-- SchemaValidator.validate. -/
def validate (data : Value) : Except Failure EventPayloadInterface :=
  (handler.eventPayloadSchema data).mapError fun error =>
    .http (buildException .contract { message := error.name ++ (": " ++ String.intercalate ", " error.messages) })

/-- A text that cannot be parsed reads as null, so the handler around toObject
never runs. -/
def getMessageBody (message : Message) : Except Failure Value :=
  match message.body.filter (· != "") with
  | some body => .ok (data_parser_helper.toObject body)
  | none =>
    .error (.http (buildException .internal
      { message := "Invalid message body"
        details := (Value.obj [("messageId", message.messageId.elim .undefined .str)]).stringify }))

/-- The payload that a message carries. -/
def payloadOf (message : Message) : Except Failure EventPayloadInterface := do
  let data ← getMessageBody message
  validate handler data

def validatedBeforeEmitEvent (value : EventPayloadInterface) : Bool :=
  match value.payload.prop "envSecretHash", handler.envSecretHash with
  | .str text, some hash => text == hash
  | .null, none => true
  | _, _ => false

/-- SubscriptionService.emit. -/
def emit (msg : Value) (room : WebSocketRoomsEnum) : Promise Unit := do
  let _ ← perform (.send .emitPrivate [.str (WebSocketRoomsEnum.text room), msg])
  return ()

/-- SubscriptionService.broadcast. -/
def broadcast (msg : Value) : Promise Unit := do
  let _ ← perform (.send .broadcast [msg])
  return ()

def unhandledEvent (value : EventPayloadInterface) : Failure :=
  .http (buildException .internal { message := "Unhandled event", details := value.value.stringify })

def handleByDomainEvent (value : EventPayloadInterface) : Promise Unit :=
  if value.event = NEW_HOOK then perform (.pullHook value.event value.payload)
  else Program.throw (unhandledEvent value)

/-- An event that only the owner of the environment's hash may set off. -/
def sendValidated (event : EmitterEventsEnum) (value : EventPayloadInterface) : Promise Unit :=
  if validatedBeforeEmitEvent handler value then do
    let _ ← perform (.send event [value.payload.prop "disable"])
    return ()
  else pure ()

/-- The schema is one of the enumeration, so the default of the source never runs. -/
def handleBySchema (value : EventPayloadInterface) : Promise Unit :=
  match value.schema with
  | .domainEvent => handleByDomainEvent value
  | .broadcast => broadcast value.value
  | .newConnection => emit value.value .newConnections
  | .disableAllRoutes => sendValidated handler .disableAllRoutes value
  | .disableLogin => sendValidated handler .disableLogin value

/-- The part of `execute` that may throw. -/
def process (message : Message) : Promise Bool := do
  let payload ← Program.ofExcept (payloadOf handler message)
  let _ ← handleBySchema handler payload
  return true

/-- The fallback of `execute`: whether the message could be stored. -/
def saveUnprocessed (message : Message) : Promise Bool :=
  ((fun _ => true) <$> perform (.insertOne message)).tryCatch fun _ => pure false

/-- EventsQueueHandler.execute. -/
def execute (message : Message) : Promise Bool :=
  (process handler message).tryCatch fun _ => saveUnprocessed message

end node_backend.events_queue_handler
