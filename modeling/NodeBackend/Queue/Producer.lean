import NodeBackend.Common.Masks
import NodeBackend.Program.Pool
import NodeBackend.Queue.Schema

namespace node_backend.abstract_queue_producer

open js program
open node_backend.exceptions node_backend.events_queue_handler
open node_backend.infra (QueueSchemasEnum)

structure AbstractQueueProducer where
  producerName : String
  applicationName : String
  queueName : String
  queueUrl : String

/-- A payload of plain data. -/
structure Payload where
  fields : List (String × json.Value)
  proper : (json.Value.obj fields).Proper

def Payload.data (payload : Payload) : json.Value :=
  .obj payload.fields

structure EventDispatchInterface where
  payload : Payload
  schema : QueueSchemasEnum
  author : Option String
  title : Option String

/-- What a dispatch reads of its surroundings: an identifier, the time of now in the
zone of the application, and the time of now. -/
structure Reading where
  uuid : String
  timestamp : String
  date : Time
  uuid_ne : uuid ≠ ""
  timestamp_ne : timestamp ≠ ""

structure ISendParams where
  queueUrl : String
  title : String
  author : String
  message : Value
  messageGroupId : String
  messageDeduplicationId : String

/-- What SQS is handed. -/
structure SendMessageCommandInput where
  QueueUrl : String
  MessageBody : String
  title : String
  author : String
  MessageDeduplicationId : Option String
  MessageGroupId : Option String
  deriving DecidableEq, Repr

/-- A SendMessageCommand, which replies with an identifier, or a report to Sentry. -/
inductive Call
  | sendMessage (input : SendMessageCommandInput)
  | captureException (error : Failure) (data : Value) (title author : Option String)

abbrev Call.Reply : Call → Type
  | sendMessage _ => Option String
  | captureException _ _ _ _ => Unit

abbrev Promise (A : Type) : Type :=
  Program Call Call.Reply Failure A

def perform (call : Call) : Promise call.Reply :=
  Program.perform call

/-- SqsClient.msgParams. -/
def msgParams (params : ISendParams) : Except TypeError SendMessageCommandInput := do
  let isFifoQueue : Bool := ".fifo".toList <:+ params.queueUrl.toList
  let messageBody ← data_parser_helper.toString false params.message
  return {
    QueueUrl := params.queueUrl
    MessageBody := messageBody
    title := params.title
    author := params.author
    MessageDeduplicationId := if isFifoQueue then some params.messageDeduplicationId else none
    MessageGroupId := if isFifoQueue then some params.messageGroupId else none }

/-- SqsClient.sendMessage. -/
def sendMessage (params : ISendParams) : Promise String :=
  (do
    let input ← Program.ofExcept ((msgParams params).mapError Failure.typeError)
    let messageId ← perform (.sendMessage input)
    match messageId.filter (· != "") with
    | some messageId => return messageId
    | none => Program.throw (.http (buildException .internal { message := "Message not sended" }))).tryCatch
      fun error => Program.throw (.http (buildException .integration error.asError))

variable (producer : AbstractQueueProducer) (hashing : String → Option String) (reading : Reading)

def buildMessageBody (payload : json.Value) (schema : QueueSchemasEnum) : List (String × json.Value) :=
  [("id", .str reading.uuid),
    ("payload", payload),
    ("schema", .str schema.text),
    ("schemaVersion", .num (json.Number.ofDecimal false 1 0)),
    ("source", .str (producer.producerName ++ (", " ++ producer.applicationName))),
    ("timestamp", .str reading.timestamp)]

def sensitiveDataFields : List String :=
  ["password", "newPassword", "cvv", "pin"]

def maskSensitiveData (data : json.Value) : json.Value :=
  if masks.checkFieldsExistence sensitiveDataFields data then
    (masks.replaceFields sensitiveDataFields (.str "***") (masks.cloneObject data)).getD .null
  else data

/-- The text of a hash that could not be made is the one of null. -/
def buildDeduplicationId (date : Time) (payload : Value) : Except TypeError String := do
  let strDateWithSeconds := String.ofList (date.toISOString.toList.take 19)
  let strData ← data_parser_helper.toString false payload
  return (hashing strData).getD "null" ++ ("-" ++ strDateWithSeconds)

/-- What a dispatch passes to SqsClient.sendMessage. -/
def sendParams (dispatched : EventDispatchInterface) : Except TypeError ISendParams := do
  let message := buildMessageBody producer reading dispatched.payload.data dispatched.schema
  let messageDeduplicationId ← buildDeduplicationId hashing reading.date (ofJson dispatched.payload.data)
  return {
    queueUrl := producer.queueUrl
    message := ofJson (.obj message)
    messageGroupId := producer.producerName
    messageDeduplicationId := messageDeduplicationId
    title := dispatched.title.getD "New Message"
    author := dispatched.author.getD producer.producerName }

/-- What is reported of a message that was not sent. -/
def reported (dispatched : EventDispatchInterface) : Value :=
  let message := buildMessageBody producer reading dispatched.payload.data dispatched.schema
  let messageData := message.filter fun field => field.1 != "payload"
  object [(ofJson (maskSensitiveData dispatched.payload.data)).spread, fieldsOfJson messageData]

/-- AbstractQueueProducer.dispatch. The id is built before the handler is in place. -/
def dispatch (dispatched : EventDispatchInterface) : Promise (Option String) := do
  let params ← Program.ofExcept ((sendParams producer hashing reading dispatched).mapError Failure.typeError)
  (some <$> sendMessage params).tryCatch fun error => do
    perform (.captureException error (reported producer reading dispatched) dispatched.title dispatched.author)
    return none

end node_backend.abstract_queue_producer
