import NodeBackend.Queue.EventsQueueHandler

namespace node_backend.abstract_queue_consumer

open js program
open node_backend.exceptions node_backend.events_queue_handler

structure AbstractQueueConsumer where
  messageHandler : EventsQueueHandler
  consumerName : String
  queueUrl : String

/-- SqsClient.deleteMessage, which a message without a receipt handle asks for by the
text of undefined. -/
def sqsDeleteMessage (queueUrl : String) (message : Message) : Promise Bool :=
  ((fun statusCode : Option Nat => decide (200 ≤ statusCode.getD 500 ∧ statusCode.getD 500 < 300)) <$>
    perform (.deleteMessage queueUrl (message.receiptHandle.getD "undefined"))).tryCatch fun error =>
      Program.throw (.http (buildException .integration error.asError))

variable (consumer : AbstractQueueConsumer)

def deleteMessage (message : Message) : Promise Unit := do
  let _ ← sqsDeleteMessage consumer.queueUrl message
  return ()

def disabledError (message : Message) : Failure :=
  .http (buildException .internal
    { message := "Consumer " ++ (consumer.consumerName ++ " is disabled")
      details := some ("MessageId: " ++ message.messageId.getD "undefined") })

/-- AbstractQueueConsumer.handleMessage, with the flag as it is when the message
arrives. -/
def handleMessage (disabled : Bool) (message : Message) : Promise Unit :=
  if disabled then Program.throw (disabledError consumer message)
  else do
    let done ← execute consumer.messageHandler message
    if done then deleteMessage consumer message else pure ()

def captureException (error : Failure) (message : Message) : Promise Unit :=
  perform (.captureException error consumer.consumerName consumer.queueUrl message.body message.messageId)

def saveUnprocessedMessage (message : Message) : Promise Unit := do
  let insertedId ← perform (.insertOne message)
  if (insertedId.filter (· != "")).isSome then deleteMessage consumer message else pure ()

def handleProcessingError (error : Failure) (message : Message) : Promise Unit :=
  (do
    let _ ← captureException consumer error message
    saveUnprocessedMessage consumer message).tryCatch fun err => captureException consumer err message

/-- One delivery of a message: its handling, and the error event of the queue
library where that throws. -/
def deliver (disabled : Bool) (message : Message) : Promise Unit :=
  (handleMessage consumer disabled message).tryCatch fun error => handleProcessingError consumer error message

/-- A message under way. -/
structure Delivery where
  message : Message
  disabled : Bool
  program : Promise Unit

abbrev Record : Type :=
  Entry Call Call.Reply Failure

/-- The consumer at work: its flag, the deliveries it was given, and the calls made so
far, each with the number of its delivery. -/
structure Worker where
  disabled : Bool
  deliveries : List Delivery
  log : List (Nat × Record)

def Worker.start : Worker := ⟨false, [], []⟩

/-- What may happen to a consumer at any time. Messages are delivered again and again,
and several at once. -/
inductive Happens : Worker → Worker → Prop
  | disable (w : Worker) : Happens w { w with disabled := true }
  | enable (w : Worker) : Happens w { w with disabled := false }
  | receive (w : Worker) (message : Message) :
    Happens w { w with deliveries := w.deliveries ++ [⟨message, w.disabled, deliver consumer w.disabled message⟩] }
  | reply {w : Worker} {n : Nat} {message : Message} {disabled : Bool} {call : Call}
    {next : Except Failure call.Reply → Promise Unit}
    (hawaits : w.deliveries[n]? = some ⟨message, disabled, .await call next⟩) (reply : Except Failure call.Reply) :
    Happens w
      { w with
        deliveries := w.deliveries.set n ⟨message, disabled, next reply⟩
        log := w.log ++ [(n, ⟨call, reply⟩)] }

/-- The consumer may come to be so. -/
def Reachable (w : Worker) : Prop :=
  Relation.ReflTransGen (Happens consumer) Worker.start w

/-- The calls of one delivery. -/
def ofDelivery (n : Nat) (log : List (Nat × Record)) : List Record :=
  (log.filter fun line => line.1 == n).map Prod.snd

end node_backend.abstract_queue_consumer
