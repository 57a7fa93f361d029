import NodeBackend.Subscription.Runs

namespace node_backend.web_socket_server

open js store program
open node_backend.infra node_backend.exceptions node_backend.subscription_entity node_backend.subscription_service

/-- EventsQueueProducer.dispatch. A message that the queue refuses is reported
and dropped. -/
def dispatch (event : EventDispatchInterface) : Promise (Option String) :=
  (some <$> perform (.sendMessage event)).tryCatch fun _ => pure none

/-- The handler around `toObject` never runs: it does not throw. -/
def formatMessageAfterReceiveHelper (message : String) : Value :=
  data_parser_helper.toObject message

/-- typeof value === 'object' && value. -/
def isObject : Value → Bool
  | .date _ => true
  | .objectId _ => true
  | .arr _ => true
  | .obj _ => true
  | _ => false

/-- The data that a reconnection saves: the message, with the identifier of its
socket written over it. -/
def reconnectionData (socketId : String) (data : Value) : Value :=
  object [data.spread, [("subscriptionId", .str socketId)]]

variable (host : Host) (clock : Clock)

def saveAndDispatchConnection (socketId : String) : Promise Unit := do
  let _ ← save host clock socketId (.obj [("subscriptionId", .str socketId)])
  let _ ← dispatch {
    title := "New Client Connected"
    author := "Websocket Server"
    schema := .newConnection
    payload := .obj [("subscriptionId", .str socketId), ("event", .str QueueSchemasEnum.newConnection.text)] }

def updateConnection (socketId message : String) : Promise Unit := do
  let data := formatMessageAfterReceiveHelper message
  if isObject data then
    let subscription ← save host clock socketId (reconnectionData socketId data)
    if subscription.newConnectionsListen then perform (.join socketId .newConnections)
    else perform (.leave socketId .newConnections)

def deleteConnection (socketId : String) : Promise Unit := do
  let _ ← delete socketId

def handleConnection (socketId : String) : Promise Unit :=
  saveAndDispatchConnection host clock socketId

def handleDisconnect (socketId : String) : Promise Unit := do
  perform (.leave socketId .newConnections)
  deleteConnection socketId

def handleReconnect (socketId msg : String) : Promise Unit :=
  updateConnection host clock socketId msg

end node_backend.web_socket_server
