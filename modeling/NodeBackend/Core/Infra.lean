import NodeBackend.Core.Exceptions
import NodeBackend.Program.Run
import NodeBackend.Store.Collection
import NodeBackend.Store.KeyValue

namespace node_backend.infra

open js store program
open node_backend.exceptions

inductive QueueSchemasEnum
  | domainEvent
  | broadcast
  | newConnection
  | disableLogin
  | disableAllRoutes
  deriving DecidableEq, Repr

def QueueSchemasEnum.text : QueueSchemasEnum → String
  | domainEvent => "DOMAIN_EVENT"
  | broadcast => "BROADCAST"
  | newConnection => "NEW_CONNECTION"
  | disableLogin => "DISABLE_LOGIN"
  | disableAllRoutes => "DISABLE_ALL_ROUTES"

inductive WebSocketRoomsEnum
  | newConnections
  deriving DecidableEq, Repr

/-- What a producer hands to the queue. -/
structure EventDispatchInterface where
  title : String
  author : String
  schema : QueueSchemasEnum
  payload : Value

/-- One awaited step: a Redis command, a request on the subscriptions
collection, a change of a socket's rooms, or a message to the queue. -/
inductive Call
  | redisGet (key : String)
  | redisSet (key text : String)
  | redisExpire (key : String) (ttl : Nat)
  | redisDel (key : String)
  | findOne (field value : String)
  | get (id : String)
  | insertOne (data : List (String × Value))
  | updateOne (id : String) (data : List (String × Value))
  | deleteOne (id : String)
  | join (socketId : String) (room : WebSocketRoomsEnum)
  | leave (socketId : String) (room : WebSocketRoomsEnum)
  | sendMessage (message : EventDispatchInterface)

abbrev Call.Reply : Call → Type
  | redisGet _ => Option String
  | redisSet _ _ => String
  | redisExpire _ _ => Nat
  | redisDel _ => Nat
  | findOne _ _ => Option Document
  | get _ => Option Document
  | insertOne _ => String
  | updateOne _ _ => Unit
  | deleteOne _ => Nat
  | join _ _ => Unit
  | leave _ _ => Unit
  | sendMessage _ => String

abbrev Promise (A : Type) : Type :=
  Program Call Call.Reply Failure A

def perform (call : Call) : Promise call.Reply :=
  Program.perform call

structure Infra (ids : IdSource) where
  redis : KeyValue
  subscriptions : Collection ids
  rooms : List (WebSocketRoomsEnum × String)
  queue : List EventDispatchInterface

variable {ids : IdSource}

def Infra.empty : Infra ids := ⟨KeyValue.empty, Collection.empty, [], []⟩

/-- Redis drops a key whose time to live ran out. -/
def Infra.expire (key : String) (s : Infra ids) : Infra ids :=
  { s with redis := s.redis.delete key }

/-- Reply and effect of a step that does not fail. A positive time to live takes
no effect by itself: an entry expires by `Infra.expire`. -/
def exec : Exec Call Call.Reply Failure (Infra ids)
  | .redisGet key, s => (.ok (s.redis.get key), s)
  | .redisSet key text, s => (.ok "OK", { s with redis := s.redis.set key text })
  | .redisExpire key ttl, s =>
    (.ok (if (s.redis.get key).isSome then 1 else 0),
      if ttl = 0 then { s with redis := s.redis.delete key } else s)
  | .redisDel key, s =>
    (.ok (if (s.redis.get key).isSome then 1 else 0), { s with redis := s.redis.delete key })
  | .findOne field value, s => (.ok (s.subscriptions.findOne field value), s)
  | .get id, s => (.ok (s.subscriptions.get id), s)
  | .insertOne data, s =>
    (.ok s.subscriptions.nextId, { s with subscriptions := s.subscriptions.insertOne data })
  | .updateOne id data, s => (.ok (), { s with subscriptions := s.subscriptions.updateOne id data })
  | .deleteOne id, s =>
    (.ok (if (s.subscriptions.get id).isSome then 1 else 0),
      { s with subscriptions := s.subscriptions.deleteOne id })
  | .join socketId room, s =>
    (.ok (), if (room, socketId) ∈ s.rooms then s else { s with rooms := s.rooms ++ [(room, socketId)] })
  | .leave socketId room, s => (.ok (), { s with rooms := s.rooms.filter (· != (room, socketId)) })
  | .sendMessage message, s => (.ok (toString s.queue.length), { s with queue := s.queue ++ [message] })

end node_backend.infra
