import NodeBackend.Store.Collection

namespace node_backend.subscription_entity

open js

/-- What the entities use of Luxon and of the runtime. A text in the format that
a Date itself writes denotes that Date; other texts may denote none. -/
structure Host where
  fromISO : String → Option Time
  dateText : Option Time → String
  fromISO_toISOString : ∀ t : Time, fromISO t.toISOString = some t

/-- A host that reads the format of `toISOString` and no other. -/
def Host.utc : Host where
  fromISO := parseISO
  dateText := fun time => (time.map Time.toISOString).getD "Invalid Date"
  fromISO_toISOString := parseISO_toISOString

mutual

/-- String(value). -/
def stringOf (host : Host) : Value → String
  | .undefined => "undefined"
  | .null => "null"
  | .bool b => if b then "true" else "false"
  | .num n => String.ofList n.number.toText
  | .nonFinite n => n.toText
  | .str s => s
  | .date time => host.dateText time
  | .objectId hex => hex
  | .arr items => joinOf host items
  | .obj _ => "[object Object]"

/-- Array.prototype.join, which leaves nullish items empty. -/
def joinOf (host : Host) : List Value → String
  | [] => ""
  | [item] => if item.isNullOrUndefined then "" else stringOf host item
  | item :: rest => (if item.isNullOrUndefined then "" else stringOf host item) ++ ("," ++ joinOf host rest)

end

/-- AbstractEntity.getDate, with the time that the clock shows. -/
def getDate (host : Host) (now : Time) : Value → Option Time
  | .date time => time
  | .str text => host.fromISO text
  | _ => some now

structure SubscriptionEntity where
  databaseId : Value
  subscriptionId : Value
  clientId : Value
  createdAt : Option Time
  updatedAt : Value
  newConnectionsListen : Bool

/-- The object that the constructor flattens its argument to: the argument's own
fields, then those of `listen`, then those of `dataValues`. -/
def flattened (dataValues : Value) : Value :=
  object [dataValues.spread, (dataValues.prop "listen").spread, (dataValues.prop "dataValues").spread]

/-- A value unless it is nullish, and the field's default then. -/
def orDefault (value default : Value) : Value :=
  if value.isNullOrUndefined then default else value

/-- The entity that the constructor builds where it does not throw. -/
def SubscriptionEntity.new (host : Host) (now : Time) (dataValues : Value) : SubscriptionEntity :=
  let values := flattened dataValues
  let registerId : Value :=
    if (dataValues.prop "_id").truthy then .str (stringOf host (dataValues.prop "_id")) else .undefined
  let newConnectionsListen :=
    ((values.prop "newConnections").coalesce ((values.prop "listen").prop "newConnections")).truthy
  { databaseId := orDefault (values.prop "id") registerId
    subscriptionId := orDefault (values.prop "subscriptionId") (.str "")
    clientId := orDefault (values.prop "clientId") .null
    createdAt := getDate host now (values.prop "createdAt")
    updatedAt := orDefault (values.prop "updatedAt") .null
    newConnectionsListen := newConnectionsListen }

/-- The constructor, which throws where `_id` cannot be converted to a text. -/
def construct (host : Host) (now : Time) (dataValues : Value) : Except TypeError SubscriptionEntity :=
  if (dataValues.prop "_id").unprintable then .error cannotConvertToPrimitive
  else .ok (SubscriptionEntity.new host now dataValues)

/-- The fields of `getAttributes`. -/
def SubscriptionEntity.attributes (entity : SubscriptionEntity) : List (String × Value) :=
  [("id", entity.databaseId),
    ("subscriptionId", entity.subscriptionId),
    ("dataValues", .obj [
      ("clientId", entity.clientId.coalesce .undefined),
      ("createdAt", .date entity.createdAt),
      ("updatedAt", entity.updatedAt.coalesce .undefined)]),
    ("listen", .obj [("newConnections", .bool entity.newConnectionsListen)])]

def SubscriptionEntity.getAttributes (entity : SubscriptionEntity) : Value :=
  .obj entity.attributes

theorem construct_of_printable {dataValues : Value} (h : (dataValues.prop "_id").unprintable = false) (host : Host)
    (now : Time) : construct host now dataValues = .ok (SubscriptionEntity.new host now dataValues) := by
  rw [construct, h, if_neg Bool.false_ne_true]

theorem construct_of_unprintable {dataValues : Value} (h : (dataValues.prop "_id").unprintable = true) (host : Host)
    (now : Time) : construct host now dataValues = .error cannotConvertToPrimitive := by
  rw [construct, if_pos h]

end node_backend.subscription_entity
