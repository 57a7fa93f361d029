import NodeBackend.Core.RedisClient
import NodeBackend.Domain.SubscriptionEntity

namespace node_backend.subscription_service

open js store program
open node_backend.infra node_backend.subscription_entity node_backend.exceptions

/-- CacheAccessHelper.generateKey. -/
def generateKey (id keyPattern : String) : String :=
  keyPattern ++ (":" ++ id)

/-- CacheEnum.SUBSCRIPTIONS. -/
def SUBSCRIPTIONS : String := "subscriptions"

/-- Twelve hours, in seconds. -/
def subscriptionsTimeToLive : Nat := 43200

def subscriptionNotFound : Failure :=
  .http (buildException .notFound { message := "Subscription not found!" })

/-- The readings of the clock that one call takes, in order. -/
abbrev Clock : Type := Nat → Time

def getFromCache (subscriptionId : String) : Promise Value :=
  redis_client.get (generateKey subscriptionId SUBSCRIPTIONS)

def saveOnCache (subscriptionId : String) (data : Value) : Promise String :=
  redis_client.set (generateKey subscriptionId SUBSCRIPTIONS) data subscriptionsTimeToLive

def deleteFromCache (subscriptionId : String) : Promise Nat :=
  redis_client.delete (generateKey subscriptionId SUBSCRIPTIONS)

def findBySubscriptionId (subscriptionId : String) : Promise (Option Document) :=
  perform (.findOne "subscriptionId" subscriptionId)

/-- What a driver returns for a document or for none. -/
def foundValue : Option Document → Value
  | some doc => doc.toValue
  | none => .null

variable (host : Host) (clock : Clock)

/-- new SubscriptionEntity(dataValues). -/
def newEntity (now : Time) (dataValues : Value) : Promise SubscriptionEntity :=
  Program.ofExcept ((construct host now dataValues).mapError .typeError)

/-- SubscriptionService.get. -/
def get (subscriptionId : String) : Promise SubscriptionEntity := do
  let cached ← getFromCache subscriptionId
  let savedSubscription ←
    if cached.truthy then pure cached
    else foundValue <$> findBySubscriptionId subscriptionId
  if savedSubscription.truthy then
    let subscription ← newEntity host (clock 0) savedSubscription
    let _ ← saveOnCache subscriptionId subscription.getAttributes
    return subscription
  else
    Program.throw subscriptionNotFound

/-- The end of `save`: read the document again, cache it and return it. -/
def rereadAndCache (subscriptionId subscriptionDatabaseId : String) : Promise SubscriptionEntity := do
  let foundedSubscription ← perform (.get subscriptionDatabaseId)
  match foundedSubscription with
  | some doc =>
    let cached ← newEntity host (clock 1) doc.toValue
    let _ ← saveOnCache subscriptionId cached.getAttributes
    newEntity host (clock 2) doc.toValue
  | none => newEntity host (clock 2) (.obj [])

/-- The part of `save` that writes: it inserts the attributes or updates the
document that was found. -/
def writeAttributes (subscriptionId : String) (foundedSubscription : Option Document)
    (subscriptionData : List (String × Value)) : Promise SubscriptionEntity :=
  match foundedSubscription with
  | none => do
    let insertedId ← perform (.insertOne subscriptionData)
    rereadAndCache host clock subscriptionId insertedId
  | some doc => do
    let _ ← perform (.updateOne doc.id subscriptionData)
    rereadAndCache host clock subscriptionId doc.id

/-- SubscriptionService.save. An identifier is never falsy, so the conflict that
the source reports for a missing one does not occur. -/
def save (subscriptionId : String) (data : Value) : Promise SubscriptionEntity := do
  let foundedSubscription ← findBySubscriptionId subscriptionId
  let subscription ← newEntity host (clock 0) data
  writeAttributes host clock subscriptionId foundedSubscription subscription.attributes

/-- SubscriptionService.delete. -/
def delete (subscriptionId : String) : Promise Bool := do
  let foundedSubscription ← findBySubscriptionId subscriptionId
  let deletedSubscription ←
    match foundedSubscription with
    | some doc => (fun deletedCount => decide (0 < deletedCount)) <$> perform (.deleteOne doc.id)
    | none => pure false
  let _ ← deleteFromCache subscriptionId
  return deletedSubscription

theorem newEntity_of_printable {dataValues : Value} (h : (dataValues.prop "_id").unprintable = false) (now : Time) :
    newEntity host now dataValues = pure (SubscriptionEntity.new host now dataValues) := by
  rw [newEntity, construct_of_printable h]
  rfl

theorem newEntity_of_unprintable {dataValues : Value} (h : (dataValues.prop "_id").unprintable = true) (now : Time) :
    newEntity host now dataValues = Program.throw (.typeError cannotConvertToPrimitive) := by
  rw [newEntity, construct_of_unprintable h]
  rfl

/-- A save of data that an entity can be built of. -/
theorem save_of_printable {data : Value} (h : (data.prop "_id").unprintable = false) (subscriptionId : String) :
    save host clock subscriptionId data = findBySubscriptionId subscriptionId >>= fun foundedSubscription =>
      writeAttributes host clock subscriptionId foundedSubscription
        (SubscriptionEntity.new host (clock 0) data).attributes := by
  rw [save, newEntity_of_printable host h]
  rfl

end node_backend.subscription_service
