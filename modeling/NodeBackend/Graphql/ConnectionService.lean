import NodeBackend.Subscription.Service

namespace node_backend.connection_service

open js
open node_backend.infra node_backend.subscription_entity node_backend.subscription_service

structure CreateConnectionInputDto where
  subscriptionId : String
  clientId : Option String
  newConnectionsListen : Bool

/-- The input as the object that the service saves. -/
def CreateConnectionInputDto.toValue (dto : CreateConnectionInputDto) : Value :=
  .obj [("subscriptionId", .str dto.subscriptionId),
    ("clientId", (dto.clientId.map Value.str).getD .null),
    ("newConnectionsListen", .bool dto.newConnectionsListen)]

structure UpdateConnectionInputDto extends CreateConnectionInputDto where
  id : String

def UpdateConnectionInputDto.toValue (dto : UpdateConnectionInputDto) : Value :=
  .obj [("subscriptionId", .str dto.subscriptionId),
    ("clientId", (dto.clientId.map Value.str).getD .null),
    ("newConnectionsListen", .bool dto.newConnectionsListen),
    ("id", .str dto.id)]

variable (host : Host) (clock : Clock)

def findOne (subscriptionId : String) : Promise SubscriptionEntity :=
  subscription_service.get host clock subscriptionId

def create (createConnectionInputDto : CreateConnectionInputDto) : Promise SubscriptionEntity :=
  subscription_service.save host clock createConnectionInputDto.subscriptionId createConnectionInputDto.toValue

def update (updateConnectionInputDto : UpdateConnectionInputDto) : Promise SubscriptionEntity :=
  subscription_service.save host clock updateConnectionInputDto.subscriptionId updateConnectionInputDto.toValue

def remove (subscriptionId : String) : Promise Bool :=
  subscription_service.delete subscriptionId

end node_backend.connection_service
