import NodeBackend.Program.Ensures
import NodeBackend.Queue.EventsQueueHandler

namespace node_backend.events_queue_handler

open js program
open node_backend.exceptions node_backend.infra

/-- The call that the handler makes for a validated value, if it makes one. -/
def callFor (handler : EventsQueueHandler) (value : EventPayloadInterface) : Option Call :=
  match value.schema with
  | .domainEvent => if value.event = NEW_HOOK then some (.pullHook value.event value.payload) else none
  | .broadcast => some (.send .broadcast [value.value])
  | .newConnection => some (.send .emitPrivate [.str (WebSocketRoomsEnum.text .newConnections), value.value])
  | .disableAllRoutes =>
    if validatedBeforeEmitEvent handler value then some (.send .disableAllRoutes [value.payload.prop "disable"])
    else none
  | .disableLogin =>
    if validatedBeforeEmitEvent handler value then some (.send .disableLogin [value.payload.prop "disable"]) else none

/-- The call that the handler makes for a message. -/
def callOf (handler : EventsQueueHandler) (message : Message) : Option Call :=
  (payloadOf handler message).toOption.bind (callFor handler)

section affect

variable {S : Type} (affect : Call → S → S)

/-- Calls with any reply, whose effect does not depend on it. -/
def anyReply : Step Call Call.Reply Failure S := fun call s _ s' => s' = affect call s

/-- What an optional call does. -/
def effect (call : Option Call) (s : S) : S :=
  call.elim s fun call => affect call s

variable {affect}

theorem perform_effect (call : Call) (s : S) : (perform call).Ensures (anyReply affect) s
    (fun _ s' => s' = affect call s) fun _ s' => s' = affect call s :=
  Program.ensures_perform (fun _ _ h => h) fun _ _ h => h

theorem send_effect (event : EmitterEventsEnum) (args : List Value) (s : S) :
    (do
      let _ ← perform (.send event args)
      return () : Promise Unit).Ensures (anyReply affect) s
      (fun _ s' => s' = affect (.send event args) s) fun _ s' => s' = affect (.send event args) s :=
  Program.Ensures.bind (perform_effect _ s) fun _ _ h => h

theorem sendValidated_effect (handler : EventsQueueHandler) (event : EmitterEventsEnum) (value : EventPayloadInterface)
    (s : S) {call : Option Call} (hcall : call =
      if validatedBeforeEmitEvent handler value then some (.send event [value.payload.prop "disable"]) else none) :
    (sendValidated handler event value).Ensures (anyReply affect) s (fun _ s' => s' = effect affect call s)
      fun _ s' => s' = effect affect call s := by
  subst hcall
  unfold sendValidated
  cases validatedBeforeEmitEvent handler value with
  | true => exact send_effect event _ s
  | false => exact rfl

theorem handleBySchema_effect (handler : EventsQueueHandler) (value : EventPayloadInterface) (s : S) :
    (handleBySchema handler value).Ensures (anyReply affect) s
      (fun _ s' => s' = effect affect (callFor handler value) s)
      fun _ s' => s' = effect affect (callFor handler value) s := by
  unfold handleBySchema callFor
  cases value.schema with
  | domainEvent =>
    change (handleByDomainEvent value).Ensures _ _ _ _
    unfold handleByDomainEvent
    dsimp only
    split
    · exact perform_effect _ s
    · exact rfl
  | broadcast => exact send_effect .broadcast [value.value] s
  | newConnection => exact send_effect .emitPrivate [.str (WebSocketRoomsEnum.text .newConnections), value.value] s
  | disableLogin => exact sendValidated_effect handler .disableLogin value s rfl
  | disableAllRoutes => exact sendValidated_effect handler .disableAllRoutes value s rfl

/-- A message does what its one call does, whatever fails meanwhile, where the fallback of
the handler does nothing. -/
theorem execute_ensures_effect (handler : EventsQueueHandler) (message : Message) (s : S)
    (hinsert : ∀ s, affect (.insertOne message) s = s) : (execute handler message).Ensures (anyReply affect) s
      (fun _ s' => s' = effect affect (callOf handler message) s)
      fun _ s' => s' = effect affect (callOf handler message) s := by
  unfold execute process
  apply Program.Ensures.tryCatch (R := fun _ s' => s' = effect affect (callOf handler message) s)
  · unfold callOf
    cases payloadOf handler message with
    | error failure => exact rfl
    | ok value =>
      change (handleBySchema handler value >>= fun _ => pure true).Ensures _ _ _ _
      exact Program.Ensures.bind (handleBySchema_effect handler value s) fun _ _ h => h
  · rintro _ _ rfl
    unfold saveUnprocessed
    refine Program.Ensures.tryCatch (R := fun _ s' => s' = effect affect (callOf handler message) s) ?_ fun _ _ h => h
    rw [Program.map_eq]
    refine Program.Ensures.bind (R := fun _ s' => s' = effect affect (callOf handler message) s) ?_ fun _ _ h => h
    exact Program.ensures_perform (fun _ _ h => h.trans (hinsert _)) fun _ _ h => h.trans (hinsert _)

/-- The same of a run whose calls are carried out by one executor after another. -/
theorem runFrom_execute {world : Nat → Exec Call Call.Reply Failure S}
    (hworld : ∀ n call s, (world n call s).2 = affect call s) (handler : EventsQueueHandler) (message : Message) (s : S)
    (hinsert : ∀ s, affect (.insertOne message) s = s) :
    (Program.runFrom world 0 (execute handler message) s).2 = effect affect (callOf handler message) s := by
  obtain ⟨_, _, h⟩ | ⟨_, _, h⟩ := (execute_ensures_effect handler message s hinsert).runFrom hworld 0
  · exact h
  · exact h

end affect

end node_backend.events_queue_handler
