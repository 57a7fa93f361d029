import NodeBackend.Queue.Effects
import NodeBackend.Queue.Schema

namespace node_backend.feature_flags

open js program
open node_backend.exceptions node_backend.events_queue_handler
open node_backend.infra (QueueSchemasEnum)

/-- What LifecycleService does to the HTTP server. -/
inductive ServerAction
  | close
  | listen
  deriving DecidableEq, Repr

/-- UserController.loginDisabled, and what was done to the HTTP server so far. -/
structure Features where
  loginDisabled : Bool
  server : List ServerAction
  deriving DecidableEq, Repr

def Features.initial : Features := ⟨false, []⟩

abbrev Listener : Type :=
  List Value → Features → Features

/-- The listener of UserController.onModuleInit. -/
def setLoginDisabled : Listener
  | .bool disable :: _, s => { s with loginDisabled := disable }
  | _, s => s

/-- The listener of LifecycleService.listenEvents. -/
def breakCircuit : Listener
  | .bool disable :: _, s => { s with server := s.server ++ [if disable then .close else .listen] }
  | _, s => s

/-- The listeners of WebSocketServer.setInternalListenners send to sockets only. -/
def sendToSockets : Listener :=
  fun _ s => s

/-- What listens to the emitter, by the text of an event. -/
def listeners : List (String × Listener) :=
  [(EmitterEventsEnum.disableLogin.text, setLoginDisabled),
    (EmitterEventsEnum.disableAllRoutes.text, breakCircuit),
    (EmitterEventsEnum.broadcast.text, sendToSockets),
    (EmitterEventsEnum.emitPrivate.text, sendToSockets)]

/-- EventEmitterClient.send: every listener of the event's text is called in order. -/
def send (event : EmitterEventsEnum) (args : List Value) (s : Features) : Features :=
  (listeners.filter fun listener => listener.1 == event.text).foldl (fun s listener => listener.2 args s) s

/-- What a call does to the features. -/
def affect (call : Call) (s : Features) : Features :=
  match call with
  | .send event args => send event args s
  | _ => s

/-- A message with what the calls of its handling reply, each of which may fail. -/
structure Arrival where
  message : Message
  reply : Nat → (call : Call) → Except Failure call.Reply

def Arrival.exec (arrival : Arrival) (n : Nat) : Exec Call Call.Reply Failure Features := fun call s =>
  (arrival.reply n call, affect call s)

/-- The features after messages that are handled one after another. -/
def handled (handler : EventsQueueHandler) (arrivals : List Arrival) : Features :=
  arrivals.foldl (fun s arrival => (Program.runFrom arrival.exec 0 (execute handler arrival.message) s).2)
    Features.initial

def boolean? : Value → Option Bool
  | .bool b => some b
  | _ => none

/-- `payload.disable` of a value that has a schema and carries the hash of the handler,
where it is a boolean. -/
def asked (handler : EventsQueueHandler) (schema : QueueSchemasEnum) (value : EventPayloadInterface) : Option Bool :=
  if value.schema = schema ∧ validatedBeforeEmitEvent handler value = true then boolean? (value.payload.prop "disable")
  else none

/-- The same of a message that parses as JSON and satisfies the schema of events. -/
def switch (handler : EventsQueueHandler) (schema : QueueSchemasEnum) (message : Message) : Option Bool := do
  let body ← message.body
  let parsed ← json.parse body
  let value ← (handler.eventPayloadSchema (ofJson parsed)).toOption
  asked handler schema value

theorem validatedBeforeEmitEvent_iff {handler : EventsQueueHandler} {value : EventPayloadInterface} :
    validatedBeforeEmitEvent handler value = true ↔
      value.payload.prop "envSecretHash" = handler.envSecretHash.elim .null .str := by
  unfold validatedBeforeEmitEvent
  cases value.payload.prop "envSecretHash" <;> cases handler.envSecretHash <;> simp

theorem validate_toOption (handler : EventsQueueHandler) (data : Value) :
    (validate handler data).toOption = (handler.eventPayloadSchema data).toOption := by
  unfold validate
  cases handler.eventPayloadSchema data <;> rfl

/-- What does not parse reads as null, which is no event. -/
theorem payloadOf_toOption {handler : EventsQueueHandler} (hschema : RejectsNull handler.eventPayloadSchema)
    (message : Message) : (payloadOf handler message).toOption = message.body.bind fun body =>
      (json.parse body).bind fun parsed => (handler.eventPayloadSchema (ofJson parsed)).toOption := by
  have hnull : (handler.eventPayloadSchema .null).toOption = none := by
    cases hvalue : handler.eventPayloadSchema .null with
    | error error => rfl
    | ok value => exact absurd hvalue (hschema value)
  unfold payloadOf getMessageBody
  cases message.body with
  | none => rfl
  | some body =>
    by_cases hempty : body = ""
    · subst hempty
      rfl
    · have hgiven : (some body).filter (· != "") = some body := by simp [hempty]
      rw [hgiven]
      change (validate handler (data_parser_helper.toObject body)).toOption = _
      rw [validate_toOption, data_parser_helper.toObject, Option.bind_some]
      cases json.parse body with
      | none => exact hnull
      | some parsed => rfl

theorem switch_eq {handler : EventsQueueHandler} (hschema : RejectsNull handler.eventPayloadSchema)
    (schema : QueueSchemasEnum) (message : Message) :
    switch handler schema message = (payloadOf handler message).toOption.bind (asked handler schema) := by
  rw [payloadOf_toOption hschema]
  unfold switch
  cases message.body with
  | none => rfl
  | some body =>
    rw [Option.bind_some]
    change (json.parse body).bind _ = _
    cases json.parse body <;> rfl

/-- What LifecycleService does for a switch. -/
def serverAction (disable : Bool) : ServerAction :=
  if disable then .close else .listen

/-- The features with what the switches of a message set. -/
def Features.set (s : Features) (disableLogin disableAllRoutes : Option Bool) : Features where
  loginDisabled := disableLogin.getD s.loginDisabled
  server := s.server ++ (disableAllRoutes.map serverAction).toList

theorem setLoginDisabled_eq (disable : Value) (s : Features) :
    setLoginDisabled [disable] s = s.set (boolean? disable) none := by
  cases disable <;> simp [setLoginDisabled, Features.set, boolean?]

theorem breakCircuit_eq (disable : Value) (s : Features) :
    breakCircuit [disable] s = s.set none (boolean? disable) := by
  cases disable <;> simp [breakCircuit, Features.set, serverAction, boolean?]

theorem set_none (s : Features) : s.set none none = s := by
  simp [Features.set]

/-- The call for a value switches what the value asks for. -/
theorem effect_callFor (handler : EventsQueueHandler) (value : EventPayloadInterface) (s : Features) :
    effect affect (callFor handler value) s =
      s.set (asked handler .disableLogin value) (asked handler .disableAllRoutes value) := by
  unfold callFor asked
  cases value.schema with
  | domainEvent =>
    by_cases hevent : value.event = NEW_HOOK
    · rw [if_pos hevent]
      exact (set_none s).symm
    · rw [if_neg hevent]
      exact (set_none s).symm
  | broadcast => exact (set_none s).symm
  | newConnection => exact (set_none s).symm
  | disableLogin =>
    cases validatedBeforeEmitEvent handler value with
    | false => exact (set_none s).symm
    | true => exact setLoginDisabled_eq _ s
  | disableAllRoutes =>
    cases validatedBeforeEmitEvent handler value with
    | false => exact (set_none s).symm
    | true => exact breakCircuit_eq _ s

/-- A message switches what it asks for, whatever fails meanwhile. -/
theorem runFrom_arrival {handler : EventsQueueHandler} (hschema : RejectsNull handler.eventPayloadSchema)
    (arrival : Arrival) (s : Features) : (Program.runFrom arrival.exec 0 (execute handler arrival.message) s).2 =
      s.set (switch handler .disableLogin arrival.message) (switch handler .disableAllRoutes arrival.message) := by
  have hworld : ∀ n call s, (arrival.exec n call s).2 = affect call s := fun _ _ _ => rfl
  rw [runFrom_execute hworld handler arrival.message s fun _ => rfl, switch_eq hschema, switch_eq hschema]
  unfold callOf
  cases payloadOf handler arrival.message with
  | error failure => exact (set_none s).symm
  | ok value => exact effect_callFor handler value s

/-- Only authenticated messages switch features: login is as the last one of its schema
asked for, and the HTTP server is closed or started again once for each of the other's,
whatever else arrives and whatever fails meanwhile. -/
theorem handled_eq {handler : EventsQueueHandler} (hschema : RejectsNull handler.eventPayloadSchema)
    (arrivals : List Arrival) :
    (handled handler arrivals).loginDisabled =
      ((arrivals.filterMap fun arrival => switch handler .disableLogin arrival.message).getLast?.getD false) ∧
    (handled handler arrivals).server =
      (arrivals.filterMap fun arrival => switch handler .disableAllRoutes arrival.message).map serverAction := by
  induction arrivals using List.reverseRecOn with
  | nil => exact ⟨rfl, rfl⟩
  | append_singleton arrivals arrival ih =>
    obtain ⟨hlogin, hserver⟩ := ih
    have hstep : handled handler (arrivals ++ [arrival]) = (handled handler arrivals).set
        (switch handler .disableLogin arrival.message) (switch handler .disableAllRoutes arrival.message) := by
      unfold handled
      rw [List.foldl_concat, runFrom_arrival hschema]
    rw [hstep, List.filterMap_append, List.filterMap_append, List.map_append]
    constructor
    · change (switch handler .disableLogin arrival.message).getD (handled handler arrivals).loginDisabled = _
      rw [hlogin]
      cases hswitch : switch handler .disableLogin arrival.message with
      | none => simp [hswitch]
      | some disable => simp [hswitch]
    · change (handled handler arrivals).server ++ _ = _
      rw [hserver]
      cases hswitch : switch handler .disableAllRoutes arrival.message with
      | none => simp [hswitch]
      | some disable => simp [hswitch]

/-- The body of a message that asks for login to be disabled. -/
def switchingBody (hash : String) : json.Value :=
  .obj [("schema", .str "DISABLE_LOGIN"),
    ("payload", .obj [("event", .str "DISABLE"), ("disable", .bool true), ("envSecretHash", .str hash)])]

/-- The calls of its handling all fail. -/
def switching (hash : String) : Arrival where
  message :=
    { messageId := some "1"
      receiptHandle := some "r"
      body := some (switchingBody hash).stringify
      objectId := "66f000000000000000000001" }
  reply := fun _ _ => .error (.plain { message := "socket hang up" })

theorem switch_switching (schema : QueueSchemasEnum) (hash : String) :
    switch validatingHandler schema (switching hash).message =
      if schema = .disableLogin ∧ hash = "hash" then some true else none := by
  have hproper : (switchingBody hash).Proper := by
    simp [switchingBody, json.Value.proper_obj_iff, json.Value.Proper.str, json.Value.Proper.bool]
  have hparse : json.parse (switchingBody hash).stringify = some (switchingBody hash) :=
    json.parse_stringify _ hproper.keysOnce
  have hswitch : switch validatingHandler schema (switching hash).message =
      asked validatingHandler schema
        ⟨ofJson (switchingBody hash), .disableLogin, (ofJson (switchingBody hash)).prop "payload", "DISABLE"⟩ := by
    simp only [switch, switching, Option.bind_eq_bind, Option.bind_some, hparse]
    rfl
  have hhash : ((ofJson (switchingBody hash)).prop "payload").prop "envSecretHash" = .str hash := rfl
  have hdisable : ((ofJson (switchingBody hash)).prop "payload").prop "disable" = .bool true := rfl
  rw [hswitch]
  cases schema <;> simp [asked, validatedBeforeEmitEvent_iff, boolean?, validatingHandler, hhash, hdisable]

theorem handled_switching :
    (handled validatingHandler [switching "hash", switching "forged"]).loginDisabled = true ∧
      (handled validatingHandler [switching "hash", switching "forged"]).server = [] := by
  obtain ⟨hlogin, hserver⟩ :=
    handled_eq validatingHandler_rejectsNull [switching "hash", switching "forged"]
  rw [hlogin, hserver]
  simp [switch_switching]

end node_backend.feature_flags
