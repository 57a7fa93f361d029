import NodeBackend.Events.Rooms
import NodeBackend.Queue.Effects
import NodeBackend.Queue.Features

namespace node_backend.web_socket_server

open js store program
open node_backend.exceptions node_backend.infra node_backend.subscription_entity
open node_backend.events_queue_handler
open node_backend.feature_flags (Arrival)

/-- The stores, the sockets that are connected, and every text that a socket was sent
under the event 'emit', the last one last. -/
structure Net (ids : IdSource) where
  infra : Infra ids
  sockets : List String
  received : List (String × String)

variable {ids : IdSource}

def Net.empty : Net ids :=
  ⟨Infra.empty, [], []⟩

/-- A socket is in the room of its own identifier, and in those it has joined. -/
def Net.within (net : Net ids) (room socketId : String) : Bool :=
  room == socketId || net.infra.rooms.any fun entry =>
    events_queue_handler.WebSocketRoomsEnum.text entry.1 == room && entry.2 == socketId

/-- `emit` of the server reaches every socket. -/
def Net.emit (net : Net ids) (text : String) : Net ids :=
  { net with received := net.received ++ net.sockets.map (·, text) }

/-- `emit` to rooms reaches each socket that is in one of them once. No room at all is no
restriction. -/
def Net.emitTo (net : Net ids) (rooms : List String) (text : String) : Net ids :=
  if rooms = [] then net.emit text
  else
    { net with
      received := net.received ++
        (net.sockets.filter fun socketId => rooms.any fun room => net.within room socketId).map (·, text) }

def formatMessageBeforeSendHelper (message : Value) : Except Failure String :=
  (data_parser_helper.toString false message).mapError .typeError

def text? : Value → Option String
  | .str text => some text
  | _ => none

/-- What getSocketIdsOrRooms returns, where that is truthy. -/
def getSocketIdsOrRooms : Value → Option (List String)
  | .str text => if text = "" then none else some [text]
  | .arr items => items.mapM text?
  | _ => none

/-- A listener of the emitter, which may throw. -/
abbrev Listener (ids : IdSource) : Type :=
  List Value → Net ids → Except Failure Unit × Net ids

/-- The argument at a place, which may be missing. -/
def argument (args : List Value) (place : Nat) : Value :=
  (args[place]?).getD .undefined

def broadcastListener : Listener ids := fun args net =>
  match formatMessageBeforeSendHelper (argument args 0) with
  | .error failure => (.error failure, net)
  | .ok text => (.ok (), net.emit text)

def emitPrivateListener : Listener ids := fun args net =>
  match getSocketIdsOrRooms (argument args 0) with
  | none => (.ok (), net)
  | some rooms =>
    match formatMessageBeforeSendHelper (argument args 1) with
    | .error failure => (.error failure, net)
    | .ok text => (.ok (), net.emitTo rooms text)

/-- WebSocketServer.setInternalListenners. The listeners of other components leave the
sockets alone. -/
def internalListeners : List (String × Listener ids) :=
  [(EmitterEventsEnum.broadcast.text, broadcastListener), (EmitterEventsEnum.emitPrivate.text, emitPrivateListener)]

/-- The listeners of an event are called in order, until one throws. -/
def callAll (args : List Value) : List (Listener ids) → Net ids → Except Failure Unit × Net ids
  | [], net => (.ok (), net)
  | listener :: rest, net =>
    match listener args net with
    | (.ok (), net') => callAll args rest net'
    | (.error failure, net') => (.error failure, net')

/-- EventEmitterClient.send. -/
def send (event : EmitterEventsEnum) (args : List Value) (net : Net ids) : Except Failure Bool × Net ids :=
  let called := callAll args ((internalListeners.filter (·.1 == event.text)).map Prod.snd) net
  (called.1.map fun _ => true, called.2)

/-- The calls of a message that is handled: an event of the emitter reaches the listeners,
and other components reply as they do. -/
def handling (arrival : Arrival) (n : Nat) :
    Exec events_queue_handler.Call events_queue_handler.Call.Reply Failure (Net ids)
  | .send event args, net => send event args net
  | call, net => (arrival.reply n call, net)

/-- What clients do, and what the queue delivers. -/
inductive Occurrence
  | server (event : ServerEvent)
  | handle (arrival : Arrival)

def Occurrence.event? : Occurrence → Option ServerEvent
  | server event => some event
  | handle _ => none

variable (host : Host) (handler : EventsQueueHandler)

def Occurrence.step (net : Net ids) : Occurrence → Net ids
  | server event => { net with infra := event.step host net.infra, sockets := event.sockets net.sockets }
  | handle arrival => (Program.runFrom (handling arrival) 0 (execute handler arrival.message) net).2

/-- What a run leaves. -/
def after (occurrences : List Occurrence) : Net ids :=
  occurrences.foldl (Occurrence.step host handler) Net.empty

/-- What clients did in a run. -/
def clientEvents (occurrences : List Occurrence) : List ServerEvent :=
  occurrences.filterMap Occurrence.event?

/-- The texts that a socket was sent, the last one last. -/
def Net.inbox (net : Net ids) (socketId : String) : List String :=
  (net.received.filter fun sent => sent.1 == socketId).map Prod.snd

/-- Who a message is announced to. -/
inductive Audience
  | everyone
  | listeners
  deriving DecidableEq, Repr

def audience : QueueSchemasEnum → Option Audience
  | .broadcast => some .everyone
  | .newConnection => some .listeners
  | _ => none

/-- What a message announces, and to whom: nothing, unless it parses as JSON, satisfies
the schema of events and has a text. -/
def announced (message : Message) : Option (Audience × String) := do
  let body ← message.body
  let parsed ← json.parse body
  let value ← (handler.eventPayloadSchema (ofJson parsed)).toOption
  let audience ← audience value.schema
  let text ← (formatMessageBeforeSendHelper value.value).toOption
  return (audience, text)

/-- Whether the stored subscription of a socket listens to new connections. -/
def listensNow (subscriptions : Collection ids) (socketId : String) : Bool :=
  (subscription_service.findBySubscriptionId? subscriptions socketId).any fun doc =>
    match (doc.toValue.prop "listen").prop "newConnections" with
    | .bool listens => listens
    | _ => false

/-- Whether a socket belongs to an audience. -/
def belongs (sockets : List String) (subscriptions : Collection ids) (socketId : String) : Audience → Bool
  | .everyone => sockets.contains socketId
  | .listeners => sockets.contains socketId && listensNow subscriptions socketId

/-- What a socket is due when something occurs, by what clients did before. -/
def due (ids : IdSource) (socketId : String) (before : List Occurrence) : Occurrence → Option String
  | .server _ => none
  | .handle arrival => do
    let (audience, text) ← announced handler arrival.message
    let s : Infra ids := reached host (clientEvents before)
    if belongs (connected (clientEvents before)) s.subscriptions socketId audience then some text else none

/-- Events that keep the rooms as the subscriptions say. A socket connects with an
identifier that no connected one has, and that is not the name of a room. -/
def Allowed (ids : IdSource) (before : List Occurrence) : Occurrence → Prop
  | .server event =>
    Permitted (connected (clientEvents before)) (reached host (clientEvents before) : Infra ids) event ∧
      ∀ clock socketId, event = .connection clock socketId →
        socketId ∉ connected (clientEvents before) ∧ socketId ≠ WebSocketRoomsEnum.text .newConnections
  | .handle _ => True

variable {host handler}

theorem clientEvents_snoc (occurrences : List Occurrence) (occurrence : Occurrence) :
    clientEvents (occurrences ++ [occurrence]) = clientEvents occurrences ++ occurrence.event?.toList := by
  rw [clientEvents, List.filterMap_append, ← clientEvents]
  cases occurrence <;> rfl

/-- A message reaches the sockets that are meant, once each. -/
theorem inbox_append {net : Net ids} (hnodup : net.sockets.Nodup) (meant : String → Bool) (text socketId : String) :
    Net.inbox { net with received := net.received ++ (net.sockets.filter meant).map (·, text) } socketId =
      net.inbox socketId ++ if net.sockets.contains socketId && meant socketId then [text] else [] := by
  have hone : ((net.sockets.filter meant).map (·, text)).filter (fun sent => sent.1 == socketId) =
      ((net.sockets.filter meant).filter (· == socketId)).map (·, text) := by
    rw [List.filter_map]
    rfl
  rw [Net.inbox, List.filter_append, List.map_append, ← Net.inbox, hone, List.map_map]
  congr 1
  rw [List.filter_beq, (hnodup.filter meant).count]
  simp only [List.mem_filter, List.contains_iff_mem, Bool.and_eq_true]
  split <;> rfl

/-- What is written elsewhere than to the sockets leaves every inbox. -/
theorem inbox_congr {net net' : Net ids} (h : net'.received = net.received) (socketId : String) :
    net'.inbox socketId = net.inbox socketId := by
  rw [Net.inbox, h, Net.inbox]

/-- What a call does to the sockets. -/
def affect (call : events_queue_handler.Call) (net : Net ids) : Net ids :=
  match call with
  | .send event args => (send event args net).2
  | _ => net

/-- A handled message does to the sockets what its call does. -/
theorem step_handle (arrival : Arrival) (net : Net ids) : (Occurrence.handle arrival).step host handler net =
    effect affect (callOf handler arrival.message) net := by
  have hworld : ∀ n call (net : Net ids), (handling arrival n call net).2 = affect call net := by
    intro n call net
    cases call <;> rfl
  exact runFrom_execute hworld handler arrival.message net fun _ => rfl

/-- Both events of the server have one listener. -/
theorem send_eq {event : EmitterEventsEnum} {listener : Listener ids} (args : List Value) (net : Net ids)
    (hlisteners : (internalListeners.filter (·.1 == event.text)).map Prod.snd = [listener]) :
    (send event args net).2 = (listener args net).2 := by
  unfold send
  rw [hlisteners, callAll]
  rcases listener args net with ⟨_ | _, net'⟩ <;> rfl

theorem send_broadcast (msg : Value) (net : Net ids) : (send .broadcast [msg] net).2 =
    (formatMessageBeforeSendHelper msg).toOption.elim net net.emit := by
  rw [send_eq [msg] net (show _ = [broadcastListener] by simp [internalListeners, EmitterEventsEnum.text])]
  unfold broadcastListener
  change (match formatMessageBeforeSendHelper msg with
    | .error failure => (Except.error failure, net)
    | .ok text => (Except.ok (), net.emit text)).2 = _
  cases formatMessageBeforeSendHelper msg <;> rfl

theorem send_emitPrivate (room : WebSocketRoomsEnum) (msg : Value) (net : Net ids) :
    (send .emitPrivate [.str (WebSocketRoomsEnum.text room), msg] net).2 =
      (formatMessageBeforeSendHelper msg).toOption.elim net (net.emitTo [WebSocketRoomsEnum.text room]) := by
  rw [send_eq _ net (show _ = [emitPrivateListener] by simp [internalListeners, EmitterEventsEnum.text])]
  cases room
  unfold emitPrivateListener
  change (match formatMessageBeforeSendHelper msg with
    | .error failure => (Except.error failure, net)
    | .ok text => (Except.ok (), net.emitTo [WebSocketRoomsEnum.text .newConnections] text)).2 = _
  cases formatMessageBeforeSendHelper msg <;> rfl

/-- The switches of features reach no socket. -/
theorem send_other {event : EmitterEventsEnum} (hevent : event = .disableLogin ∨ event = .disableAllRoutes)
    (args : List Value) (net : Net ids) : (send event args net).2 = net := by
  obtain rfl | rfl := hevent <;> rfl

/-- What an announcement writes. -/
def announce (net : Net ids) (announcement : Audience × String) : Net ids :=
  match announcement.1 with
  | .everyone => net.emit announcement.2
  | .listeners => net.emitTo [WebSocketRoomsEnum.text .newConnections] announcement.2

/-- A message announces what it says, and reaches no socket otherwise. -/
theorem effect_announced (hschema : RejectsNull handler.eventPayloadSchema) (message : Message) (net : Net ids) :
    effect affect (callOf handler message) net = (announced handler message).elim net (announce net) := by
  have hannounced : announced handler message = (payloadOf handler message).toOption.bind fun value =>
      (audience value.schema).bind fun audience =>
        (formatMessageBeforeSendHelper value.value).toOption.map fun text => (audience, text) := by
    rw [feature_flags.payloadOf_toOption hschema]
    unfold announced
    cases message.body with
    | none => rfl
    | some body =>
      change (json.parse body).bind _ = ((json.parse body).bind _).bind _
      cases json.parse body with
      | none => rfl
      | some parsed =>
        change (handler.eventPayloadSchema (ofJson parsed)).toOption.bind _ = Option.bind _ _
        congr 1
        funext value
        cases audience value.schema with
        | none => rfl
        | some audience =>
          change (formatMessageBeforeSendHelper value.value).toOption.bind _ = Option.map _ _
          exact Option.map_eq_bind.symm
  rw [hannounced, callOf]
  cases payloadOf handler message with
  | error failure => rfl
  | ok value =>
    change effect affect (callFor handler value) net = ((audience value.schema).bind _).elim net _
    unfold callFor
    cases value.schema with
    | domainEvent =>
      dsimp only
      split <;> rfl
    | broadcast =>
      change (send .broadcast [value.value] net).2 = (Option.map _ _).elim net _
      rw [send_broadcast]
      cases formatMessageBeforeSendHelper value.value <;> rfl
    | newConnection =>
      change (send .emitPrivate [.str (WebSocketRoomsEnum.text .newConnections), value.value] net).2 =
        (Option.map _ _).elim net _
      rw [send_emitPrivate]
      cases formatMessageBeforeSendHelper value.value <;> rfl
    | disableLogin =>
      cases validatedBeforeEmitEvent handler value with
      | true => exact send_other (.inl rfl) _ net
      | false => rfl
    | disableAllRoutes =>
      cases validatedBeforeEmitEvent handler value with
      | true => exact send_other (.inr rfl) _ net
      | false => rfl

/-- What stays true of the sockets in a run of allowed events. -/
structure Tracks (occurrences : List Occurrence) (net : Net ids) (host : Host) : Prop where
  infra : net.infra = reached host (clientEvents occurrences)
  sockets : net.sockets = connected (clientEvents occurrences)
  distinct : net.sockets.Nodup
  named : ∀ socketId ∈ net.sockets, socketId ≠ WebSocketRoomsEnum.text .newConnections
  inStep : InStep net.sockets net.infra

theorem listensNow_iff (subscriptions : Collection ids) (socketId : String) :
    listensNow subscriptions socketId = true ↔ Listening subscriptions socketId := by
  unfold listensNow Listening
  rw [Option.any_eq_true]
  constructor
  · rintro ⟨doc, hfound, hlistens⟩
    refine ⟨doc, hfound, ?_⟩
    cases hflag : (doc.toValue.prop "listen").prop "newConnections" <;> rw [hflag] at hlistens <;> simp_all
  · rintro ⟨doc, hfound, hlistens⟩
    refine ⟨doc, hfound, ?_⟩
    rw [hlistens]

theorem within_iff {net : Net ids} {socketId : String}
    (hnamed : socketId ≠ WebSocketRoomsEnum.text .newConnections) :
    net.within (WebSocketRoomsEnum.text .newConnections) socketId = true ↔ InRoom net.infra socketId := by
  unfold Net.within InRoom
  simp only [Bool.or_eq_true, beq_iff_eq, List.any_eq_true, Bool.and_eq_true]
  constructor
  · rintro (hroom | ⟨⟨room, other⟩, hmem, -, hother⟩)
    · exact absurd hroom.symm hnamed
    · cases room
      exact hother ▸ hmem
  · intro hin
    exact Or.inr ⟨_, hin, trivial, rfl⟩

/-- An announcement reaches the sockets that belong to its audience. -/
theorem Tracks.inbox_announce {occurrences : List Occurrence} {net : Net ids} (h : Tracks occurrences net host)
    (announcement : Audience × String) (socketId : String) :
    (announce net announcement).inbox socketId = net.inbox socketId ++
      if belongs net.sockets net.infra.subscriptions socketId announcement.1 then [announcement.2] else [] := by
  obtain ⟨audience, text⟩ := announcement
  cases audience with
  | everyone =>
    have hall := inbox_append h.distinct (fun _ => true) text socketId
    rw [List.filter_true, Bool.and_true] at hall
    exact hall
  | listeners =>
    have hmeant : ∀ other ∈ net.sockets,
        ([WebSocketRoomsEnum.text .newConnections].any fun room => net.within room other) =
          listensNow net.infra.subscriptions other := by
      intro other hother
      rw [Bool.eq_iff_iff, List.any_cons, List.any_nil, Bool.or_false, within_iff (h.named other hother),
        h.inStep.follows other hother, listensNow_iff]
    have hsome := inbox_append h.distinct (listensNow net.infra.subscriptions) text socketId
    rw [← List.filter_congr hmeant] at hsome
    exact hsome

theorem Tracks.step (hschema : RejectsNull handler.eventPayloadSchema) {occurrences : List Occurrence} {net : Net ids}
    (h : Tracks occurrences net host) {occurrence : Occurrence} (hallowed : Allowed host ids occurrences occurrence) :
    Tracks (occurrences ++ [occurrence]) (occurrence.step host handler net) host := by
  cases occurrence with
  | server event =>
    obtain ⟨hpermitted, hfresh⟩ := hallowed
    rw [← h.infra, ← h.sockets] at hpermitted
    have hevents : clientEvents (occurrences ++ [.server event]) = clientEvents occurrences ++ [event] :=
      clientEvents_snoc occurrences (.server event)
    refine ⟨?_, ?_, ?_, ?_, h.inStep.step hpermitted⟩
    · rw [hevents, reached, List.foldl_concat, ← reached, ← h.infra]
      rfl
    · rw [hevents, connected, List.foldl_concat, ← connected, ← h.sockets]
      rfl
    · cases event with
      | connection clock socketId =>
        have hnew := (hfresh clock socketId rfl).1
        rw [← h.sockets] at hnew
        exact List.nodup_cons.mpr ⟨hnew, h.distinct⟩
      | disconnect socketId => exact h.distinct.filter _
      | _ => exact h.distinct
    · cases event with
      | connection clock socketId =>
        rintro other (_ | ⟨_, hother⟩)
        · exact (hfresh clock socketId rfl).2
        · exact h.named other hother
      | disconnect socketId => exact fun other hother => h.named other (List.mem_filter.mp hother).1
      | _ => exact h.named
  | handle arrival =>
    rw [step_handle, effect_announced hschema]
    have hevents : clientEvents (occurrences ++ [.handle arrival]) = clientEvents occurrences := by
      rw [clientEvents_snoc, Occurrence.event?, Option.toList_none, List.append_nil]
    have hannounce : ∀ announcement, (announce net announcement).infra = net.infra ∧
        (announce net announcement).sockets = net.sockets := by
      rintro ⟨_ | _, text⟩ <;> exact ⟨rfl, rfl⟩
    have hsame : ∀ later : Net ids, later.infra = net.infra ∧ later.sockets = net.sockets →
        Tracks (occurrences ++ [.handle arrival]) later host := by
      rintro later ⟨hinfra, hsockets⟩
      refine ⟨?_, ?_, ?_, ?_, ?_⟩
      · rw [hinfra, hevents, h.infra]
      · rw [hsockets, hevents, h.sockets]
      · rw [hsockets]
        exact h.distinct
      · rw [hsockets]
        exact h.named
      · rw [hinfra, hsockets]
        exact h.inStep
    cases announced handler arrival.message with
    | none => exact hsame net ⟨rfl, rfl⟩
    | some announcement => exact hsame _ (hannounce announcement)

theorem tracks_after (hschema : RejectsNull handler.eventPayloadSchema) {occurrences : List Occurrence}
    (hallowed : Stepwise (Allowed host ids) occurrences) :
    Tracks occurrences (after host handler occurrences : Net ids) host := by
  induction occurrences using List.reverseRecOn with
  | nil => exact ⟨rfl, rfl, List.nodup_nil, by simp [after, Net.empty], inStep_empty⟩
  | append_singleton occurrences occurrence ih =>
    obtain ⟨hbefore, hlast⟩ := stepwise_snoc.mp hallowed
    rw [after, List.foldl_concat, ← after]
    exact (ih hbefore).step hschema hlast

/-- In every run of allowed events and handled messages, a socket is sent what it is due and
nothing else, in order and once each: every broadcast that is handled while it is connected,
and every new connection that is announced while its stored subscription listens to them. -/
theorem inbox_eq (hschema : RejectsNull handler.eventPayloadSchema) (occurrences : List Occurrence)
    (hallowed : Stepwise (Allowed host ids) occurrences) (socketId : String) :
    (after host handler occurrences : Net ids).inbox socketId = yields (due host handler ids socketId) occurrences := by
  induction occurrences using List.reverseRecOn with
  | nil => rfl
  | append_singleton occurrences occurrence ih =>
    have hbefore := (stepwise_snoc.mp hallowed).1
    have htracks : Tracks occurrences (after host handler occurrences : Net ids) host := tracks_after hschema hbefore
    rw [yields_snoc, ← ih hbefore, after, List.foldl_concat, ← after]
    cases occurrence with
    | server event =>
      rw [due, Option.toList_none, List.append_nil]
      exact inbox_congr rfl socketId
    | handle arrival =>
      rw [step_handle, effect_announced hschema, due]
      cases announced handler arrival.message with
      | none => exact (List.append_nil _).symm
      | some announcement =>
        rw [Option.elim_some, htracks.inbox_announce, htracks.infra, htracks.sockets]
        change _ = _ ++ (if _ then some announcement.2 else none).toList
        split <;> rfl

/-- What a connection writes to the queue, as far as the handler of messages reads it. -/
def announcement : json.Value :=
  .obj [("schema", .str "NEW_CONNECTION"),
    ("payload", .obj [("subscriptionId", .str "b"), ("event", .str "NEW_CONNECTION")])]

def announcing : Arrival where
  message :=
    { messageId := some "1"
      receiptHandle := some "r"
      body := some announcement.stringify
      objectId := "66f000000000000000000001" }
  reply := fun _ _ => .error (.plain { message := "socket hang up" })

theorem announced_announcing : announced validatingHandler announcing.message =
    some (.listeners, announcement.stringify) := by
  have hproper : announcement.Proper := by
    simp [announcement, json.Value.proper_obj_iff, json.Value.Proper.str]
  have hparse : json.parse announcement.stringify = some announcement := json.parse_stringify _ hproper.keysOnce
  have htext : formatMessageBeforeSendHelper (ofJson announcement) = .ok announcement.stringify :=
    congrArg Except.ok (data_parser_helper.parseObjectToString_ofJson hproper)
  have hannounced : announced validatingHandler announcing.message =
      (formatMessageBeforeSendHelper (ofJson announcement)).toOption.bind fun text => some (.listeners, text) := by
    simp only [announced, announcing, Option.bind_eq_bind, Option.bind_some, hparse]
    rfl
  rw [hannounced, htext]
  rfl

/-- Two sockets connect. -/
def pair : List ServerEvent :=
  [.connection (fun _ => Time.epoch) "b", .connection (fun _ => Time.epoch) "a"]

/-- One of the two asks to listen. -/
def listeningPair : List ServerEvent :=
  pair ++ [.reconnect (fun _ => Time.epoch) "a" listeningMessage.stringify]

def announcedRun : List Occurrence :=
  listeningPair.map .server ++ [.handle announcing]

theorem clientEvents_server (events : List ServerEvent) : clientEvents (events.map .server) = events := by
  induction events with
  | nil => rfl
  | cons event events ih => exact congrArg (event :: ·) ih

/-- Connections put no socket into a room. -/
theorem rooms_pair : Orderly (reached Host.utc pair : Infra IdSource.counting) ∧
    (reached Host.utc pair : Infra IdSource.counting).rooms = [] ∧
    (reached Host.utc (pair.take 1) : Infra IdSource.counting).rooms = [] := by
  have horderly : Orderly (Infra.empty : Infra IdSource.counting) := inStep_empty.orderly
  obtain ⟨hfirst, hfirstRooms⟩ := @sets_handleConnection _ Host.utc _ horderly (fun _ => Time.epoch) "b"
  obtain ⟨hsecond, hsecondRooms⟩ := @sets_handleConnection _ Host.utc _ hfirst.orderly (fun _ => Time.epoch) "a"
  exact ⟨hsecond.orderly, hsecondRooms.trans hfirstRooms, hfirstRooms⟩

theorem keepsOwn_listeningMessage : KeepsOwn "a" listeningMessage.stringify := by
  intro _ _ named hnamed
  rw [formatMessage_listeningMessage] at hnamed
  cases hnamed

theorem allowed_announcedRun : Stepwise (Allowed Host.utc IdSource.counting) announcedRun := by
  obtain ⟨_, hrooms, hfirstRooms⟩ := rooms_pair
  have hrun : announcedRun = [] ++ [.server (.connection (fun _ => Time.epoch) "b")] ++
      [.server (.connection (fun _ => Time.epoch) "a")] ++
      [.server (.reconnect (fun _ => Time.epoch) "a" listeningMessage.stringify)] ++ [.handle announcing] := rfl
  rw [hrun, stepwise_snoc, stepwise_snoc, stepwise_snoc, stepwise_snoc]
  refine ⟨⟨⟨⟨.of_forall (by simp), ?_⟩, ?_⟩, ?_⟩, trivial⟩
  · refine ⟨by simp [Permitted, InRoom, reached, clientEvents, Infra.empty], ?_⟩
    rintro _ _ ⟨⟩
    simp [connected, clientEvents, WebSocketRoomsEnum.text]
  · refine ⟨?_, ?_⟩
    · change ¬ InRoom (reached Host.utc (pair.take 1) : Infra IdSource.counting) "a"
      rw [InRoom, hfirstRooms]
      exact List.not_mem_nil
    · rintro _ _ ⟨⟩
      simp [connected, clientEvents, Occurrence.event?, ServerEvent.sockets, WebSocketRoomsEnum.text]
  · refine ⟨keepsOwn_listeningMessage, ?_⟩
    rintro _ _ ⟨⟩

/-- Of the two sockets only the one that asked is in the room. -/
theorem inRoom_listeningPair :
    InRoom (reached Host.utc listeningPair : Infra IdSource.counting) "a" ∧
      ¬ InRoom (reached Host.utc listeningPair : Infra IdSource.counting) "b" := by
  obtain ⟨horderly, hrooms, _⟩ := rooms_pair
  refine ⟨inRoom_of_listening horderly formatMessage_listeningMessage, ?_⟩
  have hobject : isObject (formatMessageAfterReceiveHelper listeningMessage.stringify) = true := by
    rw [formatMessage_listeningMessage]
    rfl
  have hprint : ((formatMessageAfterReceiveHelper listeningMessage.stringify).prop "_id").unprintable = false := by
    rw [formatMessage_listeningMessage]
    rfl
  obtain ⟨_, _, hothers⟩ := @sets_handleReconnect _ Host.utc _ horderly (fun _ => Time.epoch) "a" _ hobject hprint
    (keepsOwn_listeningMessage hobject hprint)
  rw [listeningPair, reached_reconnect, hothers "b" (by simp), InRoom, hrooms]
  exact List.not_mem_nil

theorem inbox_eq_announcedRun :
    (after Host.utc validatingHandler announcedRun : Net IdSource.counting).inbox "a" =
        [announcement.stringify] ∧
      (after Host.utc validatingHandler announcedRun : Net IdSource.counting).inbox "b" = [] := by
  have hschema := validatingHandler_rejectsNull
  have hbefore := (stepwise_snoc.mp allowed_announcedRun).1
  have htracks : Tracks (listeningPair.map .server)
      (after Host.utc validatingHandler (listeningPair.map .server) : Net IdSource.counting) Host.utc :=
    tracks_after hschema hbefore
  obtain ⟨ha, hb⟩ := inRoom_listeningPair
  have hfollows := htracks.inStep.follows
  rw [htracks.infra, htracks.sockets, clientEvents_server] at hfollows
  have hfirst : "a" ∈ connected listeningPair := by simp [listeningPair, pair, connected, ServerEvent.sockets]
  have hsecond : "b" ∈ connected listeningPair := by simp [listeningPair, pair, connected, ServerEvent.sockets]
  have hlistens : listensNow (reached Host.utc listeningPair : Infra IdSource.counting).subscriptions "a" = true :=
    (listensNow_iff _ _).mpr ((hfollows "a" hfirst).mp ha)
  have hsilent : listensNow (reached Host.utc listeningPair : Infra IdSource.counting).subscriptions "b" = false := by
    rw [Bool.eq_false_iff, ne_eq, listensNow_iff]
    exact fun hlistening => hb ((hfollows "b" hsecond).mpr hlistening)
  have hquiet : ∀ socketId, yields (due Host.utc validatingHandler IdSource.counting socketId)
      (listeningPair.map .server) = [] := fun socketId => rfl
  constructor
  · rw [inbox_eq hschema announcedRun allowed_announcedRun, announcedRun, yields_snoc, hquiet, due,
      announced_announcing, clientEvents_server]
    simp [belongs, hfirst, hlistens]
  · rw [inbox_eq hschema announcedRun allowed_announcedRun, announcedRun, yields_snoc, hquiet, due,
      announced_announcing, clientEvents_server]
    simp [belongs, hsilent]

end node_backend.web_socket_server
