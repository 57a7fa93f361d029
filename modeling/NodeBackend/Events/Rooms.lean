import NodeBackend.Events.Disconnection
import NodeBackend.Graphql.Stored
import NodeBackend.Program.History

namespace node_backend.web_socket_server

open js store program
open node_backend.infra node_backend.subscription_entity node_backend.subscription_service
open node_backend.connection_service (Mutation CreateConnectionInputDto UpdateConnectionInputDto)

variable {ids : IdSource} {host : Host} {s t : Infra ids}

/-- The sockets that are connected after an event, of those connected before. -/
def ServerEvent.sockets (sockets : List String) : ServerEvent → List String
  | connection _ socketId => socketId :: sockets
  | disconnect socketId => sockets.filter (· != socketId)
  | _ => sockets

/-- The sockets that a run of events leaves connected. -/
def connected (events : List ServerEvent) : List String :=
  events.foldl ServerEvent.sockets []

/-- A socket is in the room of new connections. -/
def InRoom (s : Infra ids) (socketId : String) : Prop :=
  (WebSocketRoomsEnum.newConnections, socketId) ∈ s.rooms

/-- The stored subscription of a socket listens to new connections. -/
def Listening (subscriptions : Collection ids) (socketId : String) : Prop :=
  ∃ doc, findBySubscriptionId? subscriptions socketId = some doc ∧
    (doc.toValue.prop "listen").prop "newConnections" = .bool true

/-- What keeps the room of a socket as its subscription says: a connection is of a
socket outside the room, a reconnection saves nothing under another identifier, and
no mutation is of a connected socket inside the room. -/
def Permitted (sockets : List String) (s : Infra ids) : ServerEvent → Prop
  | .connection _ socketId => ¬ InRoom s socketId
  | .reconnect _ socketId msg => KeepsOwn socketId msg
  | .createConnection _ dto => dto.subscriptionId ∈ sockets → ¬ InRoom s dto.subscriptionId
  | .updateConnection _ dto => dto.subscriptionId ∈ sockets → ¬ InRoom s dto.subscriptionId
  | .removeConnection subscriptionId => subscriptionId ∈ sockets → ¬ InRoom s subscriptionId
  | _ => True

/-- A store that holds at most one document for each subscription, written for it. -/
structure Orderly (s : Infra ids) : Prop where
  owned : Owned s.subscriptions
  single : ∀ subscriptionId, carrying s.subscriptions subscriptionId ≤ 1

/-- The cache, the rooms and the queue are no part of it. -/
theorem Orderly.congr (h : Orderly s) (hsubscriptions : t.subscriptions = s.subscriptions) : Orderly t where
  owned := by
    rw [hsubscriptions]
    exact h.owned
  single := by
    intro subscriptionId
    rw [hsubscriptions]
    exact h.single subscriptionId

/-- A change of one subscription: it listens afterwards or it does not, and the other
ones listen as before. -/
structure Sets (subscriptionId : String) (listening : Bool) (s t : Infra ids) : Prop where
  orderly : Orderly t
  own : Listening t.subscriptions subscriptionId ↔ listening = true
  others : ∀ other, other ≠ subscriptionId →
    (Listening t.subscriptions other ↔ Listening s.subscriptions other)

theorem listening_congr {subscriptions later : Collection ids} {socketId : String}
    (h : findBySubscriptionId? later socketId = findBySubscriptionId? subscriptions socketId) :
    Listening later socketId ↔ Listening subscriptions socketId := by
  rw [Listening, Listening, h]

theorem listening_iff_of_stored {subscriptions : Collection ids} {socketId id : String} {entity : SubscriptionEntity}
    (h : findBySubscriptionId? subscriptions socketId = some ⟨id, fieldsToBson entity.attributes⟩) :
    Listening subscriptions socketId ↔ entity.newConnectionsListen = true := by
  have hflag : ((⟨id, fieldsToBson entity.attributes⟩ : Document).toValue.prop "listen").prop "newConnections" =
      .bool entity.newConnectionsListen := rfl
  constructor
  · rintro ⟨doc, hfound, hlistens⟩
    cases h.symm.trans hfound
    rw [hflag, Value.bool.injEq] at hlistens
    exact hlistens
  · intro hlistens
    exact ⟨_, h, hflag.trans (congrArg Value.bool hlistens)⟩

/-- The write of a save leaves at most one document for each subscription. -/
theorem single_written {subscriptions : Collection ids} {subscriptionId : String} {entity : SubscriptionEntity}
    (hsingle : ∀ other, carrying subscriptions other ≤ 1) (howned : entity.subscriptionId = .str subscriptionId)
    (other : String) : carrying (written subscriptions subscriptionId entity.attributes).1 other ≤ 1 := by
  have hown := ownFields_of_owned howned
  obtain ⟨hinserted, hupdated⟩ := carries_iff_of_owned howned other
  have hbefore := hsingle other
  rw [written]
  cases hfound : findBySubscriptionId? subscriptions subscriptionId with
  | none =>
    dsimp only
    by_cases hother : subscriptionId = other
    · subst hother
      have hzero := findOne_eq_none_iff.mp hfound
      rw [carrying_insertOne hown]
      omega
    · rw [carrying_insertOne_of_not (mt (hinserted _).mp hother)]
      exact hbefore
  | some doc =>
    dsimp only
    by_cases hother : subscriptionId = other
    · subst hother
      rw [carrying_updateOne hown (known_of_findOne hfound)]
      exact hbefore
    · exact (carrying_updateOne_le doc.id fun old _ => mt (hupdated old).mp hother).trans hbefore

/-- A save sets what its entity says, and returns an entity that says the same. -/
theorem sets_save (h : Orderly s) {clock : Clock} {subscriptionId : String} (own : OwnData host clock subscriptionId) :
    ∃ subscription s', Program.run exec (save host clock subscriptionId own.data) s = (.ok subscription, s') ∧
      subscription.newConnectionsListen = (SubscriptionEntity.new host (clock 0) own.data).newConnectionsListen ∧
      s'.rooms = s.rooms ∧
      Sets subscriptionId (SubscriptionEntity.new host (clock 0) own.data).newConnectionsListen s s' := by
  obtain ⟨id, hsaved⟩ := h.owned.savedAs own
  have howned := h.owned.save own
  have hrun := run_save host clock own.printable subscriptionId s
  dsimp only at hrun
  rw [hsaved.reread, afterReread] at hrun
  rw [hrun] at howned
  have hfields : (⟨id, fieldsToBson (SubscriptionEntity.new host (clock 0) own.data).attributes⟩ : Document).fields =
      fieldsToBson (SubscriptionEntity.new host (clock 0) own.data).attributes := rfl
  have hflag := congrArg SubscriptionEntity.newConnectionsListen (new_stored host (clock 2) hfields)
  refine ⟨_, _, hrun, hflag, rfl, ?_⟩
  refine ⟨⟨howned, single_written h.single own.owned⟩, listening_iff_of_stored hsaved.found, ?_⟩
  intro other hother
  exact listening_congr (hsaved.others other hother)

/-- A deletion leaves no document of its subscription. -/
theorem carrying_removed {subscriptions : Collection ids} {subscriptionId : String}
    (hsingle : carrying subscriptions subscriptionId ≤ 1) :
    carrying (removed subscriptions subscriptionId) subscriptionId = 0 := by
  rw [removed]
  cases hfound : findBySubscriptionId? subscriptions subscriptionId with
  | none => exact findOne_eq_none_iff.mp hfound
  | some doc =>
    obtain ⟨hmem, hcarries⟩ := Collection.mem_of_findOne hfound
    have htaken := carrying_deleteOne hmem hcarries
    dsimp only
    omega

theorem carrying_removed_le (subscriptions : Collection ids) (subscriptionId other : String) :
    carrying (removed subscriptions subscriptionId) other ≤ carrying subscriptions other := by
  rw [removed]
  cases findBySubscriptionId? subscriptions subscriptionId with
  | none => exact Nat.le_refl _
  | some doc => exact carrying_deleteOne_le doc.id

theorem sets_delete (h : Orderly s) (subscriptionId : String) :
    Sets subscriptionId false s (Program.run exec (delete subscriptionId) s).2 := by
  have howned := h.owned.delete subscriptionId
  rw [run_delete] at howned ⊢
  refine ⟨⟨howned, fun other => (carrying_removed_le _ _ other).trans (h.single other)⟩, ?_, ?_⟩
  · have hnone := findOne_eq_none_iff.mpr (carrying_removed (h.single subscriptionId))
    refine ⟨?_, fun hfalse => absurd hfalse Bool.false_ne_true⟩
    rintro ⟨doc, hfound, _⟩
    cases hnone.symm.trans hfound
  · intro other hother
    exact listening_congr (h.owned.find_removed hother)

/-- The room of every connected socket is as its subscription says. -/
structure InStep (sockets : List String) (s : Infra ids) : Prop where
  orderly : Orderly s
  follows : ∀ socketId ∈ sockets, (InRoom s socketId ↔ Listening s.subscriptions socketId)

/-- A change of one subscription keeps the rooms as the subscriptions say if the socket
with its identifier is or is not in the room accordingly, and no other one moves. -/
theorem InStep.sets {sockets later : List String} {socketId : String} {listening : Bool} (h : InStep sockets s)
    (hsets : Sets socketId listening s t) (hroom : socketId ∈ later → (InRoom t socketId ↔ listening = true))
    (hothers : ∀ other, other ≠ socketId → (InRoom t other ↔ InRoom s other))
    (hlater : ∀ other ∈ later, other ≠ socketId → other ∈ sockets) : InStep later t where
  orderly := hsets.orderly
  follows := by
    intro other hother
    by_cases hsame : other = socketId
    · subst hsame
      rw [hroom hother, hsets.own]
    · rw [hothers other hsame, hsets.others other hsame]
      exact h.follows other (hlater other hother hsame)

/-- A change of a subscription whose socket, if connected, stays outside the room. -/
theorem InStep.sets_false {sockets later : List String} {socketId : String} (h : InStep sockets s)
    (hsets : Sets socketId false s t) (hrooms : t.rooms = s.rooms) (hroom : socketId ∈ later → ¬ InRoom s socketId)
    (hlater : ∀ other ∈ later, other ≠ socketId → other ∈ sockets) : InStep later t := by
  have hsame : ∀ other, InRoom t other ↔ InRoom s other := fun other => by rw [InRoom, hrooms, InRoom]
  apply h.sets hsets ?_ (fun other _ => hsame other) hlater
  intro hmem
  rw [hsame]
  exact ⟨fun hin => absurd hin (hroom hmem), fun hfalse => absurd hfalse Bool.false_ne_true⟩

/-- What changes neither the collection nor the rooms. -/
theorem InStep.congr {sockets : List String} (h : InStep sockets s)
    (hsubscriptions : t.subscriptions = s.subscriptions) (hrooms : t.rooms = s.rooms) : InStep sockets t where
  orderly := h.orderly.congr hsubscriptions
  follows := by
    intro socketId hmem
    rw [InRoom, hrooms, hsubscriptions]
    exact h.follows socketId hmem

theorem Sets.congr {subscriptionId : String} {listening : Bool} {u : Infra ids} (h : Sets subscriptionId listening s t)
    (hsubscriptions : u.subscriptions = t.subscriptions) : Sets subscriptionId listening s u where
  orderly := h.orderly.congr hsubscriptions
  own := by
    rw [hsubscriptions]
    exact h.own
  others := by
    rw [hsubscriptions]
    exact h.others

theorem sets_handleConnection (h : Orderly s) (clock : Clock) (socketId : String) :
    Sets socketId false s (Program.run exec (handleConnection host clock socketId) s).2 ∧
      (Program.run exec (handleConnection host clock socketId) s).2.rooms = s.rooms := by
  obtain ⟨subscription, s', hrun, _, hrooms, hsets⟩ := sets_save h (OwnData.ofId host clock socketId)
  have hsave : Program.run exec (save host clock socketId (.obj [("subscriptionId", .str socketId)])) s =
      (.ok subscription, s') := hrun
  rw [handleConnection, saveAndDispatchConnection, Program.run_bind_of_ok exec hsave]
  exact ⟨hsets.congr rfl, hrooms⟩

theorem inRoom_join {socketId other : String} :
    InRoom (exec (.join socketId .newConnections) s).2 other ↔ InRoom s other ∨ other = socketId := by
  rw [exec]
  dsimp only
  by_cases hin : (WebSocketRoomsEnum.newConnections, socketId) ∈ s.rooms
  · rw [if_pos hin]
    exact ⟨Or.inl, fun h => h.elim (fun hother => hother) fun heq => heq ▸ hin⟩
  · rw [if_neg hin, InRoom, List.mem_append, List.mem_singleton, Prod.mk.injEq, InRoom]
    simp

theorem inRoom_leave {socketId other : String} :
    InRoom (exec (.leave socketId .newConnections) s).2 other ↔ InRoom s other ∧ other ≠ socketId := by
  rw [InRoom, exec, List.mem_filter, InRoom]
  simp

/-- What a reconnection saves, where its message names no identifier but that of its socket. -/
def ownReconnection (host : Host) (clock : Clock) {socketId msg : String}
    (hprint : ((formatMessageAfterReceiveHelper msg).prop "_id").unprintable = false)
    (hnames : NamesNoOther socketId (formatMessageAfterReceiveHelper msg)) : OwnData host clock socketId where
  data := reconnectionData socketId (formatMessageAfterReceiveHelper msg)
  proper := reconnectionData_proper (message_proper msg)
  printable := by rwa [prop_reconnectionData (message_proper msg) (by simp)]
  owned := (owned_iff (message_proper msg)).mpr hnames

/-- What a reconnection says of new connections. -/
def listens (host : Host) (clock : Clock) (socketId msg : String) : Bool :=
  (SubscriptionEntity.new host (clock 0)
    (reconnectionData socketId (formatMessageAfterReceiveHelper msg))).newConnectionsListen

/-- A socket that joins or leaves the room as its subscription says. -/
theorem sets_moved {socketId : String} {listening : Bool} (hsets : Sets socketId listening s t)
    (hrooms : t.rooms = s.rooms) {move : Promise Unit}
    (hmove : move = if listening then perform (.join socketId .newConnections)
      else perform (.leave socketId .newConnections)) :
    Sets socketId listening s (Program.run exec move t).2 ∧
      (InRoom (Program.run exec move t).2 socketId ↔ listening = true) ∧
      ∀ other, other ≠ socketId → (InRoom (Program.run exec move t).2 other ↔ InRoom s other) := by
  have hsame : ∀ other, InRoom t other ↔ InRoom s other := fun other => by rw [InRoom, hrooms, InRoom]
  subst hmove
  cases listening with
  | true =>
    have hstays : LeavesCollection (.join socketId .newConnections) := trivial
    rw [if_pos rfl, perform, Program.run_perform]
    refine ⟨hsets.congr (exec_subscriptions hstays t), ?_, fun other hother => ?_⟩
    · rw [inRoom_join]
      simp
    · rw [inRoom_join, hsame]
      simp [hother]
  | false =>
    rw [if_neg Bool.false_ne_true, perform, Program.run_perform]
    refine ⟨hsets.congr rfl, ?_, fun other hother => ?_⟩
    · rw [inRoom_leave]
      simp
    · rw [inRoom_leave, hsame]
      simp [hother]

/-- A reconnection that is saved sets what its data says, and moves its socket accordingly. -/
theorem sets_handleReconnect (h : Orderly s) (clock : Clock) {socketId msg : String}
    (hobject : isObject (formatMessageAfterReceiveHelper msg) = true)
    (hprint : ((formatMessageAfterReceiveHelper msg).prop "_id").unprintable = false)
    (hnames : NamesNoOther socketId (formatMessageAfterReceiveHelper msg)) :
    Sets socketId (listens host clock socketId msg) s
        (Program.run exec (handleReconnect host clock socketId msg) s).2 ∧
      (InRoom (Program.run exec (handleReconnect host clock socketId msg) s).2 socketId ↔
        listens host clock socketId msg = true) ∧
      ∀ other, other ≠ socketId →
        (InRoom (Program.run exec (handleReconnect host clock socketId msg) s).2 other ↔ InRoom s other) := by
  obtain ⟨subscription, s', hrun, hflag, hrooms, hsets⟩ := sets_save h (ownReconnection host clock hprint hnames)
  have hsave : Program.run exec (save host clock socketId
      (reconnectionData socketId (formatMessageAfterReceiveHelper msg))) s = (.ok subscription, s') := hrun
  have hlistens : listens host clock socketId msg = subscription.newConnectionsListen := hflag.symm
  rw [← hflag] at hsets
  rw [hlistens, handleReconnect, updateConnection, if_pos hobject, Program.run_bind_of_ok exec hsave]
  exact sets_moved hsets hrooms rfl

/-- A reconnection that saves nothing changes nothing. -/
theorem handleReconnect_unsaved (clock : Clock) {socketId msg : String}
    (h : isObject (formatMessageAfterReceiveHelper msg) = true →
      ((formatMessageAfterReceiveHelper msg).prop "_id").unprintable = true) :
    (Program.run exec (handleReconnect host clock socketId msg) s).2 = s := by
  rw [handleReconnect, updateConnection]
  cases hobject : isObject (formatMessageAfterReceiveHelper msg) with
  | false => rfl
  | true =>
    have hprint :
        ((reconnectionData socketId (formatMessageAfterReceiveHelper msg)).prop "_id").unprintable = true := by
      rw [prop_reconnectionData (message_proper msg) (by simp)]
      exact h hobject
    rw [if_pos rfl, Program.run_bind_of_error exec (run_save_of_unprintable host clock hprint socketId s)]

/-- What a mutation saves. -/
def ownMutation (host : Host) (clock : Clock) (mutation : Mutation) :
    OwnData host clock mutation.input.subscriptionId where
  data := mutation.data
  proper := by
    obtain ⟨subscriptionId, clientId, listen⟩ | ⟨⟨subscriptionId, clientId, listen⟩, id⟩ := mutation <;>
      cases clientId <;>
      simp [Mutation.data, CreateConnectionInputDto.toValue, UpdateConnectionInputDto.toValue, Value.proper_obj_iff,
        Value.Proper.str, Value.Proper.bool, Value.Proper.null]
  printable := by cases mutation <;> rfl
  owned := by cases mutation <;> rfl

/-- A mutation that saves leaves its subscription without the flag, whatever it asks for. -/
theorem sets_mutation (h : Orderly s) (clock : Clock) (mutation : Mutation) :
    Sets mutation.input.subscriptionId false s (Program.run exec (mutation.program host clock) s).2 ∧
      (Program.run exec (mutation.program host clock) s).2.rooms = s.rooms := by
  obtain ⟨subscription, s', hrun, _, hrooms, hsets⟩ := sets_save h (ownMutation host clock mutation)
  have hprogram : mutation.program host clock =
      save host clock mutation.input.subscriptionId (ownMutation host clock mutation).data := by
    cases mutation <;> rfl
  have hflag : (SubscriptionEntity.new host (clock 0) (ownMutation host clock mutation).data).newConnectionsListen =
      false := by
    cases mutation <;> rfl
  rw [hprogram, hrun]
  rw [hflag] at hsets
  exact ⟨hsets, hrooms⟩

theorem rooms_delete (subscriptionId : String) :
    (Program.run exec (delete subscriptionId) s).2.rooms = s.rooms := by
  rw [run_delete]

/-- A disconnection leaves no subscription of its socket, and the other sockets where they are. -/
theorem sets_handleDisconnect (h : Orderly s) (socketId : String) :
    Sets socketId false s (Program.run exec (handleDisconnect socketId) s).2 ∧
      ∀ other, other ≠ socketId →
        (InRoom (Program.run exec (handleDisconnect socketId) s).2 other ↔ InRoom s other) := by
  have hleave : Program.run exec (Program.perform (.leave socketId .newConnections)) s =
      (.ok (), (exec (.leave socketId .newConnections) s).2) := Program.run_perform exec _ s
  have hleft : Orderly (exec (.leave socketId .newConnections) s).2 := h.congr rfl
  have hdelete := run_delete socketId (exec (.leave socketId .newConnections) s).2
  have hstate : (Program.run exec (handleDisconnect socketId) s).2 =
      (Program.run exec (delete socketId) (exec (.leave socketId .newConnections) s).2).2 := by
    rw [handleDisconnect, perform, Program.run_bind_of_ok exec hleave, deleteConnection,
      Program.run_bind_of_ok exec hdelete, hdelete]
    rfl
  have hsets := sets_delete hleft socketId
  rw [hstate]
  refine ⟨⟨hsets.orderly, hsets.own, hsets.others⟩, fun other hother => ?_⟩
  rw [InRoom, rooms_delete, ← InRoom, inRoom_leave]
  exact and_iff_left hother

theorem rooms_get (clock : Clock) (subscriptionId : String) :
    (Program.run exec (get host clock subscriptionId) s).2.rooms = s.rooms := by
  rw [run_get]
  split
  · rw [cacheAndReturn]
    split <;> rfl
  · rfl

theorem InStep.step {sockets : List String} (h : InStep sockets s) {event : ServerEvent}
    (hpermitted : Permitted sockets s event) : InStep (event.sockets sockets) (event.step host s) := by
  cases event with
  | connection clock socketId =>
    obtain ⟨hsets, hrooms⟩ := sets_handleConnection h.orderly clock socketId
    apply h.sets_false hsets hrooms (fun _ => hpermitted)
    intro other hmem hother
    exact (List.mem_cons.mp hmem).resolve_left hother
  | reconnect clock socketId msg =>
    by_cases hsaved : isObject (formatMessageAfterReceiveHelper msg) = true ∧
        ((formatMessageAfterReceiveHelper msg).prop "_id").unprintable = false
    · obtain ⟨hobject, hprint⟩ := hsaved
      obtain ⟨hsets, hroom, hothers⟩ :=
        sets_handleReconnect h.orderly clock hobject hprint (hpermitted hobject hprint)
      exact h.sets hsets (fun _ => hroom) hothers fun _ hmem _ => hmem
    · change InStep sockets (Program.run exec (handleReconnect host clock socketId msg) s).2
      rw [handleReconnect_unsaved clock fun hobject => by simpa [hobject] using hsaved]
      exact h
  | disconnect socketId =>
    obtain ⟨hsets, hothers⟩ := sets_handleDisconnect h.orderly socketId
    have hgone : ∀ other ∈ sockets.filter (· != socketId), other ∈ sockets ∧ other ≠ socketId := by
      intro other hmem
      simpa using hmem
    apply h.sets hsets ?_ hothers fun other hmem _ => (hgone other hmem).1
    exact fun hmem => absurd rfl (hgone socketId hmem).2
  | createConnection clock dto =>
    obtain ⟨hsets, hrooms⟩ := sets_mutation h.orderly clock (.createConnection dto)
    exact h.sets_false hsets hrooms hpermitted fun _ hmem _ => hmem
  | updateConnection clock dto =>
    obtain ⟨hsets, hrooms⟩ := sets_mutation h.orderly clock (.updateConnection dto)
    exact h.sets_false hsets hrooms hpermitted fun _ hmem _ => hmem
  | removeConnection subscriptionId =>
    exact h.sets_false (sets_delete h.orderly subscriptionId) (rooms_delete subscriptionId) hpermitted
      fun _ hmem _ => hmem
  | findConnection clock subscriptionId =>
    exact h.congr (run_get_subscriptions host clock subscriptionId s) (rooms_get clock subscriptionId)
  | expire key => exact h.congr rfl rfl

theorem inStep_empty : InStep [] (Infra.empty : Infra ids) where
  orderly := ⟨owned_empty, fun _ => Nat.zero_le 1⟩
  follows := by simp

/-- Every run of permitted events keeps the rooms as the subscriptions say. -/
theorem inStep_reached {events : List ServerEvent}
    (hpermitted : Stepwise (fun before => Permitted (connected before) (reached host before : Infra ids)) events) :
    InStep (connected events) (reached host events : Infra ids) := by
  induction events using List.reverseRecOn with
  | nil => exact inStep_empty
  | append_singleton events event ih =>
    obtain ⟨hevents, hevent⟩ := stepwise_snoc.mp hpermitted
    rw [connected, reached, List.foldl_concat, List.foldl_concat, ← connected, ← reached]
    exact (ih hevents).step hevent

/-- In every state of a run of permitted events, a connected socket is in the room of new
connections exactly if its stored subscription listens to them. -/
theorem inRoom_iff_listening (host : Host) (events : List ServerEvent)
    (hpermitted : Stepwise (fun before => Permitted (connected before) (reached host before : Infra ids)) events)
    {before : List ServerEvent} (hbefore : before <+: events) {socketId : String}
    (hconnected : socketId ∈ connected before) : InRoom (reached host before : Infra ids) socketId ↔
      Listening (reached host before : Infra ids).subscriptions socketId := by
  obtain ⟨after, rfl⟩ := hbefore
  exact (inStep_reached hpermitted.left).follows socketId hconnected

/-- A message that asks to listen to new connections. -/
def listeningMessage : json.Value :=
  .obj [("newConnections", .bool true)]

theorem formatMessage_listeningMessage :
    formatMessageAfterReceiveHelper listeningMessage.stringify = ofJson listeningMessage := by
  have hproper : listeningMessage.Proper := .obj (by simp) (by simpa using .bool true)
  exact formatMessage_stringify hproper

/-- A socket connects and asks to listen. -/
def listeningRun : List ServerEvent :=
  [.connection (fun _ => Time.epoch) "a", .reconnect (fun _ => Time.epoch) "a" listeningMessage.stringify]

theorem permitted_listeningRun : Stepwise (fun before => Permitted (connected before)
    (reached Host.utc before : Infra IdSource.counting)) listeningRun := by
  rw [listeningRun, ← List.singleton_append, stepwise_snoc, ← List.nil_append [ServerEvent.connection _ _],
    stepwise_snoc]
  refine ⟨⟨.of_forall (by simp), ?_⟩, ?_⟩
  · simp [Permitted, InRoom, reached, Infra.empty]
  · intro _ _ named hnamed
    rw [formatMessage_listeningMessage] at hnamed
    cases hnamed

theorem inRoom_iff_listening_listeningRun :
    InRoom (reached Host.utc listeningRun : Infra IdSource.counting) "a" ↔
      Listening (reached Host.utc listeningRun : Infra IdSource.counting).subscriptions "a" :=
  inRoom_iff_listening Host.utc listeningRun permitted_listeningRun (List.prefix_refl _)
    (by simp [listeningRun, connected, ServerEvent.sockets])

theorem inRoom_of_listening {events : List ServerEvent} {msg : String}
    (h : Orderly (reached Host.utc events : Infra IdSource.counting))
    (hmsg : formatMessageAfterReceiveHelper msg = ofJson listeningMessage) :
    InRoom (reached Host.utc (events ++ [.reconnect (fun _ => Time.epoch) "a" msg]) : Infra IdSource.counting) "a" := by
  have hobject : isObject (formatMessageAfterReceiveHelper msg) = true := by
    rw [hmsg]
    rfl
  have hprint : ((formatMessageAfterReceiveHelper msg).prop "_id").unprintable = false := by
    rw [hmsg]
    rfl
  have hnames : NamesNoOther "a" (formatMessageAfterReceiveHelper msg) := by
    rw [hmsg]
    intro named hnamed
    cases hnamed
  have hlistens : listens Host.utc (fun _ => Time.epoch) "a" msg = true := by
    rw [listens, hmsg]
    rfl
  rw [reached_reconnect]
  exact (sets_handleReconnect h (fun _ => Time.epoch) hobject hprint hnames).2.1.mpr hlistens

theorem inRoom_listeningRun : InRoom (reached Host.utc listeningRun : Infra IdSource.counting) "a" := by
  have hpermitted := permitted_listeningRun
  rw [listeningRun, ← List.singleton_append] at hpermitted ⊢
  exact inRoom_of_listening (inStep_reached hpermitted.left).orderly formatMessage_listeningMessage

/-- A mutation of the subscription of a socket in the room takes the flag away and leaves the
socket where it is. -/
theorem not_iff_of_mutation (h : Orderly s) (clock : Clock) {mutation : Mutation}
    (hin : InRoom s mutation.input.subscriptionId) :
    ¬ (InRoom (Program.run exec (mutation.program host clock) s).2 mutation.input.subscriptionId ↔
      Listening (Program.run exec (mutation.program host clock) s).2.subscriptions mutation.input.subscriptionId) := by
  obtain ⟨hsets, hrooms⟩ := sets_mutation h clock mutation
  intro hiff
  rw [InRoom, hrooms, ← InRoom, hsets.own] at hiff
  exact Bool.false_ne_true (hiff.mp hin)

theorem not_inRoom_iff_listening : ¬ ∀ (events : List ServerEvent) (socketId : String), socketId ∈ connected events →
    (InRoom (reached Host.utc events : Infra IdSource.counting) socketId ↔
      Listening (reached Host.utc events : Infra IdSource.counting).subscriptions socketId) := by
  intro h
  have hin := inRoom_listeningRun
  have horderly := (inStep_reached permitted_listeningRun).orderly
  have hconnected : "a" ∈ connected (listeningRun ++
      [.updateConnection (fun _ => Time.epoch) ⟨⟨"a", none, true⟩, "0"⟩]) := by
    simp [listeningRun, connected, ServerEvent.sockets]
  have hiff := h _ "a" hconnected
  rw [reached, List.foldl_concat, ← reached] at hiff
  generalize (reached Host.utc listeningRun : Infra IdSource.counting) = s at hin horderly hiff
  have hasked : InRoom s (Mutation.updateConnection ⟨⟨"a", none, true⟩, "0"⟩).input.subscriptionId := hin
  exact not_iff_of_mutation horderly (fun _ => Time.epoch) hasked hiff

end node_backend.web_socket_server
