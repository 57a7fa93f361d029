import NodeBackend.Events.WebSocketServer
import NodeBackend.Graphql.ConnectionService
import NodeBackend.Subscription.Concurrent

namespace node_backend.web_socket_server

open js store program
open node_backend.infra node_backend.subscription_entity node_backend.subscription_service

variable {ids : IdSource}

/-- The subscription identifier that a message names below its top level: under
`dataValues`, or under `listen` where `dataValues` names none. -/
def nestedSubscriptionId (data : Value) : Option Value :=
  ((data.prop "dataValues").spread.lookup "subscriptionId").or ((data.prop "listen").spread.lookup "subscriptionId")

/-- The message names no identifier but that of its socket. A null one counts as
the empty identifier. -/
def NamesNoOther (socketId : String) (data : Value) : Prop :=
  ∀ named, nestedSubscriptionId data = some named → orDefault named (.str "") = .str socketId

theorem lookup_setFields_append {V : Type} (parts updates : List (String × V)) (key : String)
    (hkeys : (updates.map Prod.fst).Nodup) :
    (json.setFields [] (parts ++ updates)).lookup key =
      (updates.lookup key).or ((json.setFields [] parts).lookup key) := by
  rw [json.lookup_setFields, json.lookup_setFields, List.reverse_append, List.lookup_append, json.lookup_reverse hkeys,
    Option.or_assoc]

theorem prop_object (fields : List (String × Value)) (key : String) :
    (Value.obj fields).prop key = (fields.lookup key).getD .undefined := rfl

/-- What the server writes over a message is what is read at the top level, and
everything else stays. -/
theorem lookup_reconnectionData {socketId : String} {data : Value} (hproper : data.Proper) (key : String) :
    (reconnectionData socketId data).spread.lookup key =
      if key = "subscriptionId" then some (.str socketId) else data.spread.lookup key := by
  change (json.setFields [] (data.spread ++ ([("subscriptionId", .str socketId)] ++ []))).lookup key = _
  rw [List.append_nil, lookup_setFields_append _ _ _ (by simp), json.lookup_setFields, List.lookup_nil, Option.or_none,
    json.lookup_reverse hproper.spread_keys]
  by_cases hkey : key = "subscriptionId"
  · subst hkey
    rw [List.lookup_cons_self, if_pos rfl, Option.some_or]
  · rw [json.lookup_cons_of_ne _ _ hkey, if_neg hkey, List.lookup_nil, Option.none_or]

theorem prop_reconnectionData {socketId : String} {data : Value} (hproper : data.Proper) {key : String}
    (hkey : key ≠ "subscriptionId") : (reconnectionData socketId data).prop key = data.prop key := by
  rw [prop_spread, lookup_reconnectionData hproper, if_neg hkey, prop_spread]

theorem reconnectionData_proper {socketId : String} {data : Value} (hproper : data.Proper) :
    (reconnectionData socketId data).Proper := by
  rw [reconnectionData, object, Value.proper_obj_iff]
  refine ⟨json.setFields_nodup _ List.nodup_nil, fun field hfield => ?_⟩
  obtain hnone | hfield := json.mem_setFields hfield
  · cases hnone
  · simp only [List.flatten_cons, List.flatten_nil, List.append_nil, List.mem_append, List.mem_singleton] at hfield
    obtain hfield | rfl := hfield
    · exact spread_proper hproper field hfield
    · exact .str socketId

/-- The identifier in the flattened data of a reconnection. -/
theorem lookup_flattened_reconnectionData {socketId : String} {data : Value} (hproper : data.Proper) :
    (flattened (reconnectionData socketId data)).prop "subscriptionId" =
      (nestedSubscriptionId data).getD (.str socketId) := by
  have hlisten := (prop_proper hproper "listen").spread_keys
  have hvalues := (prop_proper hproper "dataValues").spread_keys
  rw [flattened, object, prop_object, prop_reconnectionData hproper (by simp),
    prop_reconnectionData hproper (by simp), List.flatten_cons, List.flatten_cons, List.flatten_cons,
    List.flatten_nil, List.append_nil, ← List.append_assoc, lookup_setFields_append _ _ _ hvalues,
    lookup_setFields_append _ _ _ hlisten, json.lookup_setFields, List.lookup_nil, Option.or_none,
    json.lookup_reverse (reconnectionData_proper hproper).spread_keys, lookup_reconnectionData hproper, if_pos rfl,
    nestedSubscriptionId, ← Option.or_assoc]
  cases ((data.prop "dataValues").spread.lookup "subscriptionId").or
    ((data.prop "listen").spread.lookup "subscriptionId") <;> rfl

/-- The entity of a reconnection carries the socket's identifier exactly if the
message names no other. -/
theorem owned_iff {host : Host} {now : Time} {socketId : String} {data : Value} (hproper : data.Proper) :
    (SubscriptionEntity.new host now (reconnectionData socketId data)).subscriptionId = .str socketId ↔
      NamesNoOther socketId data := by
  change orDefault ((flattened (reconnectionData socketId data)).prop "subscriptionId") (.str "") = _ ↔ _
  rw [lookup_flattened_reconnectionData hproper, NamesNoOther]
  cases nestedSubscriptionId data with
  | none =>
    refine ⟨fun _ other hnamed => ?_, fun _ => rfl⟩
    cases hnamed
  | some named => exact ⟨fun h other hother => Option.some.inj hother ▸ h, fun h => h named rfl⟩

/-- Every document that appears or changes carries the socket's identifier
afterwards, and every other one stays as it was: what changes or disappears had
that identifier before. -/
structure WritesOwn (socketId : String) (before after : Collection ids) : Prop where
  written : ∀ doc ∈ after.documents,
    doc ∈ before.documents ∨ (Value.obj doc.fields).prop "subscriptionId" = .str socketId
  kept : ∀ doc ∈ before.documents, doc ∈ after.documents ∨ doc.matches "subscriptionId" socketId = true

theorem toBson_eq_str_iff {v : Value} {s : String} : toBson v = .str s ↔ v = .str s := by
  cases v with
  | date time => cases time <;> simp [toBson]
  | _ => simp [toBson]

theorem writes_subscriptionId_iff {fields : List (String × Value)} {subscriptionId : Value} {socketId : String}
    (h : fields.lookup "subscriptionId" = some (toBson subscriptionId)) :
    (Value.obj fields).prop "subscriptionId" = .str socketId ↔ subscriptionId = .str socketId := by
  rw [prop_object, h, Option.getD_some, toBson_eq_str_iff]

/-- An insertion adds a document of the subscription whose identifier it writes. -/
theorem writesOwn_insertOne_iff (subscriptions : Collection ids) (socketId : String) (entity : SubscriptionEntity) :
    WritesOwn socketId subscriptions (subscriptions.insertOne entity.attributes) ↔
      entity.subscriptionId = .str socketId := by
  have hnew : (Value.obj (fieldsToBson entity.attributes)).prop "subscriptionId" = .str socketId ↔ _ :=
    writes_subscriptionId_iff rfl
  constructor
  · intro h
    have hmem : (⟨subscriptions.nextId, fieldsToBson entity.attributes⟩ : Document) ∈
        (subscriptions.insertOne entity.attributes).documents :=
      List.mem_append_right _ (List.mem_singleton.mpr rfl)
    obtain hold | hown := h.written _ hmem
    · exact absurd rfl (subscriptions.id_ne_nextId hold)
    · exact hnew.mp hown
  · intro hown
    refine ⟨fun doc hdoc => ?_, fun doc hdoc => Or.inl (List.mem_append_left _ hdoc)⟩
    obtain hold | hlast := List.mem_append.mp hdoc
    · exact Or.inl hold
    · rw [List.mem_singleton.mp hlast]
      exact Or.inr (hnew.mpr hown)

/-- An update of a document of the subscription writes its identifier again, or
nothing new. -/
theorem writesOwn_updateOne_iff {subscriptions : Collection ids} {socketId : String} {doc : Document}
    (hmem : doc ∈ subscriptions.documents) (hmatches : doc.matches "subscriptionId" socketId = true)
    (entity : SubscriptionEntity) :
    WritesOwn socketId subscriptions (subscriptions.updateOne doc.id entity.attributes) ↔
      entity.subscriptionId = .str socketId ∨ doc.update entity.attributes = doc := by
  have hnew : (Value.obj (doc.update entity.attributes).fields).prop "subscriptionId" = .str socketId ↔ _ :=
    writes_subscriptionId_iff (by rw [Document.update, json.lookup_setFields]; rfl)
  constructor
  · intro h
    have hupdated : doc.update entity.attributes ∈ (subscriptions.updateOne doc.id entity.attributes).documents :=
      Collection.mem_updateOne.mpr ⟨doc, hmem, by rw [if_pos rfl]⟩
    obtain hold | hown := h.written _ hupdated
    · exact Or.inr (List.inj_on_of_nodup_map subscriptions.distinct hold hmem rfl)
    · exact Or.inl (hnew.mp hown)
  · intro h
    refine ⟨fun other hother => ?_, fun other hother => ?_⟩
    · obtain ⟨old, hold, rfl⟩ := Collection.mem_updateOne.mp hother
      by_cases hid : old.id = doc.id
      · obtain rfl := List.inj_on_of_nodup_map subscriptions.distinct hold hmem hid
        rw [if_pos rfl]
        obtain hown | hupdate := h
        · exact Or.inr (hnew.mpr hown)
        · exact Or.inl (hupdate.symm ▸ hold)
      · rw [if_neg hid]
        exact Or.inl hold
    · by_cases hid : other.id = doc.id
      · obtain rfl := List.inj_on_of_nodup_map subscriptions.distinct hother hmem hid
        exact Or.inr hmatches
      · exact Or.inl (Collection.mem_updateOne.mpr ⟨other, hother, by rw [if_neg hid]⟩)

/-- The write of a save changes documents of its own subscription only, exactly
if it writes the identifier of that subscription or nothing new. -/
theorem writesOwn_written_iff (subscriptions : Collection ids) (socketId : String) (entity : SubscriptionEntity) :
    WritesOwn socketId subscriptions (written subscriptions socketId entity.attributes).1 ↔
      entity.subscriptionId = .str socketId ∨
      ∃ doc, findBySubscriptionId? subscriptions socketId = some doc ∧ doc.update entity.attributes = doc := by
  rw [written]
  cases hfound : findBySubscriptionId? subscriptions socketId with
  | none =>
    rw [writesOwn_insertOne_iff]
    simp
  | some doc =>
    obtain ⟨hmem, hmatches⟩ := Collection.mem_of_findOne hfound
    rw [writesOwn_updateOne_iff hmem hmatches]
    simp

theorem writesOwn_refl (socketId : String) (subscriptions : Collection ids) :
    WritesOwn socketId subscriptions subscriptions :=
  ⟨fun _ hdoc => Or.inl hdoc, fun _ hdoc => Or.inl hdoc⟩

/-- What a message is parsed to repeats no key. -/
theorem message_proper (msg : String) : (formatMessageAfterReceiveHelper msg).Proper := by
  rw [formatMessageAfterReceiveHelper, data_parser_helper.toObject]
  cases hparse : json.parse msg with
  | none => exact .null
  | some parsed => exact ofJson_proper (json.parse_keysOnce hparse)

theorem formatMessage_stringify {message : json.Value} (hproper : message.Proper) :
    formatMessageAfterReceiveHelper message.stringify = ofJson message :=
  data_parser_helper.toObject_stringify hproper

/-- A save, and what follows it that leaves the subscriptions alone, leaves them
as the write of the save did. -/
theorem subscriptions_save_bind {host : Host} {clock : Clock} {socketId : String} {data : Value}
    {f : SubscriptionEntity → Promise Unit} (hf : ∀ subscription (s : Infra ids),
      (Program.run exec (f subscription) s).2.subscriptions = s.subscriptions) (s : Infra ids) :
    (Program.run exec (save host clock socketId data >>= f) s).2.subscriptions =
      if (data.prop "_id").unprintable then s.subscriptions
      else (written s.subscriptions socketId (SubscriptionEntity.new host (clock 0) data).attributes).1 := by
  cases hprint : (data.prop "_id").unprintable with
  | true => rw [Program.run_bind_of_error exec (run_save_of_unprintable host clock hprint socketId s), if_pos rfl]
  | false =>
    rw [if_neg Bool.false_ne_true]
    have hsave := run_save host clock hprint socketId s
    dsimp only at hsave
    generalize written s.subscriptions socketId _ = write at hsave ⊢
    cases hread : write.1.get write.2 with
    | none =>
      rw [hread, afterReread] at hsave
      rw [Program.run_bind_of_ok exec hsave, hf]
    | some doc =>
      rw [hread, afterReread] at hsave
      rw [Program.run_bind_of_ok exec hsave, hf]

theorem subscriptions_handleReconnect (host : Host) (clock : Clock) (socketId msg : String) (s : Infra ids) :
    (Program.run exec (handleReconnect host clock socketId msg) s).2.subscriptions =
      if isObject (formatMessageAfterReceiveHelper msg) &&
          !(((formatMessageAfterReceiveHelper msg).prop "_id").unprintable) then
        (written s.subscriptions socketId (SubscriptionEntity.new host (clock 0)
          (reconnectionData socketId (formatMessageAfterReceiveHelper msg))).attributes).1
      else s.subscriptions := by
  rw [handleReconnect, updateConnection]
  cases hobject : isObject (formatMessageAfterReceiveHelper msg) with
  | false => rfl
  | true =>
    have hrooms : ∀ (subscription : SubscriptionEntity) (s : Infra ids),
        (Program.run exec (if subscription.newConnectionsListen then perform (.join socketId .newConnections)
          else perform (.leave socketId .newConnections)) s).2.subscriptions = s.subscriptions := by
      intro subscription s
      cases subscription.newConnectionsListen with
      | true =>
        have hjoin : LeavesCollection (.join socketId .newConnections) := trivial
        exact exec_subscriptions hjoin s
      | false => rfl
    rw [if_pos rfl, subscriptions_save_bind hrooms,
      prop_reconnectionData (message_proper msg) (by simp), Bool.true_and]
    cases ((formatMessageAfterReceiveHelper msg).prop "_id").unprintable <;> rfl

/-- What clients and the passing of time do to the store, one after another. -/
inductive ServerEvent
  | connection (clock : Clock) (socketId : String)
  | reconnect (clock : Clock) (socketId msg : String)
  | disconnect (socketId : String)
  | createConnection (clock : Clock) (dto : connection_service.CreateConnectionInputDto)
  | updateConnection (clock : Clock) (dto : connection_service.UpdateConnectionInputDto)
  | removeConnection (subscriptionId : String)
  | findConnection (clock : Clock) (subscriptionId : String)
  | expire (key : String)

def ServerEvent.step (host : Host) (s : Infra ids) : ServerEvent → Infra ids
  | connection clock socketId => (Program.run exec (handleConnection host clock socketId) s).2
  | reconnect clock socketId msg => (Program.run exec (handleReconnect host clock socketId msg) s).2
  | disconnect socketId => (Program.run exec (handleDisconnect socketId) s).2
  | createConnection clock dto => (Program.run exec (connection_service.create host clock dto) s).2
  | updateConnection clock dto => (Program.run exec (connection_service.update host clock dto) s).2
  | removeConnection subscriptionId => (Program.run exec (connection_service.remove subscriptionId) s).2
  | findConnection clock subscriptionId => (Program.run exec (connection_service.findOne host clock subscriptionId) s).2
  | expire key => s.expire key

/-- The store that a run of events leaves. -/
def reached (host : Host) (events : List ServerEvent) : Infra ids :=
  events.foldl (ServerEvent.step host) Infra.empty

theorem reached_reconnect (host : Host) (events : List ServerEvent) (clock : Clock) (socketId msg : String) :
    (reached host (events ++ [.reconnect clock socketId msg]) : Infra ids) =
      (Program.run exec (handleReconnect host clock socketId msg) (reached host events)).2 := by
  rw [reached, List.foldl_concat, ServerEvent.step, reached]

/-- A reconnection that harms no other subscription: nothing is saved, or the
message names no other identifier, or the document found for the socket already
holds what would be written to it. -/
inductive Harmless (host : Host) (clock : Clock) (socketId : String) (data : Value) (subscriptions : Collection ids) :
    Prop
  | notAnObject (h : isObject data = false)
  | unprintable (h : (data.prop "_id").unprintable = true)
  | namesNoOther (h : NamesNoOther socketId data)
  | alreadyWritten (doc : Document) (hfound : findBySubscriptionId? subscriptions socketId = some doc)
      (hsame : doc.update (SubscriptionEntity.new host (clock 0) (reconnectionData socketId data)).attributes = doc)

/-- One reconnection on any store writes to its own subscription only, exactly
if it is harmless. -/
theorem writesOwn_reconnect_iff (host : Host) (clock : Clock) (socketId msg : String) (s : Infra ids) :
    WritesOwn socketId s.subscriptions (Program.run exec (handleReconnect host clock socketId msg) s).2.subscriptions ↔
      Harmless host clock socketId (formatMessageAfterReceiveHelper msg) s.subscriptions := by
  rw [subscriptions_handleReconnect]
  cases hobject : isObject (formatMessageAfterReceiveHelper msg) with
  | false => exact ⟨fun _ => .notAnObject hobject, fun _ => writesOwn_refl socketId s.subscriptions⟩
  | true =>
    cases hprint : ((formatMessageAfterReceiveHelper msg).prop "_id").unprintable with
    | true => exact ⟨fun _ => .unprintable hprint, fun _ => writesOwn_refl socketId s.subscriptions⟩
    | false =>
      have hown : (SubscriptionEntity.new host (clock 0)
          (reconnectionData socketId (formatMessageAfterReceiveHelper msg))).subscriptionId = .str socketId ↔
          NamesNoOther socketId (formatMessageAfterReceiveHelper msg) := owned_iff (message_proper msg)
      rw [if_pos (by rfl), writesOwn_written_iff]
      constructor
      · rintro (howned | ⟨doc, hfound, hsame⟩)
        · exact .namesNoOther (hown.mp howned)
        · exact .alreadyWritten doc hfound hsame
      · intro h
        cases h with
        | notAnObject h =>
          rw [hobject] at h
          cases h
        | unprintable h =>
          rw [hprint] at h
          cases h
        | namesNoOther h => exact Or.inl (hown.mpr h)
        | alreadyWritten doc hfound hsame => exact Or.inr ⟨doc, hfound, hsame⟩

/-- In every run, the reconnections that write to their own subscription only are
exactly the harmless ones. -/
theorem handleReconnect_writesOwn_iff (host : Host) (events : List ServerEvent) (clock : Clock)
    (socketId msg : String) :
    WritesOwn socketId (reached host events : Infra ids).subscriptions
        (reached host (events ++ [.reconnect clock socketId msg]) : Infra ids).subscriptions ↔
      Harmless host clock socketId (formatMessageAfterReceiveHelper msg)
        (reached host events : Infra ids).subscriptions := by
  rw [reached_reconnect]
  exact writesOwn_reconnect_iff host clock socketId msg _

/-- A message that names another identifier under `dataValues`. -/
def foreignMessage : json.Value :=
  .obj [("dataValues", .obj [("subscriptionId", .str "b")])]

theorem formatMessage_foreignMessage :
    formatMessageAfterReceiveHelper foreignMessage.stringify = ofJson foreignMessage := by
  have hproper : foreignMessage.Proper :=
    .obj (by simp) (by simpa using .obj (by simp) (by simpa using .str "b"))
  exact formatMessage_stringify hproper

/-- The first reconnection of a socket can save a subscription of another one. -/
theorem handleReconnect_writes_foreign :
    ¬ ∀ (events : List ServerEvent) (clock : Clock) (socketId msg : String),
      WritesOwn socketId (reached Host.utc events : Infra IdSource.counting).subscriptions
        (reached Host.utc (events ++ [.reconnect clock socketId msg]) : Infra IdSource.counting).subscriptions := by
  intro h
  have hown := h [] (fun _ => Time.epoch) "a" foreignMessage.stringify
  rw [reached_reconnect, writesOwn_reconnect_iff, formatMessage_foreignMessage] at hown
  cases hown with
  | notAnObject h => cases h
  | unprintable h => cases h
  | namesNoOther h => exact absurd (h (.str "b") rfl) (by simp [orDefault, Value.isNullOrUndefined])
  | alreadyWritten doc hfound _ => cases hfound

end node_backend.web_socket_server
