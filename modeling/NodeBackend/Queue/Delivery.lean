import NodeBackend.Queue.AbstractQueueConsumer

namespace node_backend.abstract_queue_consumer

open js program
open node_backend.exceptions node_backend.events_queue_handler

/-- Any reply is possible. -/
abbrev anyReply : Step Call Call.Reply Failure (List Record) :=
  record fun _ _ => True

/-- A request to delete a message from the queue. -/
def Deletes (entry : Record) : Prop :=
  ∃ queueUrl receiptHandle, entry.call = .deleteMessage queueUrl receiptHandle

/-- A document that was stored. -/
def Inserts (document : Message) (entry : Record) : Prop :=
  ∃ insertedId, entry = ⟨.insertOne document, .ok insertedId⟩

/-- A request to delete a message that threw. -/
def FailsToDelete (entry : Record) : Prop :=
  ∃ queueUrl receiptHandle error, entry = ⟨.deleteMessage queueUrl receiptHandle, .error error⟩

/-- The calls that a handled event makes. -/
def Served : Call → Prop
  | .pullHook _ _ => True
  | .send _ _ => True
  | _ => False

variable (consumer : AbstractQueueConsumer) (disabled : Bool) (message : Message)

/-- handleBySchema has completed without throwing in a delivery with these calls. They
begin with those of handleBySchema, unless the consumer is disabled or the message
carries no valid payload. -/
def Handled (history : List Record) : Prop :=
  disabled = false ∧ ∃ payload made, payloadOf consumer.messageHandler message = .ok payload ∧ made <+: history ∧
    Leads (handleBySchema consumer.messageHandler payload) made (.done ())

/-- It has not, and will not. -/
def Unhandled (history : List Record) : Prop :=
  ∀ more, ¬ Handled consumer disabled message (history ++ more)

variable {consumer disabled message}

theorem Handled.append {history : List Record} (h : Handled consumer disabled message history) (more : List Record) :
    Handled consumer disabled message (history ++ more) := by
  obtain ⟨hdisabled, payload, made, hpayload, hinitial, hleads⟩ := h
  exact ⟨hdisabled, payload, made, hpayload, hinitial.trans (List.prefix_append history more), hleads⟩

theorem Unhandled.append {history : List Record} (h : Unhandled consumer disabled message history)
    (more : List Record) : Unhandled consumer disabled message (history ++ more) := by
  intro later
  rw [List.append_assoc]
  exact h (more ++ later)

theorem only_sendValidated (handler : EventsQueueHandler) (event : EmitterEventsEnum) (value : EventPayloadInterface) :
    (sendValidated handler event value).Only Served := by
  unfold sendValidated
  split
  · exact (Program.only_perform trivial).bind fun _ => trivial
  · exact trivial

theorem only_handleBySchema (handler : EventsQueueHandler) (value : EventPayloadInterface) :
    (handleBySchema handler value).Only Served := by
  unfold handleBySchema
  split
  · unfold handleByDomainEvent
    split
    · exact Program.only_perform trivial
    · exact trivial
  · exact (Program.only_perform trivial).bind fun _ => trivial
  · exact (Program.only_perform trivial).bind fun _ => trivial
  · exact only_sendValidated handler .disableAllRoutes value
  · exact only_sendValidated handler .disableLogin value

/-- Calls that neither delete nor store anything. -/
def Quiet (history : List Record) : Prop :=
  ∀ entry ∈ history, Served entry.call

theorem not_deletes_of_served {entry : Record} (h : Served entry.call) : ¬ Deletes entry := by
  rintro ⟨queueUrl, receiptHandle, hcall⟩
  rw [hcall] at h
  exact h

theorem not_inserts_of_served {entry : Record} (h : Served entry.call) (document : Message) :
    ¬ Inserts document entry := by
  rintro ⟨insertedId, rfl⟩
  exact h

/-- The first part of a delivery decides whether the message is handled. -/
theorem process_ensures :
    (process consumer.messageHandler message).Ensures anyReply []
      (fun _ history => Quiet history ∧ Handled consumer false message history)
      fun _ history => Quiet history ∧ Unhandled consumer false message history := by
  unfold process
  cases hpayload : payloadOf consumer.messageHandler message with
  | error e =>
    refine ⟨by simp [Quiet], ?_⟩
    rintro more ⟨_, payload, _, hok, _⟩
    cases hpayload.symm.trans hok
  | ok payload =>
    rw [Program.ofExcept_ok, Program.done_bind]
    refine Program.Ensures.bind ((Program.ensures_leads
      (only_handleBySchema consumer.messageHandler payload) []).mono (fun _ _ h => h) ?_) ?_
    · rintro e history ⟨_, rfl, hleads, hkind⟩
      refine ⟨hkind, ?_⟩
      rintro more ⟨_, payload', made, hok, hinitial, hleads'⟩
      cases hpayload.symm.trans hok
      cases hleads.ended_unique trivial hleads' trivial ⟨history ++ more, List.prefix_append _ _, hinitial⟩
    · rintro ⟨⟩ history ⟨_, rfl, hleads, hkind⟩
      exact ⟨hkind, rfl, payload, history, hpayload, List.prefix_rfl, hleads⟩

theorem perform_ensures (call : Call) (history : List Record) {returned : call.Reply → List Record → Prop}
    {thrown : Failure → List Record → Prop}
    (hok : ∀ value, returned value (history ++ [⟨call, .ok value⟩]))
    (herror : ∀ error, thrown error (history ++ [⟨call, .error error⟩])) :
    (perform call).Ensures anyReply history returned thrown := by
  apply Program.ensures_perform
  · intro reply _ h
    obtain ⟨_, rfl⟩ := h
    exact hok reply
  · rintro error _ ⟨_, rfl⟩
    exact herror error

theorem deleteMessage_ensures (history : List Record) {returned thrown : List Record → Prop}
    (hok : ∀ statusCode, returned
      (history ++ [⟨.deleteMessage consumer.queueUrl (message.receiptHandle.getD "undefined"), .ok statusCode⟩]))
    (herror : ∀ error, thrown
      (history ++ [⟨.deleteMessage consumer.queueUrl (message.receiptHandle.getD "undefined"), .error error⟩])) :
    (deleteMessage consumer message).Ensures anyReply history (fun _ => returned) fun _ => thrown := by
  unfold deleteMessage sqsDeleteMessage
  refine Program.Ensures.bind (R := fun _ => returned) (Program.Ensures.tryCatch (R := fun _ => thrown) ?_ ?_) ?_
  · exact Program.Ensures.bind (perform_ensures _ history hok herror) fun _ _ h => h
  · exact fun _ _ h => h
  · exact fun _ _ h => h

variable (consumer disabled message)

/-- What holds of the calls of a delivery at any time: a message is deleted once it has
been handled or stored, nothing but the message is stored, and one that is handled or
was stored before is stored only if its deletion threw before. -/
structure Kept (history : List Record) : Prop where
  deletion : Stepwise (fun before entry => Deletes entry →
    entry.call = .deleteMessage consumer.queueUrl (message.receiptHandle.getD "undefined") ∧
      (Handled consumer disabled message before ∨ ∃ stored ∈ before, Inserts message stored)) history
  own : ∀ entry ∈ history, ∀ document, Inserts document entry → document = message
  storing : Stepwise (fun before entry => Inserts message entry →
    (Handled consumer disabled message history ∨ ∃ stored ∈ before, Inserts message stored) →
      ∃ failed ∈ before, FailsToDelete failed) history

variable {consumer disabled message}

theorem Kept.of_quiet {history : List Record} (h : Quiet history) : Kept consumer disabled message history where
  deletion := .of_forall fun entry hentry _ hdeletes => absurd hdeletes (not_deletes_of_served (h entry hentry))
  own := fun entry hentry document hinserts => absurd hinserts (not_inserts_of_served (h entry hentry) document)
  storing := .of_forall fun entry hentry _ hinserts =>
    absurd hinserts (not_inserts_of_served (h entry hentry) message)

/-- Handled or not, for good. -/
def Decided (consumer : AbstractQueueConsumer) (disabled : Bool) (message : Message) (history : List Record) : Prop :=
  Handled consumer disabled message history ∨ Unhandled consumer disabled message history

theorem Decided.append {history : List Record} (h : Decided consumer disabled message history) (more : List Record) :
    Decided consumer disabled message (history ++ more) :=
  h.imp (fun h => h.append more) fun h => h.append more

theorem Decided.handled {history more : List Record} (h : Decided consumer disabled message history)
    (hmore : Handled consumer disabled message (history ++ more)) : Handled consumer disabled message history := by
  obtain hhandled | hunhandled := h
  · exact hhandled
  · exact absurd hmore (hunhandled more)

/-- One more call, once it is decided whether the message is handled. -/
theorem Kept.snoc {history : List Record} {entry : Record} (h : Kept consumer disabled message history)
    (hdecided : Decided consumer disabled message history)
    (hdeletion : Deletes entry →
      entry.call = .deleteMessage consumer.queueUrl (message.receiptHandle.getD "undefined") ∧
        (Handled consumer disabled message history ∨ ∃ stored ∈ history, Inserts message stored))
    (hown : ∀ document, Inserts document entry → document = message)
    (hstoring : Inserts message entry →
      (Handled consumer disabled message history ∨ ∃ stored ∈ history, Inserts message stored) →
        ∃ failed ∈ history, FailsToDelete failed) : Kept consumer disabled message (history ++ [entry]) where
  deletion := stepwise_snoc.mpr ⟨h.deletion, hdeletion⟩
  own := by
    intro other hother
    obtain hold | hnew := List.mem_append.mp hother
    · exact h.own other hold
    · rw [List.mem_singleton.mp hnew]
      exact hown
  storing := by
    refine stepwise_snoc.mpr ⟨fun before other after heq hinserts hwhy => ?_, fun hinserts hwhy => ?_⟩
    · exact h.storing before other after heq hinserts (hwhy.imp_left hdecided.handled)
    · exact hstoring hinserts (hwhy.imp_left hdecided.handled)

theorem Kept.deletes {history : List Record} (h : Kept consumer disabled message history)
    (hdecided : Decided consumer disabled message history)
    (hwhy : Handled consumer disabled message history ∨ ∃ stored ∈ history, Inserts message stored)
    (reply : Except Failure (Option Nat)) : Kept consumer disabled message
      (history ++ [⟨.deleteMessage consumer.queueUrl (message.receiptHandle.getD "undefined"), reply⟩]) := by
  refine h.snoc hdecided (fun _ => ⟨rfl, hwhy⟩) ?_ ?_
  · rintro document ⟨_, hentry⟩
    cases hentry
  · rintro ⟨_, hentry⟩
    cases hentry

theorem Kept.stores {history : List Record} (h : Kept consumer disabled message history)
    (hdecided : Decided consumer disabled message history)
    (hwhy : Handled consumer disabled message history ∨ (∃ stored ∈ history, Inserts message stored) →
      ∃ failed ∈ history, FailsToDelete failed) (reply : Except Failure (Option String)) :
    Kept consumer disabled message (history ++ [⟨.insertOne message, reply⟩]) := by
  refine h.snoc hdecided ?_ ?_ fun _ => hwhy
  · rintro ⟨_, _, hcall⟩
    cases hcall
  · rintro document ⟨_, hentry⟩
    cases hentry
    rfl

theorem Kept.captures {history : List Record} (h : Kept consumer disabled message history)
    (hdecided : Decided consumer disabled message history) (error : Failure) (reply : Except Failure Unit) :
    Kept consumer disabled message (history ++
      [⟨.captureException error consumer.consumerName consumer.queueUrl message.body message.messageId, reply⟩]) := by
  apply h.snoc hdecided
  · rintro ⟨_, _, hcall⟩
    cases hcall
  · rintro document ⟨_, hentry⟩
    cases hentry
  · rintro ⟨_, hentry⟩
    cases hentry

/-- `execute` answers true only for a message that was handled or stored. -/
theorem execute_ensures :
    (execute consumer.messageHandler message).Ensures anyReply []
      (fun done history => Kept consumer false message history ∧ Decided consumer false message history ∧
        (done = true → Handled consumer false message history ∨ ∃ stored ∈ history, Inserts message stored))
      fun _ _ => False := by
  unfold execute
  refine Program.Ensures.tryCatch (process_ensures.mono ?_ fun _ _ h => h) ?_
  · exact fun _ history h => ⟨.of_quiet h.1, Or.inl h.2, fun _ => Or.inl h.2⟩
  · rintro _ history ⟨hquiet, hunhandled⟩
    have hkept : Kept consumer false message history := .of_quiet hquiet
    have hfirst : ¬ (Handled consumer false message history ∨ ∃ stored ∈ history, Inserts message stored) := by
      rintro (hhandled | ⟨stored, hstored, hinserts⟩)
      · exact hunhandled [] (hhandled.append [])
      · exact not_inserts_of_served (hquiet stored hstored) message hinserts
    have hstores := fun reply => hkept.stores (Or.inr hunhandled) (fun hwhy => absurd hwhy hfirst) reply
    unfold saveUnprocessed
    refine Program.Ensures.tryCatch (R := fun _ history' => ∃ error,
      history' = history ++ [⟨.insertOne message, .error error⟩])
      (Program.Ensures.bind (R := fun _ history' => ∃ insertedId,
        history' = history ++ [⟨.insertOne message, .ok insertedId⟩])
        (perform_ensures _ history (fun insertedId => ⟨insertedId, rfl⟩) fun error => ⟨error, rfl⟩) ?_) ?_
    · rintro _ _ ⟨insertedId, rfl⟩
      refine ⟨hstores _, Or.inr (hunhandled.append _), fun _ => Or.inr ⟨_, ?_, insertedId, rfl⟩⟩
      exact List.mem_append_right _ (List.mem_singleton.mpr rfl)
    · rintro _ _ ⟨error, rfl⟩
      exact ⟨hstores _, Or.inr (hunhandled.append _), fun h => by cases h⟩

/-- handleMessage throws for a message that was not handled, or whose deletion threw. -/
theorem handleMessage_ensures :
    (handleMessage consumer disabled message).Ensures anyReply []
      (fun _ history => Kept consumer disabled message history)
      fun _ history => Kept consumer disabled message history ∧ Decided consumer disabled message history ∧
        (Handled consumer disabled message history ∨ (∃ stored ∈ history, Inserts message stored) →
          ∃ failed ∈ history, FailsToDelete failed) := by
  unfold handleMessage
  cases disabled with
  | true =>
    have hnot : ∀ history, ¬ Handled consumer true message history := by
      rintro history ⟨hdisabled, _⟩
      cases hdisabled
    refine ⟨.of_quiet (by simp [Quiet]), Or.inr fun more => hnot _, ?_⟩
    rintro (hhandled | ⟨stored, hstored, _⟩)
    · exact absurd hhandled (hnot _)
    · cases hstored
  | false =>
    apply Program.Ensures.bind (execute_ensures.mono (fun _ _ h => h) fun _ _ h => h.elim)
    rintro done history ⟨hkept, hdecided, hdone⟩
    cases done with
    | false => exact hkept
    | true =>
      refine deleteMessage_ensures history (fun _ => hkept.deletes hdecided (hdone rfl) _) fun error =>
        ⟨hkept.deletes hdecided (hdone rfl) _, hdecided.append _, fun _ => ?_⟩
      exact ⟨_, List.mem_append_right _ (List.mem_singleton.mpr rfl), _, _, error, rfl⟩

theorem saveUnprocessedMessage_ensures {history : List Record} (hkept : Kept consumer disabled message history)
    (hdecided : Decided consumer disabled message history)
    (hwhy : Handled consumer disabled message history ∨ (∃ stored ∈ history, Inserts message stored) →
      ∃ failed ∈ history, FailsToDelete failed) :
    (saveUnprocessedMessage consumer message).Ensures anyReply history
      (fun _ history' => Kept consumer disabled message history') fun _ history' =>
        Kept consumer disabled message history' ∧ Decided consumer disabled message history' := by
  unfold saveUnprocessedMessage
  refine Program.Ensures.bind (R := fun _ history' => ∃ insertedId,
    history' = history ++ [⟨.insertOne message, .ok insertedId⟩]) (perform_ensures _ history ?_ ?_) ?_
  · exact fun insertedId => ⟨insertedId, rfl⟩
  · exact fun error => ⟨hkept.stores hdecided hwhy _, hdecided.append _⟩
  · intro insertedId _ h
    obtain ⟨stored, rfl⟩ := h
    have hstored := hkept.stores hdecided hwhy (.ok stored)
    split
    · have hreason : Handled consumer disabled message (history ++ [⟨.insertOne message, .ok stored⟩]) ∨
          ∃ entry ∈ history ++ [⟨.insertOne message, .ok stored⟩], Inserts message entry :=
        Or.inr ⟨_, List.mem_append_right _ (List.mem_singleton.mpr rfl), stored, rfl⟩
      exact deleteMessage_ensures _ (fun _ => hstored.deletes (hdecided.append _) hreason _)
        fun _ => ⟨hstored.deletes (hdecided.append _) hreason _, (hdecided.append _).append _⟩
    · exact hstored

/-- The calls of a delivery, at its end. -/
theorem deliver_ensures :
    (deliver consumer disabled message).Ensures anyReply [] (fun _ history => Kept consumer disabled message history)
      fun _ history => Kept consumer disabled message history := by
  unfold deliver
  apply Program.Ensures.tryCatch handleMessage_ensures
  intro error history h
  obtain ⟨hkept, hdecided, hwhy⟩ := h
  unfold handleProcessingError captureException
  refine Program.Ensures.tryCatch (R := fun _ history' => Kept consumer disabled message history' ∧
    Decided consumer disabled message history') (Program.Ensures.bind (R := fun _ history' => history' = history ++
      [⟨.captureException error consumer.consumerName consumer.queueUrl message.body message.messageId, .ok ()⟩])
      (perform_ensures _ history (fun _ => rfl) fun _ => ⟨hkept.captures hdecided error _, hdecided.append _⟩) ?_) ?_
  · rintro _ _ rfl
    apply saveUnprocessedMessage_ensures (hkept.captures hdecided error _) (hdecided.append _)
    intro hagain
    have hbefore : Handled consumer disabled message history ∨ ∃ stored ∈ history, Inserts message stored := by
      obtain hhandled | ⟨stored, hstored, hinserts⟩ := hagain
      · exact Or.inl (hdecided.handled hhandled)
      · obtain hold | hnew := List.mem_append.mp hstored
        · exact Or.inr ⟨stored, hold, hinserts⟩
        · rw [List.mem_singleton.mp hnew] at hinserts
          obtain ⟨_, hentry⟩ := hinserts
          cases hentry
    obtain ⟨failed, hfailed, hfails⟩ := hwhy hbefore
    exact ⟨failed, List.mem_append_left _ hfailed, hfails⟩
  · rintro other history' ⟨hkept', hdecided'⟩
    exact perform_ensures _ history' (fun _ => hkept'.captures hdecided' other _)
      fun _ => hkept'.captures hdecided' other _

theorem Kept.left {history more : List Record} (h : Kept consumer disabled message (history ++ more)) :
    Kept consumer disabled message history where
  deletion := h.deletion.left
  own := fun entry hentry => h.own entry (List.mem_append_left _ hentry)
  storing := fun before entry after heq hinserts hwhy =>
    h.storing before entry (after ++ more) (by simp [heq]) hinserts (hwhy.imp_left fun hhandled => hhandled.append more)

/-- The calls of a delivery, at any time. -/
theorem kept_of_leads {history : List Record} {p : Promise Unit}
    (h : Leads (deliver consumer disabled message) history p) : Kept consumer disabled message history := by
  have hensures := deliver_ensures.leads h fun _ _ _ _ => trivial
  rw [List.nil_append] at hensures
  refine hensures.now (fun call history => ⟨.error (.plain { message := "" }), _, trivial, rfl⟩) ?_
  rintro call history' reply _ ⟨_, rfl⟩ hkept
  exact hkept.left

/-- MongoDB stores no second document under an _id. -/
def Accepted (history : List Record) : Prop :=
  Stepwise (fun before entry => ∀ document, Inserts document entry →
    ∀ earlier ∈ before, ∀ other, Inserts other earlier → other.objectId ≠ document.objectId) history

/-- A message that is handled, or was stored before, is stored only after its deletion
threw. As the driver gives the message its _id with the first attempt, it is stored at
most once. -/
theorem stored_once_of_leads {history : List Record} {p : Promise Unit}
    (h : Leads (deliver consumer disabled message) history p) :
    Stepwise (fun before entry => (∃ document, Inserts document entry) →
      (Handled consumer disabled message history ∨ ∃ stored ∈ before, ∃ document, Inserts document stored) →
        ∃ failed ∈ before, FailsToDelete failed) history ∧
    (Accepted history → Stepwise (fun before entry => (∃ document, Inserts document entry) →
      ∀ earlier ∈ before, ∀ document, ¬ Inserts document earlier) history) := by
  have hkept := kept_of_leads h
  constructor
  · rintro before entry after heq ⟨document, hinserts⟩ hwhy
    cases hkept.own entry (by simp [heq]) document hinserts
    refine hkept.storing before entry after heq hinserts (hwhy.imp_right ?_)
    rintro ⟨stored, hstored, other, hother⟩
    cases hkept.own stored (by simp [heq, hstored]) other hother
    exact ⟨stored, hstored, hother⟩
  · rintro haccepted before entry after heq ⟨document, hinserts⟩ earlier hearlier other hother
    cases hkept.own entry (by simp [heq]) document hinserts
    cases hkept.own earlier (by simp [heq, hearlier]) other hother
    exact haccepted before entry after heq _ hinserts earlier hearlier _ hother rfl

/-- The text of a broadcast, and a schema that takes it for one. -/
def broadcastBody : json.Value :=
  .obj [("schema", .str "BROADCAST"), ("payload", .obj [("event", .str "greeting")])]

def broadcastMessage : Message where
  messageId := some "1"
  receiptHandle := some "r"
  body := some broadcastBody.stringify
  objectId := "66f000000000000000000001"

def broadcastPayload : EventPayloadInterface where
  value := ofJson broadcastBody
  schema := .broadcast
  payload := (ofJson broadcastBody).prop "payload"
  event := "greeting"

def broadcastConsumer : AbstractQueueConsumer where
  messageHandler :=
    { eventPayloadSchema := fun value =>
        match value.prop "schema", (value.prop "payload").prop "event" with
        | .str "BROADCAST", .str event => .ok ⟨value, .broadcast, value.prop "payload", event⟩
        | _, _ => .error ⟨"ValidationError", ["\"schema\" is required"]⟩
      envSecretHash := none }
  consumerName := "EventsQueueConsumer"
  queueUrl := "q"

theorem payloadOf_broadcastMessage :
    payloadOf broadcastConsumer.messageHandler broadcastMessage = .ok broadcastPayload := by
  have hproper : broadcastBody.Proper :=
    .obj (by simp) (by simp [json.Value.proper_obj_iff, json.Value.Proper.str])
  have hbody : broadcastBody.stringify ≠ "" := by decide
  unfold payloadOf getMessageBody data_parser_helper.toObject
  simp only [broadcastMessage, Option.filter_some, bne_iff_ne, ne_eq, hbody, not_false_eq_true, if_true,
    json.parse_stringify broadcastBody hproper.keysOnce]
  rfl

/-- The calls of a delivery that handles the broadcast, throws as it deletes the
message, and stores it then. -/
def storedAfterHandled (error : Failure) : List Record :=
  [⟨.send .broadcast [ofJson broadcastBody], .ok true⟩,
    ⟨.deleteMessage "q" "r", .error error⟩,
    ⟨.captureException (.http (buildException .integration error.asError)) "EventsQueueConsumer" "q"
      (some broadcastBody.stringify) (some "1"), .ok ()⟩,
    ⟨.insertOne broadcastMessage, .ok (some "66f000000000000000000001")⟩]

theorem leads_storedAfterHandled (error : Failure) : ∃ p, Leads
    (deliver broadcastConsumer false broadcastMessage) (storedAfterHandled error) p := by
  unfold deliver handleMessage execute process
  rw [payloadOf_broadcastMessage]
  exact ⟨_, .cons (.cons (.cons (.cons (.nil _))))⟩

theorem stored_once_of_leads_storedAfterHandled :
    Stepwise (fun before entry => (∃ document, Inserts document entry) →
      (Handled broadcastConsumer false broadcastMessage (storedAfterHandled (.plain { message := "socket hang up" })) ∨
        ∃ stored ∈ before, ∃ document, Inserts document stored) → ∃ failed ∈ before, FailsToDelete failed)
      (storedAfterHandled (.plain { message := "socket hang up" })) ∧
    (Accepted (storedAfterHandled (.plain { message := "socket hang up" })) →
      Stepwise (fun before entry => (∃ document, Inserts document entry) →
        ∀ earlier ∈ before, ∀ document, ¬ Inserts document earlier)
        (storedAfterHandled (.plain { message := "socket hang up" }))) := by
  obtain ⟨p, hleads⟩ := leads_storedAfterHandled (.plain { message := "socket hang up" })
  exact stored_once_of_leads hleads

theorem accepted_storedAfterHandled (error : Failure) : Accepted (storedAfterHandled error) := by
  have hnot : ∀ document, ∀ entry ∈ (storedAfterHandled error).take 3, ¬ Inserts document entry := by
    simp [storedAfterHandled, Inserts]
  have hsplit : storedAfterHandled error = (storedAfterHandled error).take 3 ++
      [⟨.insertOne broadcastMessage, .ok (some "66f000000000000000000001")⟩] := rfl
  unfold Accepted
  rw [hsplit]
  refine stepwise_snoc.mpr ⟨.of_forall fun entry hentry _ document hinserts => ?_, ?_⟩
  · exact absurd hinserts (hnot document entry hentry)
  · exact fun _ _ earlier hearlier other hother => absurd hother (hnot other earlier hearlier)

theorem handled_storedAfterHandled (error : Failure) :
    Handled broadcastConsumer false broadcastMessage (storedAfterHandled error) :=
  ⟨rfl, broadcastPayload, _, payloadOf_broadcastMessage, List.prefix_append [_] _, .cons (.nil _)⟩

/-- A message that was handled is stored where its deletion throws. -/
theorem stored_after_handled :
    ¬ ∀ (consumer : AbstractQueueConsumer) (disabled : Bool) (message : Message) (history : List Record)
      (p : Promise Unit), Leads (deliver consumer disabled message) history p → Accepted history →
        Handled consumer disabled message history → ∀ entry ∈ history, ∀ document, ¬ Inserts document entry := by
  intro hclaim
  obtain ⟨p, hleads⟩ := leads_storedAfterHandled (.plain { message := "socket hang up" })
  have hmem : (⟨.insertOne broadcastMessage, .ok (some "66f000000000000000000001")⟩ : Record) ∈
      storedAfterHandled (.plain { message := "socket hang up" }) :=
    List.mem_append_right [_, _, _] (List.mem_singleton.mpr rfl)
  exact hclaim _ _ _ _ p hleads (accepted_storedAfterHandled _) (handled_storedAfterHandled _) _ hmem
    broadcastMessage ⟨_, rfl⟩

end node_backend.abstract_queue_consumer
