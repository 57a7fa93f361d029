import NodeBackend.Program.Simulation
import NodeBackend.Queue.Producer

namespace node_backend.abstract_queue_producer

open js program
open node_backend.exceptions node_backend.events_queue_handler

/-- A computation that hands one message to SQS, before anything else and once. -/
def Sends {A : Type} (p : Promise A) (input : SendMessageCommandInput) : Prop :=
  ∃ next, p = .await (.sendMessage input) next ∧
    ∀ reply, (next reply).Only fun call => ∀ other, call ≠ .sendMessage other

/-- The handler takes a message for one of a schema and a payload. -/
def Handles (handler : EventsQueueHandler) (message : Message) (schema : infra.QueueSchemasEnum)
    (payload : Value) : Prop :=
  ∃ value, payloadOf handler message = .ok value ∧ value.schema = schema ∧ value.payload = payload ∧
    process handler message = handleBySchema handler value >>= fun _ => pure true

/-- A dispatch hands a message to SQS, and whoever receives its body handles the schema
and the payload that were dispatched. -/
def Agree (producer : AbstractQueueProducer) (hashing : String → Option String) (reading : Reading)
    (handler : EventsQueueHandler) (dispatched : EventDispatchInterface) : Prop :=
  ∃ input, Sends (dispatch producer hashing reading dispatched) input ∧
    ∀ message : Message, message.body = some input.MessageBody →
      Handles handler message dispatched.schema (ofJson dispatched.payload.data)

/-- The payload names its event. -/
def NamesEvent (payload : Payload) : Prop :=
  ∃ event, payload.fields.lookup "event" = some (.str event) ∧ event ≠ ""

theorem prop_ofJson_obj (fields : List (String × json.Value)) (key : String) :
    (ofJson (.obj fields)).prop key = ((fields.lookup key).map ofJson).getD .undefined := by
  rw [ofJson, Value.prop, lookup_fieldsOfJson]

/-- An object is written as JSON, unless it has a `toString` of its own. -/
theorem toString_ofJson_obj {fields : List (String × json.Value)} (hproper : (json.Value.obj fields).Proper)
    (h : fields.lookup "toString" = none) :
    data_parser_helper.toString false (ofJson (.obj fields)) = .ok (json.Value.obj fields).stringify := by
  rw [data_parser_helper.toString_of_printable false (by rw [unprintable_ofJson_obj, h]; rfl),
    ← data_parser_helper.parseObjectToString_ofJson hproper, ofJson, data_parser_helper.text]

/-- What a handler reads of a body that JSON.stringify wrote. -/
theorem payloadOf_stringify (handler : EventsQueueHandler) {message : Message} {v : json.Value} (hproper : v.Proper)
    (hbody : message.body = some v.stringify) : payloadOf handler message = validate handler (ofJson v) := by
  have hgiven : message.body.filter (· != "") = some v.stringify := by
    rw [hbody]
    simp [json.stringify_ne_empty hproper.keysOnce]
  unfold payloadOf getMessageBody
  rw [hgiven]
  change validate handler (data_parser_helper.toObject v.stringify) = _
  rw [data_parser_helper.toObject_stringify hproper]

variable {producer : AbstractQueueProducer} {hashing : String → Option String} {reading : Reading}
  {dispatched : EventDispatchInterface}

theorem source_ne (producer : AbstractQueueProducer) :
    producer.producerName ++ (", " ++ producer.applicationName) ≠ "" := by
  intro hempty
  have hlist := congrArg String.toList hempty
  simp at hlist

theorem isFinite_one : (json.Number.ofDecimal false 1 0).isFinite = true := by decide +kernel

theorem body_proper (producer : AbstractQueueProducer) (reading : Reading) (dispatched : EventDispatchInterface) :
    (json.Value.obj (buildMessageBody producer reading dispatched.payload.data dispatched.schema)).Proper := by
  simp [buildMessageBody, json.Value.proper_obj_iff, json.Value.Proper.str, json.Value.proper_num_iff, isFinite_one,
    Payload.data, dispatched.payload.proper]

/-- The body is of the form that eventPayloadSchema describes. -/
theorem body_wellFormed (producer : AbstractQueueProducer) (reading : Reading) {dispatched : EventDispatchInterface}
    (hevent : NamesEvent dispatched.payload) :
    WellFormed (ofJson (.obj (buildMessageBody producer reading dispatched.payload.data dispatched.schema))) := by
  obtain ⟨event, hevent, hne⟩ := hevent
  constructor
  · exact ⟨_, rfl⟩
  · exact ⟨dispatched.schema, rfl⟩
  · exact ⟨_, rfl⟩
  · refine ⟨event, ?_, hne⟩
    change (ofJson (.obj dispatched.payload.fields)).prop "event" = _
    rw [prop_ofJson_obj, hevent]
    rfl
  · exact Or.inr ⟨_, rfl, reading.uuid_ne⟩
  · exact Or.inr ⟨1, by omega, rfl⟩
  · exact Or.inr ⟨_, rfl, source_ne producer⟩
  · exact Or.inr ⟨_, rfl, reading.timestamp_ne⟩

theorem handles_body {handler : EventsQueueHandler} (Kept : Value → Prop)
    (hschema : Accepts handler.eventPayloadSchema Kept) (producer : AbstractQueueProducer) (reading : Reading)
    {dispatched : EventDispatchInterface} (hevent : NamesEvent dispatched.payload)
    (hkept : Kept (ofJson dispatched.payload.data)) {message : Message}
    (hbody : message.body = some
      (json.Value.obj (buildMessageBody producer reading dispatched.payload.data dispatched.schema)).stringify) :
    Handles handler message dispatched.schema (ofJson dispatched.payload.data) := by
  have hpayloadOf := payloadOf_stringify handler (body_proper producer reading dispatched) hbody
  obtain ⟨value, hvalue, hvalueSchema, hvaluePayload⟩ :=
    hschema _ (body_wellFormed producer reading hevent) hkept
  have hvalid : payloadOf handler message = .ok value := by
    rw [hpayloadOf, validate, hvalue]
    rfl
  refine ⟨value, hvalid, ?_, hvaluePayload, ?_⟩
  · have htext : Value.str dispatched.schema.text = .str value.schema.text := hvalueSchema
    exact (text_injective (Value.str.inj htext)).symm
  · rw [process, hvalid]
    rfl

theorem sends_sendMessage {params : ISendParams} {input : SendMessageCommandInput}
    (hinput : msgParams params = .ok input)
    (report : Failure → Call) (hreport : ∀ error other, report error ≠ .sendMessage other) :
    Sends ((some <$> sendMessage params).tryCatch fun error => do
      let _ ← perform (report error)
      return none) input := by
  unfold sendMessage
  rw [hinput]
  refine ⟨_, rfl, fun reply => ?_⟩
  refine Program.Only.tryCatch (Program.Only.bind (Program.Only.tryCatch ?_ fun _ => trivial) fun _ => trivial) ?_
  · apply (Program.only_ofExcept reply).bind
    intro messageId
    cases messageId.filter (· != "") <;> trivial
  · intro error
    exact ⟨hreport error, fun reply => (Program.only_ofExcept reply).bind fun _ => trivial⟩

/-- The id of a payload without a `toString` of its own. -/
theorem buildDeduplicationId_eq (hashing : String → Option String) (date : Time) {payload : Payload}
    (hown : payload.fields.lookup "toString" = none) :
    buildDeduplicationId hashing date (ofJson payload.data) = .ok ((hashing payload.data.stringify).getD "null" ++
      ("-" ++ String.ofList (date.toISOString.toList.take 19))) := by
  unfold buildDeduplicationId Payload.data
  rw [toString_ofJson_obj payload.proper hown]
  rfl

theorem buildDeduplicationId_throws (hashing : String → Option String) (date : Time) {payload : Payload}
    (hown : payload.fields.lookup "toString" ≠ none) :
    buildDeduplicationId hashing date (ofJson payload.data) = .error cannotConvertToPrimitive := by
  have hunprintable : (ofJson payload.data).unprintable = true := by
    rw [Payload.data, unprintable_ofJson_obj, Option.isSome_iff_ne_none]
    exact hown
  rw [buildDeduplicationId, data_parser_helper.toString_of_unprintable false hunprintable]
  rfl

theorem sendParams_eq_ok (producer : AbstractQueueProducer) (hashing : String → Option String) (reading : Reading)
    {dispatched : EventDispatchInterface} (hown : dispatched.payload.fields.lookup "toString" = none) :
    ∃ params, sendParams producer hashing reading dispatched = .ok params ∧ params.message =
      ofJson (.obj (buildMessageBody producer reading dispatched.payload.data dispatched.schema)) := by
  unfold sendParams
  rw [buildDeduplicationId_eq hashing reading.date hown]
  exact ⟨_, rfl, rfl⟩

theorem msgParams_eq_ok {params : ISendParams} {fields : List (String × json.Value)}
    (hproper : (json.Value.obj fields).Proper) (hmessage : params.message = ofJson (.obj fields))
    (hown : fields.lookup "toString" = none) :
    ∃ input, msgParams params = .ok input ∧ input.MessageBody = (json.Value.obj fields).stringify := by
  unfold msgParams
  rw [hmessage, toString_ofJson_obj hproper hown]
  exact ⟨_, rfl, rfl⟩

theorem dispatch_sends (producer : AbstractQueueProducer) (hashing : String → Option String) (reading : Reading)
    {dispatched : EventDispatchInterface} (hown : dispatched.payload.fields.lookup "toString" = none) :
    ∃ input, Sends (dispatch producer hashing reading dispatched) input ∧ input.MessageBody =
      (json.Value.obj (buildMessageBody producer reading dispatched.payload.data dispatched.schema)).stringify := by
  obtain ⟨params, hparams, hmessage⟩ := sendParams_eq_ok producer hashing reading hown
  obtain ⟨input, hinput, hbody⟩ := msgParams_eq_ok (body_proper producer reading dispatched) hmessage rfl
  unfold dispatch
  rw [hparams]
  refine ⟨input, sends_sendMessage hinput _ fun error other h => ?_, hbody⟩
  cases h

theorem agree_of_printable {handler : EventsQueueHandler} (Kept : Value → Prop)
    (hschema : Accepts handler.eventPayloadSchema Kept) (hevent : NamesEvent dispatched.payload)
    (hkept : Kept (ofJson dispatched.payload.data)) (hown : dispatched.payload.fields.lookup "toString" = none) :
    Agree producer hashing reading handler dispatched := by
  obtain ⟨input, hsends, hinput⟩ := dispatch_sends producer hashing reading hown
  refine ⟨input, hsends, fun message hbody => ?_⟩
  rw [hinput] at hbody
  exact handles_body Kept hschema producer reading hevent hkept hbody

theorem not_agree_of_unprintable {handler : EventsQueueHandler}
    (hown : dispatched.payload.fields.lookup "toString" ≠ none) :
    ¬ Agree producer hashing reading handler dispatched := by
  intro hagree
  obtain ⟨input, ⟨next, hnext, _⟩, _⟩ := hagree
  unfold dispatch sendParams at hnext
  rw [buildDeduplicationId_throws hashing reading.date hown] at hnext
  cases hnext

/-- Every dispatch of an event whose payload the validator keeps is handled as it was made, unless
the payload has a `toString` of its own: that one throws before a message is built. -/
theorem agree_iff {handler : EventsQueueHandler} (Kept : Value → Prop)
    (hschema : Accepts handler.eventPayloadSchema Kept) (producer : AbstractQueueProducer)
    (hashing : String → Option String) (reading : Reading) {dispatched : EventDispatchInterface}
    (hevent : NamesEvent dispatched.payload) (hkept : Kept (ofJson dispatched.payload.data)) :
    Agree producer hashing reading handler dispatched ↔ dispatched.payload.fields.lookup "toString" = none := by
  constructor
  · intro hagree
    by_contra hown
    exact not_agree_of_unprintable hown hagree
  · exact agree_of_printable Kept hschema hevent hkept

def eventsQueueProducer : AbstractQueueProducer where
  producerName := "EventsQueueProducer"
  applicationName := "Node Boilerplate"
  queueName := "eventsQueue.fifo"
  queueUrl := "http://localhost:4566/000000000000/eventsQueue.fifo"

def someReading : Reading where
  uuid := "9b2d4c1e-0a57-4d3c-8f6b-1e2a3c4d5f60"
  timestamp := "1969-12-31T21:00:00.000-03:00"
  date := Time.epoch
  uuid_ne := by simp
  timestamp_ne := by simp

def greeting : Payload where
  fields := [("event", .str "greeting"), ("to", .arr [.str "everyone", .null])]
  proper := by
    simp [json.Value.proper_obj_iff, json.Value.proper_arr_iff, json.Value.Proper.str, json.Value.Proper.null]

/-- The hash of the greeting, and some text that starts otherwise for any other text. -/
def hash (text : String) : String :=
  if text = greeting.data.stringify then "6df79ecd00994391867d0dfc8d263069e1980dca977fb6bdecfb2b8e635eb3d9"
  else "-" ++ text

theorem agree_greeting :
    Agree eventsQueueProducer (fun text => some (hash text)) someReading validatingHandler
        ⟨greeting, .broadcast, none, none⟩ ↔ greeting.fields.lookup "toString" = none :=
  agree_iff Assignable (validatingHandler_accepts Assignable) eventsQueueProducer (fun text => some (hash text))
    someReading ⟨"greeting", rfl, by simp⟩ rfl

/-- Data with a `toString` of its own. -/
def unprintableGreeting : Payload where
  fields := [("event", .str "greeting"), ("toString", .str "everyone")]
  proper := by simp [json.Value.proper_obj_iff, json.Value.Proper.str]

/-- Nobody is greeted by it. -/
theorem not_agree_unprintable : ¬ ∀ (handler : EventsQueueHandler),
    Accepts handler.eventPayloadSchema (fun _ => True) →
    ∀ (producer : AbstractQueueProducer) (hashing : String → Option String) (reading : Reading)
      (dispatched : EventDispatchInterface), NamesEvent dispatched.payload →
      Agree producer hashing reading handler dispatched := by
  intro h
  have hown : unprintableGreeting.fields.lookup "toString" ≠ none := by decide
  exact not_agree_of_unprintable hown
    (h validatingHandler (validatingHandler_accepts _) eventsQueueProducer (fun text => some (hash text)) someReading
      ⟨unprintableGreeting, .broadcast, none, none⟩ ⟨"greeting", rfl, by simp⟩)

end node_backend.abstract_queue_producer
