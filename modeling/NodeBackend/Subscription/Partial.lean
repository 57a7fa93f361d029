import NodeBackend.Subscription.Encoding

namespace node_backend.subscription_service

open js store program
open node_backend.infra node_backend.subscription_entity

variable {ids : IdSource}

/-- A call of the service, whatever its data, or the expiry of a cache entry. -/
inductive Access
  | get (clock : Clock) (subscriptionId : String)
  | save (clock : Clock) (subscriptionId : String) (data : Value)
  | delete (subscriptionId : String)
  | expire (key : String)

def Access.step (host : Host) (s : Infra ids) : Access → Infra ids
  | get clock subscriptionId => (Program.run exec (subscription_service.get host clock subscriptionId) s).2
  | save clock subscriptionId data => (Program.run exec (subscription_service.save host clock subscriptionId data) s).2
  | delete subscriptionId => (Program.run exec (subscription_service.delete subscriptionId) s).2
  | expire key => s.expire key

/-- What calls that run one after another lead to, from empty stores. -/
def afterAccesses (host : Host) (accesses : List Access) : Infra ids :=
  accesses.foldl (Access.step host) Infra.empty

/-- Every document holds the attributes of an entity. -/
def AttributesStored (subscriptions : Collection ids) : Prop :=
  ∀ doc ∈ subscriptions.documents, ∃ entity : SubscriptionEntity, doc.fields = fieldsToBson entity.attributes

theorem afterReread_subscriptions (host : Host) (clock : Clock) (subscriptionId : String) (reread : Option Document)
    (s : Infra ids) : (afterReread host clock subscriptionId reread s).2.subscriptions = s.subscriptions := by
  cases reread <;> rfl

theorem run_save_subscriptions (host : Host) (clock : Clock) {data : Value}
    (hprint : (data.prop "_id").unprintable = false) (subscriptionId : String) (s : Infra ids) :
    (Program.run exec (save host clock subscriptionId data) s).2.subscriptions =
      (written s.subscriptions subscriptionId (SubscriptionEntity.new host (clock 0) data).attributes).1 := by
  rw [run_save host clock hprint]
  exact afterReread_subscriptions host clock subscriptionId _ _

theorem AttributesStored.written {subscriptions : Collection ids} (h : AttributesStored subscriptions)
    (subscriptionId : String) (entity : SubscriptionEntity) :
    AttributesStored (written subscriptions subscriptionId entity.attributes).1 := by
  intro doc hdoc
  unfold subscription_service.written at hdoc
  cases hfound : findBySubscriptionId? subscriptions subscriptionId with
  | none =>
    rw [hfound] at hdoc
    obtain hold | hnew := List.mem_append.mp hdoc
    · exact h doc hold
    · exact ⟨entity, by rw [List.mem_singleton.mp hnew]⟩
  | some found =>
    rw [hfound] at hdoc
    obtain ⟨old, hold, rfl⟩ := Collection.mem_updateOne.mp hdoc
    obtain ⟨other, hother⟩ := h old hold
    split
    · refine ⟨entity, ?_⟩
      rw [Document.update, hother, setFields_attributes]
    · exact ⟨other, hother⟩

theorem AttributesStored.step {s : Infra ids} (h : AttributesStored s.subscriptions) (host : Host) (access : Access) :
    AttributesStored (access.step host s).subscriptions := by
  cases access with
  | get clock subscriptionId =>
    change AttributesStored (Program.run exec (subscription_service.get host clock subscriptionId) s).2.subscriptions
    rw [run_get_subscriptions]
    exact h
  | save clock subscriptionId data =>
    change AttributesStored (Program.run exec (save host clock subscriptionId data) s).2.subscriptions
    cases hprint : (data.prop "_id").unprintable with
    | true =>
      rw [run_save_of_unprintable host clock hprint]
      exact h
    | false =>
      rw [run_save_subscriptions host clock hprint]
      exact h.written subscriptionId _
  | delete subscriptionId =>
    change AttributesStored (Program.run exec (subscription_service.delete subscriptionId) s).2.subscriptions
    rw [run_delete]
    intro doc hdoc
    apply h doc
    change doc ∈ (removed s.subscriptions subscriptionId).documents at hdoc
    unfold removed at hdoc
    split at hdoc
    · exact hdoc
    · exact List.mem_of_mem_filter hdoc
  | expire key => exact h

theorem afterAccesses_stored (host : Host) (accesses : List Access) :
    AttributesStored (afterAccesses host accesses : Infra ids).subscriptions := by
  induction accesses using List.reverseRecOn with
  | nil => simp [AttributesStored, afterAccesses, Infra.empty, Collection.empty]
  | append_singleton accesses access ih =>
    unfold afterAccesses at ih ⊢
    rw [List.foldl_concat]
    exact ih.step host access

/-- The attributes of a subscription that a caller may leave out. -/
inductive SubscriptionAttribute
  | databaseId
  | clientId
  | createdAt
  | newConnections

namespace SubscriptionAttribute

/-- What a document holds for an attribute. -/
def stored (doc : Document) : SubscriptionAttribute → Value
  | databaseId => (Value.obj doc.fields).prop "id"
  | clientId => ((Value.obj doc.fields).prop "dataValues").prop "clientId"
  | createdAt => ((Value.obj doc.fields).prop "dataValues").prop "createdAt"
  | newConnections => ((Value.obj doc.fields).prop "listen").prop "newConnections"

/-- What the constructor takes for an attribute from its argument. -/
def given (data : Value) : SubscriptionAttribute → Value
  | databaseId =>
    ((flattened data).prop "id").coalesce (if (data.prop "_id").truthy then data.prop "_id" else .undefined)
  | clientId => (flattened data).prop "clientId"
  | createdAt => (flattened data).prop "createdAt"
  | newConnections =>
    ((flattened data).prop "newConnections").coalesce (((flattened data).prop "listen").prop "newConnections")

/-- What is written for an attribute that is left out. -/
def default (clock : Clock) : SubscriptionAttribute → Value
  | databaseId => .null
  | clientId => .null
  | createdAt => .date (some (clock 0))
  | newConnections => .bool false

end SubscriptionAttribute

/-- Data mentions an attribute by any value but null and undefined. -/
def Mentions (data : Value) (attr : SubscriptionAttribute) : Prop :=
  (attr.given data).isNullOrUndefined = false

theorem isNullOrUndefined_coalesce {left right : Value} (h : (left.coalesce right).isNullOrUndefined = true) :
    left.isNullOrUndefined = true ∧ right.isNullOrUndefined = true := by
  unfold Value.coalesce at h
  split at h
  · next hleft => exact ⟨hleft, h⟩
  · next hleft => exact absurd h hleft

theorem orDefault_of_nullish {value : Value} (h : value.isNullOrUndefined = true) (default : Value) :
    orDefault value default = default := by
  rw [orDefault, if_pos h]

theorem getDate_of_nullish {value : Value} (h : value.isNullOrUndefined = true) (host : Host) (now : Time) :
    getDate host now value = some now := by
  cases value <;> first | rfl | cases h

theorem truthy_of_nullish {value : Value} (h : value.isNullOrUndefined = true) : value.truthy = false := by
  cases value <;> first | rfl | cases h

/-- An attribute that is left out is written with its default. -/
theorem stored_of_not_mentions (host : Host) (clock : Clock) {data : Value} {attr : SubscriptionAttribute}
    (h : ¬ Mentions data attr) (id : String) :
    attr.stored ⟨id, fieldsToBson (SubscriptionEntity.new host (clock 0) data).attributes⟩ = attr.default clock := by
  have hnullish : (attr.given data).isNullOrUndefined = true := by simpa [Mentions] using h
  cases attr with
  | databaseId =>
    obtain ⟨hid, hregister⟩ := isNullOrUndefined_coalesce hnullish
    have hfalsy : (data.prop "_id").truthy = false := by
      by_contra htruthy
      rw [if_pos (by simpa using htruthy)] at hregister
      exact htruthy (truthy_of_nullish hregister)
    change toBson (orDefault ((flattened data).prop "id")
      (if (data.prop "_id").truthy then .str (stringOf host (data.prop "_id")) else .undefined)) = _
    rw [orDefault_of_nullish hid, hfalsy]
    rfl
  | clientId =>
    change ((flattened data).prop "clientId").isNullOrUndefined = true at hnullish
    change toBson ((orDefault ((flattened data).prop "clientId") .null).coalesce .undefined) = _
    rw [orDefault_of_nullish hnullish]
    rfl
  | createdAt =>
    change ((flattened data).prop "createdAt").isNullOrUndefined = true at hnullish
    change toBson (.date (getDate host (clock 0) ((flattened data).prop "createdAt"))) = _
    rw [getDate_of_nullish hnullish]
    rfl
  | newConnections =>
    have hfalsy := truthy_of_nullish hnullish
    change toBson (.bool (SubscriptionAttribute.given data .newConnections).truthy) = _
    rw [hfalsy]
    rfl

/-- What a document holds for the attributes that data leaves out is what it held before. -/
def KeepsLeftOut (data : Value) (before after : Document) : Prop :=
  ∀ attr : SubscriptionAttribute, ¬ Mentions data attr → attr.stored after = attr.stored before

/-- A save of a stored subscription loses nothing exactly where it writes nothing, or
where what the data leaves out is stored with the defaults of a new entity: without
identifier and client, not listening, and created at the very time of the save. -/
theorem save_keeps_iff (host : Host) (accesses : List Access) (clock : Clock) {subscriptionId : String} {doc : Document}
    (hfound : findBySubscriptionId? (afterAccesses host accesses : Infra ids).subscriptions subscriptionId = some doc)
    (data : Value) :
    (∃ after, (Program.run exec (save host clock subscriptionId data)
        (afterAccesses host accesses : Infra ids)).2.subscriptions.get doc.id = some after ∧
        KeepsLeftOut data doc after) ↔
      (data.prop "_id").unprintable = true ∨
        ∀ attr : SubscriptionAttribute, ¬ Mentions data attr → attr.stored doc = attr.default clock := by
  have hmem := (Collection.mem_of_findOne hfound).1
  cases hprint : (data.prop "_id").unprintable with
  | true =>
    rw [run_save_of_unprintable host clock hprint]
    exact iff_of_true ⟨doc, Collection.get_of_mem hmem, fun _ _ => rfl⟩ (Or.inl rfl)
  | false =>
    obtain ⟨entity, hentity⟩ := afterAccesses_stored host accesses doc hmem
    have hafter : (Program.run exec (save host clock subscriptionId data)
        (afterAccesses host accesses : Infra ids)).2.subscriptions.get doc.id =
          some ⟨doc.id, fieldsToBson (SubscriptionEntity.new host (clock 0) data).attributes⟩ := by
      rw [run_save_subscriptions host clock hprint, written, hfound, Collection.get_updateOne hmem, Document.update,
        hentity, setFields_attributes]
    rw [hafter]
    constructor
    · intro hsaved
      obtain ⟨after, hsome, hkeeps⟩ := hsaved
      cases hsome
      apply Or.inr
      intro attr hattr
      rw [← hkeeps attr hattr, stored_of_not_mentions host clock hattr]
    · intro h
      obtain hfalse | hdefault := h
      · cases hfalse
      · refine ⟨_, rfl, fun attr hattr => ?_⟩
        rw [hdefault attr hattr, stored_of_not_mentions host clock hattr]

/-- The data of a client that listens to new connections. -/
def listeningData : Value :=
  .obj [("subscriptionId", .str "a"), ("clientId", .str "client"), ("newConnections", .bool true)]

/-- Data that names the subscription and nothing else. -/
def bareData : Value :=
  .obj [("subscriptionId", .str "a")]

theorem save_keeps_bare : ∃ after, (Program.run exec (save Host.utc (fun _ => Time.epoch) "a" bareData)
      (afterAccesses Host.utc [.save (fun _ => Time.epoch) "a" bareData] : Infra IdSource.counting)).2.subscriptions.get
      "0" = some after ∧ KeepsLeftOut bareData ⟨"0", fieldsToBson
        (SubscriptionEntity.new Host.utc Time.epoch bareData).attributes⟩ after := by
  have hfound : findBySubscriptionId? (afterAccesses Host.utc [.save (fun _ => Time.epoch) "a" bareData] :
      Infra IdSource.counting).subscriptions "a" =
        some ⟨"0", fieldsToBson (SubscriptionEntity.new Host.utc Time.epoch bareData).attributes⟩ := rfl
  apply (save_keeps_iff Host.utc _ (fun _ => Time.epoch) hfound bareData).mpr
  apply Or.inr
  intro attr _
  cases attr <;> rfl

/-- A save that only names its subscription takes the client from it and ends its
listening. -/
theorem save_not_keeps : ¬ ∀ (host : Host) (accesses : List Access) (clock : Clock) (subscriptionId : String)
    (doc : Document) (data : Value),
    findBySubscriptionId? (afterAccesses host accesses : Infra IdSource.counting).subscriptions subscriptionId =
      some doc →
    ∃ after, (Program.run exec (save host clock subscriptionId data)
      (afterAccesses host accesses : Infra IdSource.counting)).2.subscriptions.get doc.id = some after ∧
        KeepsLeftOut data doc after := by
  intro h
  obtain ⟨after, hafter, hkeeps⟩ := h Host.utc [.save (fun _ => Time.epoch) "a" listeningData] (fun _ => Time.epoch) "a"
    ⟨"0", fieldsToBson (SubscriptionEntity.new Host.utc Time.epoch listeningData).attributes⟩ bareData rfl
  have hunmentioned : ¬ Mentions bareData .newConnections := by
    intro hgiven
    cases hgiven
  have hstored := hkeeps .newConnections hunmentioned
  cases hafter
  cases hstored

end node_backend.subscription_service
