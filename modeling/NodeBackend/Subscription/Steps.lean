import NodeBackend.Program.Pool
import NodeBackend.Subscription.Coherence

namespace node_backend.subscription_service

open js store program
open node_backend.infra node_backend.subscription_entity node_backend.exceptions

variable {ids : IdSource}

/-- Calls that leave the collection as it is. -/
def LeavesCollection : Call → Prop
  | .insertOne _ => False
  | .updateOne _ _ => False
  | .deleteOne _ => False
  | _ => True

theorem exec_subscriptions {call : Call} (h : LeavesCollection call) (s : Infra ids) :
    (exec call s).2.subscriptions = s.subscriptions := by
  cases call with
  | redisExpire key ttl =>
    simp only [exec]
    split <;> rfl
  | join socketId room =>
    simp only [exec]
    split <;> rfl
  | insertOne data => exact absurd h (by simp [LeavesCollection])
  | updateOne id data => exact absurd h (by simp [LeavesCollection])
  | deleteOne id => exact absurd h (by simp [LeavesCollection])
  | _ => rfl

/-- The document carries the subscription identifier. -/
def Carries (doc : Document) (subscriptionId : String) : Prop :=
  doc.matches "subscriptionId" subscriptionId = true

/-- Number of documents that carry a subscription identifier. -/
def carrying (subscriptions : Collection ids) (subscriptionId : String) : Nat :=
  subscriptions.documents.countP fun doc => doc.matches "subscriptionId" subscriptionId

/-- Whatever documents there are under an identifier carry the subscription. -/
def Known (subscriptions : Collection ids) (subscriptionId id : String) : Prop :=
  ∀ doc ∈ subscriptions.documents, doc.id = id → Carries doc subscriptionId

/-- Fields whose insertion, and whose update of any document, gives a document
that carries the subscription. -/
structure OwnFields (subscriptionId : String) (fields : List (String × Value)) : Prop where
  inserted : ∀ id, Carries ⟨id, fieldsToBson fields⟩ subscriptionId
  updated : ∀ doc : Document, Carries (doc.update fields) subscriptionId

/-- What is written of an entity carries its identifier and no other. -/
theorem carries_iff_of_owned {entity : SubscriptionEntity} {subscriptionId : String}
    (howned : entity.subscriptionId = .str subscriptionId) (other : String) :
    (∀ id, Carries ⟨id, fieldsToBson entity.attributes⟩ other ↔ subscriptionId = other) ∧
    ∀ doc : Document, Carries (doc.update entity.attributes) other ↔ subscriptionId = other := by
  have hmatch : ∀ fields : List (String × Value),
      fields.lookup "subscriptionId" = some (toBson entity.subscriptionId) →
      (equalsOrContains ((Value.obj fields).prop "subscriptionId") other = true ↔ subscriptionId = other) := by
    intro fields hlookup
    rw [Value.prop, hlookup, Option.getD_some, howned, toBson_str, equalsOrContains, beq_iff_eq]
  refine ⟨fun id => hmatch _ rfl, fun doc => hmatch _ ?_⟩
  rw [Document.update, json.lookup_setFields]
  rfl

theorem ownFields_of_owned {entity : SubscriptionEntity} {subscriptionId : String}
    (howned : entity.subscriptionId = .str subscriptionId) : OwnFields subscriptionId entity.attributes := by
  obtain ⟨hinserted, hupdated⟩ := carries_iff_of_owned howned subscriptionId
  exact ⟨fun id => (hinserted id).mpr rfl, fun doc => (hupdated doc).mpr rfl⟩

theorem OwnData.ownFields {host : Host} {clock : Clock} {subscriptionId : String}
    (own : OwnData host clock subscriptionId) :
    OwnFields subscriptionId (SubscriptionEntity.new host (clock 0) own.data).attributes :=
  ownFields_of_owned own.owned

section effects

variable {subscriptions : Collection ids} {subscriptionId : String} {fields : List (String × Value)}

theorem carrying_insertOne (hown : OwnFields subscriptionId fields) :
    carrying (subscriptions.insertOne fields) subscriptionId = carrying subscriptions subscriptionId + 1 := by
  have hnew : Document.matches ⟨subscriptions.nextId, fieldsToBson fields⟩ "subscriptionId" subscriptionId = true :=
    hown.inserted _
  rw [carrying, Collection.insertOne, List.countP_append, carrying, List.countP_singleton, if_pos hnew]

theorem carrying_updateOne (hown : OwnFields subscriptionId fields) {id : String}
    (hknown : Known subscriptions subscriptionId id) :
    carrying (subscriptions.updateOne id fields) subscriptionId = carrying subscriptions subscriptionId := by
  rw [carrying, Collection.updateOne, List.countP_map, carrying]
  apply List.countP_congr
  intro doc hdoc
  rw [Function.comp_apply]
  by_cases hid : doc.id = id
  · rw [if_pos hid]
    exact ⟨fun _ => hknown doc hdoc hid, fun _ => hown.updated doc⟩
  · rw [if_neg hid]

/-- An insertion under one identifier leaves the number of documents under another. -/
theorem carrying_insertOne_of_not {other : String}
    (hnot : ¬ Carries ⟨subscriptions.nextId, fieldsToBson fields⟩ other) :
    carrying (subscriptions.insertOne fields) other = carrying subscriptions other := by
  have hnew : ¬ Document.matches ⟨subscriptions.nextId, fieldsToBson fields⟩ "subscriptionId" other = true := hnot
  rw [carrying, Collection.insertOne, List.countP_append, carrying, List.countP_singleton, if_neg hnew, Nat.add_zero]

/-- An update that writes no such identifier adds no document under it. -/
theorem carrying_updateOne_le {other : String} (id : String)
    (hnot : ∀ doc ∈ subscriptions.documents, ¬ Carries (doc.update fields) other) :
    carrying (subscriptions.updateOne id fields) other ≤ carrying subscriptions other := by
  rw [carrying, Collection.updateOne, List.countP_map, carrying]
  apply List.countP_mono_left
  intro doc hdoc
  rw [Function.comp_apply]
  by_cases hid : doc.id = id
  · rw [if_pos hid]
    exact fun hcarries => absurd hcarries (hnot doc hdoc)
  · rw [if_neg hid]
    exact fun hcarries => hcarries

theorem carrying_deleteOne_le (id : String) :
    carrying (subscriptions.deleteOne id) subscriptionId ≤ carrying subscriptions subscriptionId :=
  List.Sublist.countP_le List.filter_sublist

/-- Deleting a document of the subscription takes one of them away. -/
theorem carrying_deleteOne {doc : Document} (hmem : doc ∈ subscriptions.documents)
    (hcarries : Carries doc subscriptionId) :
    carrying (subscriptions.deleteOne doc.id) subscriptionId = carrying subscriptions subscriptionId - 1 := by
  have hdistinct := subscriptions.distinct
  obtain ⟨before, after, hsplit⟩ := List.append_of_mem hmem
  have hkeep : ∀ other ∈ before ++ after, other.id ≠ doc.id := by
    rw [hsplit, List.map_append, List.map_cons, List.nodup_middle, List.nodup_cons, ← List.map_append] at hdistinct
    exact fun other hother hid => hdistinct.1 (hid ▸ List.mem_map_of_mem hother)
  have hrest : (subscriptions.deleteOne doc.id).documents = before ++ after := by
    have hfilter : (subscriptions.deleteOne doc.id).documents =
        subscriptions.documents.filter fun other => other.id != doc.id := rfl
    rw [hfilter, hsplit, List.filter_append, List.filter_cons_of_neg (by simp), ← List.filter_append]
    exact List.filter_eq_self.mpr fun other hother => by simpa using hkeep other hother
  rw [carrying, carrying, hrest, hsplit, List.countP_append, List.countP_append,
    List.countP_cons_of_pos (p := fun d : Document => d.matches "subscriptionId" subscriptionId) hcarries]
  omega

theorem findOne_eq_none_iff :
    findBySubscriptionId? subscriptions subscriptionId = none ↔ carrying subscriptions subscriptionId = 0 := by
  rw [findBySubscriptionId?, Collection.findOne, List.find?_eq_none, carrying, List.countP_eq_zero]

theorem known_of_findOne {doc : Document} (h : findBySubscriptionId? subscriptions subscriptionId = some doc) :
    Known subscriptions subscriptionId doc.id := by
  obtain ⟨hmem, hmatches⟩ := Collection.mem_of_findOne h
  intro other hother hid
  rw [List.inj_on_of_nodup_map subscriptions.distinct hother hmem hid]
  exact hmatches

variable {id : String} (hknown : Known subscriptions subscriptionId id)

include hknown

theorem Known.insertOne (hown : OwnFields subscriptionId fields) :
    Known (subscriptions.insertOne fields) subscriptionId id := by
  intro doc hdoc hid
  obtain hold | hnew := List.mem_append.mp hdoc
  · exact hknown doc hold hid
  · rw [List.mem_singleton.mp hnew]
    exact hown.inserted _

theorem Known.updateOne (hown : OwnFields subscriptionId fields) (other : String) :
    Known (subscriptions.updateOne other fields) subscriptionId id := by
  intro doc hdoc hid
  obtain ⟨old, hold, rfl⟩ := Collection.mem_updateOne.mp hdoc
  by_cases hother : old.id = other
  · rw [if_pos hother]
    exact hown.updated old
  · rw [if_neg hother] at hid ⊢
    exact hknown old hold hid

theorem Known.deleteOne (other : String) : Known (subscriptions.deleteOne other) subscriptionId id :=
  fun doc hdoc hid => hknown doc (List.mem_of_mem_filter hdoc) hid

end effects

/-- A Redis entry whose time to live runs out. -/
abbrev Expiry : Type := String

abbrev Pool (ids : IdSource) : Type :=
  program.Pool Call Call.Reply Failure Unit (Infra ids)

def Pool.step (pool : Pool ids) (move : Move Expiry) : Pool ids :=
  program.Pool.step exec Infra.expire pool move

def Pool.run (pool : Pool ids) (schedule : List (Move Expiry)) : Pool ids :=
  program.Pool.run exec Infra.expire pool schedule

/-- A computation that is about to insert a document with fields of some kind. -/
def Inserting (Fields : List (String × Value) → Prop) (p : Promise Unit) : Prop :=
  ∃ fields next, p = .await (.insertOne fields) next ∧ Fields fields ∧ ∀ reply, (next reply).Only LeavesCollection

/-- A computation that is about to make a write of some kind. -/
def Writing (Write : Call → Prop) (p : Promise Unit) : Prop :=
  ∃ call next, p = .await call next ∧ Write call ∧ ∀ reply, (next reply).Only LeavesCollection

/-- How far a computation has come that looks for the document of a subscription
and then makes one write: it looks for the document, it is about to insert one,
it is about to write to one that it found, or it is past its write. What may be
written to a document depends on its identifier. -/
inductive Phase (Fields : List (String × Value) → Prop) (Write : String → Call → Prop) (Target : String → Prop)
    (subscriptionId : String) : Promise Unit → Prop
  | finding {next : Except Failure (Option Document) → Promise Unit}
      (hnone : Inserting Fields (next (.ok none)) ∨ (next (.ok none)).Only LeavesCollection)
      (hsome : ∀ doc : Document, Writing (Write doc.id) (next (.ok (some doc))) ∨
        (next (.ok (some doc))).Only LeavesCollection) :
      Phase Fields Write Target subscriptionId (.await (.findOne "subscriptionId" subscriptionId) next)
  | inserting {p : Promise Unit} (h : Inserting Fields p) : Phase Fields Write Target subscriptionId p
  | writing {p : Promise Unit} {id : String} (h : Writing (Write id) p) (hid : Target id) :
      Phase Fields Write Target subscriptionId p
  | past {p : Promise Unit} (h : p.Only LeavesCollection) : Phase Fields Write Target subscriptionId p

section phases

variable {Fields : List (String × Value) → Prop} {Write Wider : String → Call → Prop} {Target Later : String → Prop}
  {subscriptionId : String}

theorem Writing.mono {Write Wider : Call → Prop} (hwrite : ∀ call, Write call → Wider call) {p : Promise Unit}
    (h : Writing Write p) : Writing Wider p := by
  obtain ⟨call, next, heq, hcall, hpast⟩ := h
  exact ⟨call, next, heq, hwrite call hcall, hpast⟩

theorem Phase.mono {p : Promise Unit} (h : Phase Fields Write Target subscriptionId p)
    (hwrite : ∀ id call, Write id call → Wider id call) (htarget : ∀ id, Target id → Later id) :
    Phase Fields Wider Later subscriptionId p := by
  cases h with
  | finding hnone hsome => exact .finding hnone fun doc => (hsome doc).imp_left (Writing.mono (hwrite doc.id))
  | inserting h => exact .inserting h
  | writing h hid => exact .writing (h.mono (hwrite _)) (htarget _ hid)
  | past h => exact .past h

/-- What the next call of such a computation is. -/
theorem Phase.call_cases {call : Call} {next : Except Failure call.Reply → Promise Unit}
    (h : Phase Fields Write Target subscriptionId (.await call next)) :
    LeavesCollection call ∨ (∃ fields, call = .insertOne fields ∧ Fields fields) ∨ ∃ id, Write id call ∧ Target id := by
  cases h with
  | finding hnone hsome => exact Or.inl trivial
  | inserting h =>
    obtain ⟨fields, next', heq, hfields, _⟩ := h
    cases heq
    exact Or.inr (Or.inl ⟨fields, rfl, hfields⟩)
  | @writing _ id h hid =>
    obtain ⟨call', next', heq, hwrite, _⟩ := h
    cases heq
    exact Or.inr (Or.inr ⟨id, hwrite, hid⟩)
  | past h => exact Or.inl h.1

/-- Its next call takes such a computation to its next phase. -/
theorem Phase.next {call : Call} {next : Except Failure call.Reply → Promise Unit}
    (h : Phase Fields Write Target subscriptionId (.await call next)) (s : Infra ids)
    (hfound : ∀ doc, findBySubscriptionId? s.subscriptions subscriptionId = some doc → Target doc.id) :
    Phase Fields Write Target subscriptionId (next (exec call s).1) := by
  cases h with
  | finding hnone hsome =>
    have hreply : (exec (.findOne "subscriptionId" subscriptionId) s).1 =
        .ok (findBySubscriptionId? s.subscriptions subscriptionId) := rfl
    rw [hreply]
    cases hdoc : findBySubscriptionId? s.subscriptions subscriptionId with
    | none => exact hnone.elim .inserting .past
    | some doc => exact (hsome doc).elim (fun hwriting => .writing hwriting (hfound doc hdoc)) .past
  | inserting h =>
    obtain ⟨fields, next', heq, _, hpast⟩ := h
    cases heq
    exact .past (hpast _)
  | writing h hid =>
    obtain ⟨call', next', heq, _, hpast⟩ := h
    cases heq
    exact .past (hpast _)
  | past h => exact .past (h.2 _)

/-- The write of a save to the document that it found. -/
def Updates (Fields : List (String × Value) → Prop) (id : String) (call : Call) : Prop :=
  ∃ fields, Fields fields ∧ call = .updateOne id fields

theorem only_saveOnCache (subscriptionId : String) (subscription : SubscriptionEntity) :
    (saveOnCache subscriptionId subscription.getAttributes).Only LeavesCollection := by
  refine ⟨trivial, fun reply => ?_⟩
  cases reply with
  | error error => trivial
  | ok result =>
    refine ⟨trivial, fun reply => ?_⟩
    cases reply <;> trivial

theorem only_rereadAndCache (host : Host) (clock : Clock) (subscriptionId id : String) :
    (rereadAndCache host clock subscriptionId id).Only LeavesCollection := by
  refine ⟨trivial, fun reply => ?_⟩
  cases reply with
  | error error => trivial
  | ok found =>
    cases found with
    | none => trivial
    | some doc => exact (only_saveOnCache subscriptionId _).bind fun _ => trivial

/-- A save, and what follows it that leaves the collection as it is, is about to
look for its document. -/
theorem phase_save_bind {host : Host} {clock : Clock} {data : Value}
    (hfields : (data.prop "_id").unprintable = false →
      Fields (SubscriptionEntity.new host (clock 0) data).attributes)
    {f : SubscriptionEntity → Promise Unit} (hf : ∀ subscription, (f subscription).Only LeavesCollection) :
    Phase Fields (Updates Fields) Target subscriptionId (save host clock subscriptionId data >>= f) := by
  cases hprint : (data.prop "_id").unprintable with
  | true =>
    rw [save, newEntity_of_unprintable host hprint]
    exact .finding (Or.inr trivial) fun _ => Or.inr trivial
  | false =>
    rw [save_of_printable host clock hprint]
    refine .finding (Or.inl ⟨_, _, rfl, hfields hprint, fun reply => ?_⟩) fun doc =>
      Or.inl ⟨_, _, rfl, ⟨_, hfields hprint, rfl⟩, fun reply => ?_⟩
    · cases reply with
      | error error => trivial
      | ok id => exact (only_rereadAndCache host clock subscriptionId id).bind hf
    · cases reply with
      | error error => trivial
      | ok result => exact (only_rereadAndCache host clock subscriptionId doc.id).bind hf

end phases

end node_backend.subscription_service
