import NodeBackend.Events.OwnWrites
import NodeBackend.Subscription.Deletion

namespace node_backend.web_socket_server

open js store program
open node_backend.infra node_backend.exceptions node_backend.subscription_entity node_backend.subscription_service

variable {ids : IdSource}

/-- The disconnection has looked for the document of its socket. -/
def Looked (socketId : String) (history : List (Nat × Call)) : Prop :=
  (0, Call.findOne "subscriptionId" socketId) ∈ history

/-- A call of some kind ran after the disconnection looked for the document. -/
def AfterLook (Kind : Call → Prop) (socketId : String) (history : List (Nat × Call)) : Prop :=
  After (fun entry => entry = (0, Call.findOne "subscriptionId" socketId)) (fun entry => Kind entry.2) history

def Inserts : Call → Prop
  | .insertOne _ => True
  | _ => False

def InsertsOrUpdates : Call → Prop
  | .insertOne _ => True
  | .updateOne _ _ => True
  | _ => False

/-- Documents of the socket that there were at first, and documents inserted since. -/
def total (socketId : String) (first subscriptions : Collection ids) : Nat :=
  carrying first socketId + (subscriptions.inserted - first.inserted)

section history

variable {socketId : String} {history : List (Nat × Call)} {Kind : Call → Prop}

theorem looked_snoc {entry : Nat × Call} :
    Looked socketId (history ++ [entry]) ↔ Looked socketId history ∨
      entry = (0, .findOne "subscriptionId" socketId) := by
  rw [Looked, Looked, List.mem_append, List.mem_singleton, eq_comm (a := entry)]

theorem looked_snoc_of_other {thread : Nat} {call : Call} :
    Looked socketId (history ++ [(thread + 1, call)]) ↔ Looked socketId history := by
  rw [looked_snoc]
  exact or_iff_left (by simp)

theorem afterLook_snoc {thread : Nat} {call : Call} :
    AfterLook Kind socketId (history ++ [(thread, call)]) ↔
      AfterLook Kind socketId history ∨ (Looked socketId history ∧ Kind call) := by
  rw [AfterLook, after_snoc, Looked, AfterLook, exists_eq_right]

theorem afterLook_snoc_of_not {thread : Nat} {call : Call} (hnot : ¬ Kind call) :
    AfterLook Kind socketId (history ++ [(thread, call)]) ↔ AfterLook Kind socketId history := by
  rw [afterLook_snoc]
  exact or_iff_left fun h => hnot h.2

theorem not_afterLook (hnot : ¬ Looked socketId history) : ¬ AfterLook Kind socketId history :=
  fun h => by
    obtain ⟨entry, hmem, rfl⟩ := first_of_after h
    exact hnot hmem

end history

theorem eq_of_carrying_le_one {subscriptions : Collection ids} {socketId : String} {doc other : Document}
    (hone : carrying subscriptions socketId ≤ 1) (hdoc : doc ∈ subscriptions.documents)
    (hcarries : Carries doc socketId)
    (hother : other ∈ subscriptions.documents) (hsame : Carries other socketId) : other.id = doc.id := by
  by_contra hne
  have hkept : other ∈ (subscriptions.deleteOne doc.id).documents := List.mem_filter.mpr ⟨hother, by simpa using hne⟩
  have hrest := carrying_deleteOne hdoc hcarries
  have hpos : 0 < carrying (subscriptions.deleteOne doc.id) socketId := List.countP_pos_iff.mpr ⟨other, hkept, hsame⟩
  omega

/-- A document that may have come to carry the socket's identifier: one that did
at first, or one inserted since. -/
def Related (socketId : String) (first : Collection ids) (id : String) : Prop :=
  (∃ doc ∈ first.documents, Carries doc socketId ∧ doc.id = id) ∨ ∃ n, first.inserted ≤ n ∧ id = ids.hex n

structure Tracked (socketId : String) (first subscriptions : Collection ids) : Prop where
  inserted : first.inserted ≤ subscriptions.inserted
  related : ∀ doc ∈ subscriptions.documents, Carries doc socketId → Related socketId first doc.id

/-- There are no more documents of the socket than it had or were inserted. -/
theorem Tracked.carrying_le {socketId : String} {first subscriptions : Collection ids}
    (h : Tracked socketId first subscriptions) :
    carrying subscriptions socketId ≤ total socketId first subscriptions := by
  have hsubset : (subscriptions.documents.filter fun doc => doc.matches "subscriptionId" socketId).map Document.id ⊆
      (first.documents.filter fun doc => doc.matches "subscriptionId" socketId).map Document.id ++
        (List.range (subscriptions.inserted - first.inserted)).map fun n => ids.hex (first.inserted + n) := by
    intro id hid
    obtain ⟨doc, hdoc, rfl⟩ := List.mem_map.mp hid
    obtain ⟨hmem, hmatches⟩ := List.mem_filter.mp hdoc
    obtain ⟨old, hold, hcarries, heq⟩ | ⟨n, hn, heq⟩ := h.related doc hmem hmatches
    · exact List.mem_append_left _ (List.mem_map.mpr ⟨old, List.mem_filter.mpr ⟨hold, hcarries⟩, heq⟩)
    · obtain ⟨m, hm, hhex⟩ := subscriptions.known doc hmem
      have hmn := ids.injective (hhex.symm.trans heq)
      refine List.mem_append_right _ (List.mem_map.mpr ⟨n - first.inserted, List.mem_range.mpr (by omega), ?_⟩)
      rw [Nat.add_sub_cancel' hn, heq]
  have hnodup : ((subscriptions.documents.filter fun doc => doc.matches "subscriptionId" socketId).map
      Document.id).Nodup := (List.filter_sublist.map Document.id).nodup subscriptions.distinct
  have hlength := (hnodup.subperm hsubset).length_le
  simp only [List.length_map, List.length_append, List.length_range] at hlength
  rw [carrying, List.countP_eq_length_filter, total, carrying, List.countP_eq_length_filter]
  exact hlength

/-- A save of the socket's own handlers, with messages of any content. -/
structure AnySave (socketId : String) (first subscriptions : Collection ids) (p : Promise Unit) : Prop where
  tracked : Tracked socketId first subscriptions
  phase : Phase (fun _ => True) (Updates fun _ => True) (Related socketId first) socketId p
  keeps : p.Only (Keeps (fun _ => True) (cacheKey socketId))

/-- While at most one document of the socket has come about and nothing is saved
after the disconnection looked for it, that document is the one it deletes. -/
def deletesAll (socketId : String) (first : Collection ids) : Stage ids where
  before := fun subscriptions history => ¬ Looked socketId history ∧ Tracked socketId first subscriptions
  deleting := fun id subscriptions history => Looked socketId history ∧
    (total socketId first subscriptions ≤ 1 → ¬ AfterLook InsertsOrUpdates socketId history →
      ∀ doc ∈ subscriptions.documents, Carries doc socketId → doc.id = id)
  after := fun subscriptions history => Looked socketId history ∧
    (total socketId first subscriptions ≤ 1 → ¬ AfterLook InsertsOrUpdates socketId history →
      carrying subscriptions socketId = 0)

theorem deletesAll_sound (socketId : String) (first : Collection ids) :
    (deletesAll socketId first).Sound socketId where
  leave := by
    intro _ _ _ _ h
    obtain ⟨hnot, htracked⟩ := h
    exact ⟨mt looked_snoc.mp (by simp [hnot]), htracked⟩
  missing := by
    rintro _ _ _ hnone
    exact ⟨looked_snoc.mpr (Or.inr rfl), fun _ _ => findOne_eq_none_iff.mp hnone⟩
  found := by
    rintro subscriptions _ doc ⟨_, htracked⟩ hsome
    obtain ⟨hmem, hcarries⟩ := Collection.mem_of_findOne hsome
    refine ⟨looked_snoc.mpr (Or.inr rfl), fun hone _ other hother hsame => ?_⟩
    exact eq_of_carrying_le_one (htracked.carrying_le.trans hone) hmem hcarries hother hsame
  delete := by
    rintro subscriptions _ id ⟨hlooked, honly⟩
    refine ⟨looked_snoc.mpr (Or.inl hlooked), fun hone hunsaved => List.countP_eq_zero.mpr fun doc hdoc hcarries => ?_⟩
    obtain ⟨hmem, hid⟩ := List.mem_filter.mp hdoc
    rw [afterLook_snoc_of_not (by simp [InsertsOrUpdates])] at hunsaved
    rw [honly hone hunsaved doc hmem hcarries] at hid
    simp at hid
  clear := by
    rintro _ _ ⟨hlooked, hnone⟩
    refine ⟨looked_snoc.mpr (Or.inl hlooked), fun hone hunsaved => hnone hone ?_⟩
    rwa [afterLook_snoc_of_not (by simp [InsertsOrUpdates])] at hunsaved

theorem Tracked.deleteOne {socketId : String} {first subscriptions : Collection ids}
    (h : Tracked socketId first subscriptions) (id : String) : Tracked socketId first (subscriptions.deleteOne id) :=
  ⟨h.inserted, fun doc hdoc hcarries => h.related doc (List.mem_of_mem_filter hdoc) hcarries⟩

/-- Whatever the handlers of the socket save, its documents stay related to it. -/
theorem AnySave.exec {socketId : String} {first : Collection ids} {s : Infra ids} {call : Call}
    {next : Except Failure call.Reply → Promise Unit}
    (h : AnySave socketId first s.subscriptions (.await call next)) :
    Tracked socketId first (infra.exec call s).2.subscriptions := by
  have hbefore := h.tracked
  obtain hleaves | ⟨fields, rfl, _⟩ | ⟨id, ⟨fields, _, rfl⟩, hid⟩ := h.phase.call_cases
  · rwa [exec_subscriptions hleaves]
  · refine ⟨Nat.le_succ_of_le hbefore.inserted, fun doc hdoc hcarries => ?_⟩
    obtain hold | hnew := List.mem_append.mp hdoc
    · exact hbefore.related doc hold hcarries
    · rw [List.mem_singleton.mp hnew]
      exact Or.inr ⟨s.subscriptions.inserted, hbefore.inserted, rfl⟩
  · refine ⟨hbefore.inserted, fun doc hdoc hcarries => ?_⟩
    obtain ⟨old, hold, rfl⟩ := Collection.mem_updateOne.mp hdoc
    by_cases hsame : old.id = id
    · rw [if_pos hsame]
      exact hsame ▸ hid
    · rw [if_neg hsame] at hcarries ⊢
      exact hbefore.related old hold hcarries

theorem anySave_compatible (socketId : String) (first : Collection ids) :
    Compatible (deletesAll socketId first) (fun _ => True) socketId (AnySave socketId first) where
  sound := deletesAll_sound socketId first
  deleted := fun id h => ⟨h.tracked.deleteOne id, h.phase, h.keeps⟩
  keeps := fun h => h.keeps.1
  next := by
    intro s call next h
    refine ⟨h.exec, h.phase.next s fun doc hfound => ?_, h.keeps.2 _⟩
    obtain ⟨hmem, hcarries⟩ := Collection.mem_of_findOne hfound
    exact h.tracked.related doc hmem hcarries
  rest := fun h hrest => ⟨h.exec, hrest.phase, hrest.keeps⟩
  kept := by
    intro s call next history thread h
    have hlook : Looked socketId (history ++ [(thread + 1, call)]) ↔ Looked socketId history := looked_snoc_of_other
    have hsaved : ∀ {P : Collection ids → Prop}, Looked socketId history →
        (¬ AfterLook InsertsOrUpdates socketId history → P s.subscriptions) →
        ¬ AfterLook InsertsOrUpdates socketId (history ++ [(thread + 1, call)]) →
        P (infra.exec call s).2.subscriptions := by
      intro P hlooked hold hunsaved
      rw [afterLook_snoc, not_or] at hunsaved
      obtain hleaves | ⟨fields, rfl, _⟩ | ⟨id, ⟨fields, _, rfl⟩, _⟩ := h.phase.call_cases
      · rw [exec_subscriptions hleaves]
        exact hold hunsaved.1
      · exact absurd ⟨hlooked, trivial⟩ hunsaved.2
      · exact absurd ⟨hlooked, trivial⟩ hunsaved.2
    refine ⟨fun ⟨hnot, _⟩ => ⟨mt hlook.mp hnot, h.exec⟩, fun id ⟨hlooked, honly⟩ => ⟨hlook.mpr hlooked, ?_⟩,
      fun ⟨hlooked, hnone⟩ => ⟨hlook.mpr hlooked, ?_⟩⟩
    · intro hone hunsaved
      exact hsaved (P := fun subscriptions => total socketId first subscriptions ≤ 1 →
        ∀ doc ∈ subscriptions.documents, Carries doc socketId → doc.id = id) hlooked
        (fun hold hfew => honly hfew hold) hunsaved hone
    · intro hone hunsaved
      exact hsaved (P := fun subscriptions => total socketId first subscriptions ≤ 1 →
        carrying subscriptions socketId = 0) hlooked (fun hold hfew => hnone hfew hold) hunsaved hone

/-- A save of the socket's own handlers that names no other identifier. -/
structure OwnSave (socketId : String) (subscriptions : Collection ids) (p : Promise Unit) : Prop where
  phase : Phase (OwnFields socketId) (Updates (OwnFields socketId)) (Known subscriptions socketId) socketId p
  keeps : p.Only (Keeps (fun _ => True) (cacheKey socketId))

/-- The documents of the socket are those that came about, less the one that the
disconnection deleted, if it found one. -/
def deletesOne (socketId : String) (first : Collection ids) : Stage ids where
  before := fun subscriptions history => ¬ Looked socketId history ∧ first.inserted ≤ subscriptions.inserted ∧
    carrying subscriptions socketId = total socketId first subscriptions
  deleting := fun id subscriptions history => Looked socketId history ∧ first.inserted ≤ subscriptions.inserted ∧
    carrying subscriptions socketId = total socketId first subscriptions ∧
    (∃ doc ∈ subscriptions.documents, doc.id = id ∧ Carries doc socketId) ∧
    (AfterLook Inserts socketId history → 2 ≤ total socketId first subscriptions)
  after := fun subscriptions history => Looked socketId history ∧ first.inserted ≤ subscriptions.inserted ∧
    ((carrying subscriptions socketId + 1 = total socketId first subscriptions ∧
        (AfterLook Inserts socketId history → 2 ≤ total socketId first subscriptions)) ∨
      (carrying subscriptions socketId = total socketId first subscriptions ∧
        (AfterLook Inserts socketId history ↔ 0 < total socketId first subscriptions)))

theorem deletesOne_sound (socketId : String) (first : Collection ids) :
    (deletesOne socketId first).Sound socketId where
  leave := by
    rintro _ _ _ _ ⟨hnot, hfirst⟩
    exact ⟨mt looked_snoc.mp (by simp [hnot]), hfirst⟩
  missing := by
    rintro subscriptions history ⟨hnot, hinserted, hcount⟩ hnone
    have hzero := findOne_eq_none_iff.mp hnone
    refine ⟨looked_snoc.mpr (Or.inr rfl), hinserted, Or.inr ⟨hcount, ?_⟩⟩
    rw [afterLook_snoc_of_not (by simp [Inserts])]
    exact ⟨fun h => absurd h (not_afterLook hnot), fun h => by omega⟩
  found := by
    rintro _ history doc ⟨hnot, hinserted, hcount⟩ hsome
    obtain ⟨hmem, hcarries⟩ := Collection.mem_of_findOne hsome
    refine ⟨looked_snoc.mpr (Or.inr rfl), hinserted, hcount, ⟨doc, hmem, rfl, hcarries⟩, fun h => ?_⟩
    rw [afterLook_snoc_of_not (by simp [Inserts])] at h
    exact absurd h (not_afterLook hnot)
  delete := by
    rintro subscriptions history _ ⟨hlooked, hinserted, hcount, ⟨doc, hmem, rfl, hcarries⟩, hmore⟩
    have htaken := carrying_deleteOne hmem hcarries
    have hpos : 0 < carrying subscriptions socketId := List.countP_pos_iff.mpr ⟨doc, hmem, hcarries⟩
    refine ⟨looked_snoc.mpr (Or.inl hlooked), hinserted, Or.inl ⟨?_, ?_⟩⟩
    · change carrying (subscriptions.deleteOne doc.id) socketId + 1 = total socketId first subscriptions
      omega
    · rw [afterLook_snoc_of_not (by simp [Inserts])]
      exact hmore
  clear := by
    rintro _ history ⟨hlooked, hinserted, hcount⟩
    refine ⟨looked_snoc.mpr (Or.inl hlooked), hinserted, ?_⟩
    rwa [afterLook_snoc_of_not (by simp [Inserts])]

theorem total_insertOne {socketId : String} {first subscriptions : Collection ids}
    (hinserted : first.inserted ≤ subscriptions.inserted) (fields : List (String × Value)) :
    total socketId first (subscriptions.insertOne fields) = total socketId first subscriptions + 1 := by
  change carrying first socketId + (subscriptions.inserted + 1 - first.inserted) =
    carrying first socketId + (subscriptions.inserted - first.inserted) + 1
  omega

/-- An insertion by one of the other handlers counts, wherever the disconnection is. -/
theorem deletesOne_kept_insertOne {socketId : String} {first subscriptions : Collection ids}
    {fields : List (String × Value)} (hown : OwnFields socketId fields) (history : List (Nat × Call)) (thread : Nat) :
    (deletesOne socketId first).Kept subscriptions (subscriptions.insertOne fields) history
      (history ++ [(thread + 1, .insertOne fields)]) where
  before := by
    intro h
    obtain ⟨hnot, hinserted, hcount⟩ := h
    refine ⟨mt looked_snoc_of_other.mp hnot, Nat.le_succ_of_le hinserted, ?_⟩
    rw [carrying_insertOne hown, total_insertOne hinserted, hcount]
  deleting := by
    rintro id ⟨hlooked, hinserted, hcount, ⟨doc, hmem, hid, hcarries⟩, _⟩
    have hpos : 0 < carrying subscriptions socketId := List.countP_pos_iff.mpr ⟨doc, hmem, hcarries⟩
    refine ⟨looked_snoc_of_other.mpr hlooked, Nat.le_succ_of_le hinserted, ?_,
      ⟨doc, List.mem_append_left _ hmem, hid, hcarries⟩, fun _ => ?_⟩
    · rw [carrying_insertOne hown, total_insertOne hinserted, hcount]
    · rw [total_insertOne hinserted]
      omega
  after := by
    rintro ⟨hlooked, hinserted, hcount⟩
    refine ⟨looked_snoc_of_other.mpr hlooked, Nat.le_succ_of_le hinserted, ?_⟩
    have hinsert : AfterLook Inserts socketId (history ++ [(thread + 1, .insertOne fields)]) :=
      afterLook_snoc.mpr (Or.inr ⟨hlooked, trivial⟩)
    rw [carrying_insertOne hown, total_insertOne hinserted]
    obtain ⟨hcount, _⟩ | ⟨hcount, _⟩ := hcount
    · exact Or.inl ⟨by omega, fun _ => by omega⟩
    · exact Or.inr ⟨by omega, fun _ => by omega, fun _ => hinsert⟩

/-- A call that inserts nothing, and leaves as many documents of the socket and
the one to be deleted, keeps the count. -/
theorem deletesOne_kept {socketId : String} {first subscriptions later : Collection ids} {call : Call}
    (hinserts : ¬ Inserts call) (hinserted : later.inserted = subscriptions.inserted)
    (hcount : carrying later socketId = carrying subscriptions socketId)
    (hdoc : ∀ doc ∈ subscriptions.documents, Carries doc socketId →
      ∃ other ∈ later.documents, other.id = doc.id ∧ Carries other socketId)
    (history : List (Nat × Call)) (thread : Nat) :
    (deletesOne socketId first).Kept subscriptions later history (history ++ [(thread + 1, call)]) := by
  have htotal : total socketId first later = total socketId first subscriptions := by
    rw [total, hinserted, total]
  have hlook : Looked socketId (history ++ [(thread + 1, call)]) ↔ Looked socketId history := looked_snoc_of_other
  have hafter : AfterLook Inserts socketId (history ++ [(thread + 1, call)]) ↔ AfterLook Inserts socketId history :=
    afterLook_snoc_of_not hinserts
  refine ⟨?_, ?_, ?_⟩
  · intro h
    obtain ⟨hnot, hold, hbefore⟩ := h
    exact ⟨mt hlook.mp hnot, hinserted ▸ hold, by rw [hcount, htotal, hbefore]⟩
  · rintro id ⟨hlooked, hold, hbefore, ⟨doc, hmem, rfl, hcarries⟩, hmore⟩
    refine ⟨hlook.mpr hlooked, hinserted ▸ hold, by rw [hcount, htotal, hbefore], hdoc doc hmem hcarries, ?_⟩
    rwa [hafter, htotal]
  · rintro ⟨hlooked, hold, hbefore⟩
    refine ⟨hlook.mpr hlooked, hinserted ▸ hold, ?_⟩
    rwa [hafter, hcount, htotal]

theorem ownSave_compatible (socketId : String) (first : Collection ids) :
    Compatible (deletesOne socketId first) (fun _ => True) socketId (OwnSave socketId) where
  sound := deletesOne_sound socketId first
  deleted := fun id h => ⟨h.phase.mono (fun _ _ hwrite => hwrite) fun _ hknown => hknown.deleteOne id, h.keeps⟩
  keeps := fun h => h.keeps.1
  next := by
    intro s call next h
    have hnext := h.phase.next s fun doc hfound => known_of_findOne hfound
    refine ⟨hnext.mono (fun _ _ hwrite => hwrite) fun id hknown => ?_, h.keeps.2 _⟩
    obtain hleaves | ⟨fields, rfl, hown⟩ | ⟨other, ⟨fields, hown, rfl⟩, _⟩ := h.phase.call_cases
    · rwa [exec_subscriptions hleaves]
    · exact hknown.insertOne hown
    · exact hknown.updateOne hown other
  rest := by
    intro s call next p h hrest
    refine ⟨hrest.phase.mono (fun _ _ hwrite => hwrite) fun id hknown => ?_, hrest.keeps⟩
    obtain hleaves | ⟨fields, rfl, hown⟩ | ⟨other, ⟨fields, hown, rfl⟩, _⟩ := h.phase.call_cases
    · rwa [exec_subscriptions hleaves]
    · exact hknown.insertOne hown
    · exact hknown.updateOne hown other
  kept := by
    intro s call next history thread h
    obtain hleaves | ⟨fields, rfl, hown⟩ | ⟨id, ⟨fields, hown, rfl⟩, hknown⟩ := h.phase.call_cases
    · have hsame := exec_subscriptions hleaves s
      have hinserts : ¬ Inserts call := by
        cases call with
        | insertOne fields => exact hleaves.elim
        | _ => exact id
      rw [hsame]
      exact deletesOne_kept hinserts rfl rfl (fun doc hmem hcarries => ⟨doc, hmem, rfl, hcarries⟩) history thread
    · exact deletesOne_kept_insertOne hown history thread
    · have hinserts : ¬ Inserts (.updateOne id fields) := fun h => h
      have hinserted : (s.subscriptions.updateOne id fields).inserted = s.subscriptions.inserted := rfl
      refine deletesOne_kept hinserts hinserted (carrying_updateOne hown hknown) (fun doc hmem hcarries => ?_)
        history thread
      refine ⟨_, Collection.mem_updateOne.mpr ⟨doc, hmem, rfl⟩, ?_⟩
      by_cases hid : doc.id = id
      · rw [if_pos hid]
        exact ⟨rfl, hown.updated doc⟩
      · rw [if_neg hid]
        exact ⟨rfl, hcarries⟩

section handlers

variable {key : String}

theorem keeps_saveOnCache (subscriptionId : String) (subscription : SubscriptionEntity) :
    (saveOnCache subscriptionId subscription.getAttributes).Only (Keeps (fun _ => True) key) := by
  refine ⟨fun _ => trivial, fun reply => ?_⟩
  cases reply with
  | error error => trivial
  | ok result =>
    refine ⟨(by decide : 0 < subscriptionsTimeToLive), fun reply => ?_⟩
    cases reply <;> trivial

theorem keeps_rereadAndCache (host : Host) (clock : Clock) (subscriptionId id : String) :
    (rereadAndCache host clock subscriptionId id).Only (Keeps (fun _ => True) key) := by
  refine ⟨trivial, fun reply => ?_⟩
  cases reply with
  | error error => trivial
  | ok found =>
    cases found with
    | none => trivial
    | some doc => exact (keeps_saveOnCache subscriptionId _).bind fun _ => trivial

/-- A save never clears the cache. -/
theorem keeps_save (host : Host) (clock : Clock) (subscriptionId : String) (data : Value) :
    (save host clock subscriptionId data).Only (Keeps (fun _ => True) key) := by
  have hwrite : ∀ found attributes,
      (writeAttributes host clock subscriptionId found attributes).Only (Keeps (fun _ => True) key) := by
    intro found attributes
    cases found with
    | none =>
      refine ⟨trivial, fun reply => ?_⟩
      cases reply with
      | error error => trivial
      | ok id => exact keeps_rereadAndCache host clock subscriptionId id
    | some doc =>
      refine ⟨trivial, fun reply => ?_⟩
      cases reply with
      | error error => trivial
      | ok result => exact keeps_rereadAndCache host clock subscriptionId doc.id
  apply Program.Only.bind (Program.only_perform trivial)
  intro found
  cases hprint : (data.prop "_id").unprintable with
  | true =>
    rw [newEntity_of_unprintable host hprint]
    trivial
  | false =>
    rw [newEntity_of_printable host hprint]
    exact hwrite found _

/-- A handler of a socket: it saves data and then leaves the collection and the
cache alone, or does nothing of the kind. -/
structure SavesOnly (Fields : List (String × Value) → Prop) (Target : String → Prop) (socketId : String)
    (p : Promise Unit) : Prop where
  phase : Phase Fields (Updates Fields) Target socketId p
  keeps : p.Only (Keeps (fun _ => True) (cacheKey socketId))

theorem savesOnly_save {Fields : List (String × Value) → Prop} {Target : String → Prop} {host : Host} {clock : Clock}
    {socketId : String} {data : Value}
    (hfields : (data.prop "_id").unprintable = false →
      Fields (SubscriptionEntity.new host (clock 0) data).attributes)
    {f : SubscriptionEntity → Promise Unit} (hleaves : ∀ subscription, (f subscription).Only LeavesCollection)
    (hkeeps : ∀ subscription, (f subscription).Only (Keeps (fun _ => True) (cacheKey socketId))) :
    SavesOnly Fields Target socketId (save host clock socketId data >>= f) :=
  ⟨phase_save_bind hfields hleaves, (keeps_save host clock socketId data).bind hkeeps⟩

theorem only_dispatch {Kind : Call → Prop} (event : EventDispatchInterface) (h : Kind (.sendMessage event)) :
    (dispatch event >>= fun _ => pure () : Promise Unit).Only Kind := by
  refine ⟨h, fun reply => ?_⟩
  cases reply <;> trivial

theorem savesOnly_handleConnection {Fields : List (String × Value) → Prop} {Target : String → Prop} (host : Host)
    (clock : Clock) (socketId : String)
    (hfields : Fields (SubscriptionEntity.new host (clock 0) (.obj [("subscriptionId", .str socketId)])).attributes) :
    SavesOnly Fields Target socketId (handleConnection host clock socketId) :=
  savesOnly_save (fun _ => hfields) (fun _ => only_dispatch _ trivial) fun _ => only_dispatch _ trivial

theorem savesOnly_handleReconnect {Fields : List (String × Value) → Prop} {Target : String → Prop} (host : Host)
    (clock : Clock) (socketId msg : String)
    (hfields : isObject (formatMessageAfterReceiveHelper msg) = true →
      ((formatMessageAfterReceiveHelper msg).prop "_id").unprintable = false →
      Fields (SubscriptionEntity.new host (clock 0)
        (reconnectionData socketId (formatMessageAfterReceiveHelper msg))).attributes) :
    SavesOnly Fields Target socketId (handleReconnect host clock socketId msg) := by
  have hrooms : ∀ {Kind : Call → Prop} (subscription : SubscriptionEntity),
      Kind (.join socketId .newConnections) → Kind (.leave socketId .newConnections) →
      (if subscription.newConnectionsListen then perform (.join socketId .newConnections)
        else perform (.leave socketId .newConnections) : Promise Unit).Only Kind := by
    intro Kind subscription hjoin hleave
    split
    · exact Program.only_perform hjoin
    · exact Program.only_perform hleave
  rw [handleReconnect, updateConnection]
  cases hobject : isObject (formatMessageAfterReceiveHelper msg) with
  | false => exact ⟨.past trivial, trivial⟩
  | true =>
    rw [if_pos rfl]
    refine savesOnly_save (fun hprint => hfields hobject ?_) (fun subscription => hrooms subscription trivial trivial)
      fun subscription => hrooms subscription trivial trivial
    rwa [prop_reconnectionData (message_proper msg) (by simp)] at hprint

theorem leaving_handleDisconnect (socketId : String) : Leaving socketId (handleDisconnect socketId) :=
  ⟨socketId, .newConnections, _, rfl, finding_delete socketId⟩

end handlers

/-- The disconnection of a socket, its connection and its reconnections, each
with the clock that it reads. -/
def handlersPool (host : Host) (socketId : String) (connection : Clock) (reconnections : List (Clock × String))
    (s : Infra ids) : Pool ids :=
  program.Pool.start s (handleDisconnect socketId :: handleConnection host connection socketId ::
    reconnections.map fun reconnection => handleReconnect host reconnection.1 socketId reconnection.2)

/-- A message of a socket that names no identifier but its own, or that is not
saved at all. -/
def KeepsOwn (socketId msg : String) : Prop :=
  isObject (formatMessageAfterReceiveHelper msg) = true →
    ((formatMessageAfterReceiveHelper msg).prop "_id").unprintable = false →
    NamesNoOther socketId (formatMessageAfterReceiveHelper msg)

theorem savesOnly_handlers {Fields : List (String × Value) → Prop} {Target : String → Prop} {host : Host}
    {socketId : String} {connection : Clock} {reconnections : List (Clock × String)} {s : Infra ids}
    (hconnection : Fields
      (SubscriptionEntity.new host (connection 0) (.obj [("subscriptionId", .str socketId)])).attributes)
    (hreconnections : ∀ reconnection ∈ reconnections,
      isObject (formatMessageAfterReceiveHelper reconnection.2) = true →
      ((formatMessageAfterReceiveHelper reconnection.2).prop "_id").unprintable = false →
      Fields (SubscriptionEntity.new host (reconnection.1 0)
        (reconnectionData socketId (formatMessageAfterReceiveHelper reconnection.2))).attributes) (thread : Nat)
    {p : Promise Unit}
    (hp : (handlersPool host socketId connection reconnections s).threads[thread + 1]? = some p) :
    SavesOnly Fields Target socketId p := by
  rw [handlersPool, program.Pool.start, List.getElem?_cons_succ] at hp
  obtain rfl | hmem := List.mem_cons.mp (List.mem_of_getElem? hp)
  · exact savesOnly_handleConnection host connection socketId hconnection
  · obtain ⟨reconnection, hreconnection, rfl⟩ := List.mem_map.mp hmem
    exact savesOnly_handleReconnect host reconnection.1 socketId reconnection.2
      (hreconnections reconnection hreconnection)

section zombie

variable (host : Host) (socketId : String) (connection : Clock) (reconnections : List (Clock × String)) (s : Infra ids)

theorem anySave_start : HeldRace (deletesAll socketId s.subscriptions) (fun _ => True) socketId
    (AnySave socketId s.subscriptions) (handlersPool host socketId connection reconnections s) where
  deletion := by
    have htracked : Tracked socketId s.subscriptions s.subscriptions :=
      ⟨Nat.le_refl _, fun doc hdoc hcarries => Or.inl ⟨doc, hdoc, hcarries, rfl⟩⟩
    exact ⟨_, rfl, .leaving ⟨by simp [Looked, handlersPool, program.Pool.start], htracked⟩
      (fun ⟨_, hmem, _⟩ => nomatch hmem) (leaving_handleDisconnect socketId)⟩
  others := by
    intro thread p hp
    have hsaves : SavesOnly (fun _ => True) (Related socketId s.subscriptions) socketId p :=
      savesOnly_handlers trivial (fun _ _ _ _ => trivial) thread hp
    exact ⟨⟨Nat.le_refl _, fun doc hdoc hcarries => Or.inl ⟨doc, hdoc, hcarries, rfl⟩⟩, hsaves.phase, hsaves.keeps⟩
  cleared := fun ⟨_, hmem, _⟩ => nomatch hmem
  held := fun hset => nomatch (first_of_after hset).choose_spec.1

theorem ownSave_start (hown : ∀ reconnection ∈ reconnections, KeepsOwn socketId reconnection.2) :
    Race (deletesOne socketId s.subscriptions) socketId (OwnSave socketId)
      (handlersPool host socketId connection reconnections s) where
  deletion := by
    refine ⟨_, rfl, .leaving ⟨by simp [Looked, handlersPool, program.Pool.start], Nat.le_refl _, ?_⟩
      (fun ⟨_, hmem, _⟩ => nomatch hmem) (leaving_handleDisconnect socketId)⟩
    change carrying s.subscriptions socketId =
      carrying s.subscriptions socketId + (s.subscriptions.inserted - s.subscriptions.inserted)
    omega
  others := by
    intro thread p hp
    have hsaves : SavesOnly (OwnFields socketId) (Known s.subscriptions socketId) socketId p := by
      refine savesOnly_handlers (ownFields_of_owned rfl) (fun reconnection hmem hobject hprint => ?_) thread hp
      exact ownFields_of_owned ((owned_iff (message_proper reconnection.2)).mpr (hown reconnection hmem hobject hprint))
    exact ⟨hsaves.phase, hsaves.keeps⟩
  cleared := fun ⟨_, hmem, _⟩ => nomatch hmem

end zombie

/-- After all handlers of a socket have finished, whatever their messages and
their order, no document of it is left if at most one had come about and nothing
was saved after the disconnection looked for it, and no cache entry is left if
none was set after the disconnection cleared it. For messages that name no other
identifier, and where no entry expired, these conditions are exact. -/
theorem no_entry_after_disconnect (host : Host) (socketId : String) (connection : Clock)
    (reconnections : List (Clock × String)) (s : Infra ids) (schedule : List (Move Expiry))
    (hfinished : ((handlersPool host socketId connection reconnections s).run schedule).Finished) :
    (total socketId s.subscriptions
        ((handlersPool host socketId connection reconnections s).run schedule).state.subscriptions ≤ 1 →
      ¬ AfterLook InsertsOrUpdates socketId
        ((handlersPool host socketId connection reconnections s).run schedule).history →
      findBySubscriptionId?
        ((handlersPool host socketId connection reconnections s).run schedule).state.subscriptions socketId = none) ∧
    (¬ SetAfterDelete (cacheKey socketId)
        ((handlersPool host socketId connection reconnections s).run schedule).history →
      ((handlersPool host socketId connection reconnections s).run schedule).state.redis.get
        (cacheKey socketId) = none) ∧
    ((∀ reconnection ∈ reconnections, KeepsOwn socketId reconnection.2) →
      (findBySubscriptionId?
          ((handlersPool host socketId connection reconnections s).run schedule).state.subscriptions socketId = none ↔
        total socketId s.subscriptions
            ((handlersPool host socketId connection reconnections s).run schedule).state.subscriptions ≤ 1 ∧
          ¬ AfterLook Inserts socketId
            ((handlersPool host socketId connection reconnections s).run schedule).history)) ∧
    ((∀ key, Move.event key ∉ schedule) →
      (((handlersPool host socketId connection reconnections s).run schedule).state.redis.get
          (cacheKey socketId) = none ↔
        ¬ SetAfterDelete (cacheKey socketId)
          ((handlersPool host socketId connection reconnections s).run schedule).history)) := by
  have hcompatible := anySave_compatible socketId s.subscriptions
  have hstart := anySave_start host socketId connection reconnections s
  have hany := hstart.toRace.run hcompatible schedule
  obtain ⟨hdeleted, _, hnone⟩ := hany.finished hfinished
  refine ⟨fun hfew hunsaved => findOne_eq_none_iff.mpr (hnone hfew hunsaved), hany.cleared hdeleted,
    fun hown => ?_, fun hlive => ⟨fun hget hset => ?_, hany.cleared hdeleted⟩⟩
  · have hrace := (ownSave_start host socketId connection reconnections s hown).run
      (ownSave_compatible socketId s.subscriptions) schedule
    obtain ⟨_, _, _, hcount⟩ := hrace.finished hfinished
    rw [findOne_eq_none_iff]
    obtain ⟨hcount, hmore⟩ | ⟨hcount, hsome⟩ := hcount
    · refine ⟨fun hzero => ⟨by omega, fun hafter => ?_⟩, fun h => by omega⟩
      have htwo := hmore hafter
      omega
    · refine ⟨fun hzero => ⟨by omega, fun hafter => ?_⟩, fun h => ?_⟩
      · have hpos := hsome.mp hafter
        omega
      · have hzero := mt hsome.mpr h.2
        omega
  · obtain ⟨text, hheld, _⟩ := (hstart.run hcompatible hlive).held hset
    rw [hget] at hheld
    cases hheld

/-- A disconnection that runs after the whole connection leaves nothing behind. -/
theorem no_entry_after_disconnect_in_turn :
    (total "socket" (Infra.empty : Infra IdSource.counting).subscriptions
        ((handlersPool Host.utc "socket" (fun _ => Time.epoch) [] (Infra.empty : Infra IdSource.counting)).run
          [.turn 1, .turn 1, .turn 1, .turn 1, .turn 1, .turn 1,
            .turn 0, .turn 0, .turn 0, .turn 0]).state.subscriptions
          ≤ 1 ∧
      ¬ AfterLook Inserts "socket"
        ((handlersPool Host.utc "socket" (fun _ => Time.epoch) [] (Infra.empty : Infra IdSource.counting)).run
          [.turn 1, .turn 1, .turn 1, .turn 1, .turn 1, .turn 1, .turn 0, .turn 0, .turn 0, .turn 0]).history) ∧
    ¬ SetAfterDelete (cacheKey "socket")
        ((handlersPool Host.utc "socket" (fun _ => Time.epoch) [] (Infra.empty : Infra IdSource.counting)).run
          [.turn 1, .turn 1, .turn 1, .turn 1, .turn 1, .turn 1, .turn 0, .turn 0, .turn 0, .turn 0]).history := by
  have hentries := no_entry_after_disconnect Host.utc "socket" (fun _ => Time.epoch) []
    (Infra.empty : Infra IdSource.counting)
    [.turn 1, .turn 1, .turn 1, .turn 1, .turn 1, .turn 1, .turn 0, .turn 0, .turn 0, .turn 0] (fun p hp => by
      obtain rfl | rfl := List.mem_pair.mp hp <;> exact trivial)
  exact ⟨(hentries.2.2.1 (by simp)).mp rfl, (hentries.2.2.2 (by simp)).mp rfl⟩

/-- The disconnection takes its first step after every other handler did. -/
def StartsLast (others : Nat) (schedule : List (Move Expiry)) : Prop :=
  ∀ front, front ++ [.turn 0] <+: schedule → ∀ thread < others, Move.turn (thread + 1) ∈ front

/-- A connection that looked for its document before the disconnection and
inserts it afterwards leaves the subscription behind. -/
theorem no_entry_after_disconnect_zombie :
    ¬ ∀ (reconnections : List (Clock × String)) (schedule : List (Move Expiry)),
      StartsLast (reconnections.length + 1) schedule →
      ((handlersPool Host.utc "socket" (fun _ => Time.epoch) reconnections
        (Infra.empty : Infra IdSource.counting)).run schedule).Finished →
      findBySubscriptionId? ((handlersPool Host.utc "socket" (fun _ => Time.epoch) reconnections
        (Infra.empty : Infra IdSource.counting)).run schedule).state.subscriptions "socket" = none ∧
      ((handlersPool Host.utc "socket" (fun _ => Time.epoch) reconnections
        (Infra.empty : Infra IdSource.counting)).run schedule).state.redis.get (cacheKey "socket") = none := by
  intro h
  have hlast : StartsLast 1
      [.turn 1, .turn 0, .turn 0, .turn 0, .turn 1, .turn 1, .turn 1, .turn 1, .turn 1] := by
    intro front hfront thread hthread
    obtain rfl : thread = 0 := by omega
    cases front with
    | nil => cases (List.cons_prefix_cons.mp hfront).1
    | cons first rest =>
      rw [List.cons_append, List.cons_prefix_cons] at hfront
      rw [hfront.1]
      exact List.mem_cons_self
  have hnone := (h [] _ hlast (fun p hp => by
    obtain rfl | rfl := List.mem_pair.mp hp <;> exact trivial)).2
  have hentry : ∃ text, ((handlersPool Host.utc "socket" (fun _ => Time.epoch) []
      (Infra.empty : Infra IdSource.counting)).run
      [.turn 1, .turn 0, .turn 0, .turn 0, .turn 1, .turn 1, .turn 1, .turn 1, .turn 1]).state.redis.get
        (cacheKey "socket") = some text := ⟨_, rfl⟩
  obtain ⟨text, hentry⟩ := hentry
  rw [hnone] at hentry
  cases hentry

end node_backend.web_socket_server
