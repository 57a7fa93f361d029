import NodeBackend.Js.Value

namespace store

open js

/-- Identifiers handed out one after another, no two the same. -/
structure IdSource where
  hex : Nat → String
  injective : Function.Injective hex

theorem repr_injective : Function.Injective Nat.repr := by
  intro m n h
  have hdigits := congrArg String.toList h
  rw [Nat.toList_repr, Nat.toList_repr] at hdigits
  rw [← Nat.ofDigitChars_ten_toDigits (n := m), hdigits, Nat.ofDigitChars_ten_toDigits]

/-- Identifiers that count insertions. -/
def IdSource.counting : IdSource := ⟨Nat.repr, repr_injective⟩

mutual

/-- A value as a document keeps it: undefined is written as null, and an
Invalid Date as the epoch. -/
def toBson : Value → Value
  | .undefined => .null
  | .date none => .date (some Time.epoch)
  | .arr items => .arr (itemsToBson items)
  | .obj fields => .obj (fieldsToBson fields)
  | v => v

def itemsToBson : List Value → List Value
  | [] => []
  | item :: rest => toBson item :: itemsToBson rest

def fieldsToBson : List (String × Value) → List (String × Value)
  | [] => []
  | (key, value) :: rest => (key, toBson value) :: fieldsToBson rest

end

theorem toBson_str (s : String) : toBson (.str s) = .str s := rfl

theorem itemsToBson_eq_map (items : List Value) : itemsToBson items = items.map toBson := by
  induction items with
  | nil => rfl
  | cons item rest ih => rw [itemsToBson, ih, List.map_cons]

theorem fieldsToBson_eq_map (fields : List (String × Value)) :
    fieldsToBson fields = fields.map fun field => (field.1, toBson field.2) := by
  induction fields with
  | nil => rfl
  | cons field rest ih => rw [fieldsToBson, ih, List.map_cons]

theorem fieldsToBson_keys (fields : List (String × Value)) :
    (fieldsToBson fields).map Prod.fst = fields.map Prod.fst := by
  rw [fieldsToBson_eq_map, List.map_map]
  rfl

theorem toBson_proper {v : Value} (hproper : v.Proper) : (toBson v).Proper := by
  induction v with
  | undefined => exact .null
  | null => exact .null
  | bool b => exact .bool b
  | num n => exact .num n
  | nonFinite n => exact .nonFinite n
  | str s => exact .str s
  | date time => cases time <;> exact .date _
  | objectId hex => exact .objectId hex
  | arr items ih =>
    rw [Value.proper_arr_iff] at hproper
    rw [toBson, itemsToBson_eq_map, Value.proper_arr_iff]
    intro item hitem
    obtain ⟨source, hsource, rfl⟩ := List.mem_map.mp hitem
    exact ih source hsource (hproper source hsource)
  | obj fields ih =>
    rw [Value.proper_obj_iff] at hproper
    rw [toBson, Value.proper_obj_iff, fieldsToBson_keys, fieldsToBson_eq_map]
    refine ⟨hproper.1, fun field hfield => ?_⟩
    obtain ⟨source, hsource, rfl⟩ := List.mem_map.mp hfield
    exact ih source hsource (hproper.2 source hsource)

structure Document where
  id : String
  fields : List (String × Value)

/-- A document as a driver returns it. -/
def Document.toValue (doc : Document) : Value :=
  .obj (("_id", .objectId doc.id) :: doc.fields)

/-- Equality with a string in a filter, which an array meets with one of its items. -/
def equalsOrContains : Value → String → Bool
  | .str s, text => s == text
  | .arr items, text => items.any fun
    | .str s => s == text
    | _ => false
  | _, _ => false

def Document.matches (doc : Document) (key text : String) : Bool :=
  equalsOrContains ((Value.obj doc.fields).prop key) text

/-- A document after `$set` of some fields. -/
def Document.update (doc : Document) (fields : List (String × Value)) : Document :=
  { doc with fields := json.setFields doc.fields (fieldsToBson fields) }

/-- Documents in the order they were inserted, each under an identifier of its own
that the source handed out. -/
structure Collection (ids : IdSource) where
  documents : List Document
  inserted : Nat
  known : ∀ doc ∈ documents, ∃ n < inserted, doc.id = ids.hex n
  distinct : (documents.map Document.id).Nodup

namespace Collection

variable {ids : IdSource}

def empty : Collection ids := ⟨[], 0, by simp, List.nodup_nil⟩

def findOne (collection : Collection ids) (key text : String) : Option Document :=
  collection.documents.find? fun doc => doc.matches key text

def get (collection : Collection ids) (id : String) : Option Document :=
  collection.documents.find? fun doc => doc.id == id

/-- The identifier that the next insertion gets. -/
def nextId (collection : Collection ids) : String :=
  ids.hex collection.inserted

theorem id_ne_nextId (collection : Collection ids) {doc : Document} (hdoc : doc ∈ collection.documents) :
    doc.id ≠ collection.nextId := by
  obtain ⟨n, hn, hid⟩ := collection.known doc hdoc
  intro heq
  exact absurd (ids.injective (hid.symm.trans heq)) hn.ne

def insertOne (collection : Collection ids) (fields : List (String × Value)) : Collection ids where
  documents := collection.documents ++ [⟨collection.nextId, fieldsToBson fields⟩]
  inserted := collection.inserted + 1
  known := by
    intro doc hdoc
    obtain hold | hnew := List.mem_append.mp hdoc
    · obtain ⟨n, hn, hid⟩ := collection.known doc hold
      exact ⟨n, by omega, hid⟩
    · rw [List.mem_singleton.mp hnew]
      exact ⟨collection.inserted, by omega, rfl⟩
  distinct := by
    rw [List.map_append]
    refine List.nodup_append.mpr ⟨collection.distinct, by simp, ?_⟩
    intro a ha b hb
    obtain ⟨doc, hdoc, rfl⟩ := List.mem_map.mp ha
    rw [List.map_singleton, List.mem_singleton] at hb
    rw [hb]
    exact collection.id_ne_nextId hdoc

theorem map_update_id (documents : List Document) (id : String) (fields : List (String × Value)) :
    (documents.map fun doc => if doc.id = id then Document.update doc fields else doc).map Document.id =
      documents.map Document.id := by
  rw [List.map_map]
  apply List.map_congr_left
  intro doc _
  rw [Function.comp_apply]
  split <;> rfl

def updateOne (collection : Collection ids) (id : String) (fields : List (String × Value)) : Collection ids where
  documents := collection.documents.map fun doc => if doc.id = id then Document.update doc fields else doc
  inserted := collection.inserted
  known := by
    intro doc hdoc
    obtain ⟨old, hold, rfl⟩ := List.mem_map.mp hdoc
    obtain ⟨n, hn, hid⟩ := collection.known old hold
    refine ⟨n, hn, ?_⟩
    split <;> exact hid
  distinct := by
    rw [map_update_id]
    exact collection.distinct

def deleteOne (collection : Collection ids) (id : String) : Collection ids where
  documents := collection.documents.filter fun doc => doc.id != id
  inserted := collection.inserted
  known := fun doc hdoc => collection.known doc (List.mem_of_mem_filter hdoc)
  distinct := (List.filter_sublist.map Document.id).nodup collection.distinct

theorem mem_of_findOne {collection : Collection ids} {key text : String} {doc : Document}
    (h : collection.findOne key text = some doc) : doc ∈ collection.documents ∧ doc.matches key text = true :=
  ⟨List.mem_of_find?_eq_some h, List.find?_some (p := fun doc => Document.matches doc key text) h⟩

/-- A document is found again by its identifier. -/
theorem get_of_mem {collection : Collection ids} {doc : Document} (hdoc : doc ∈ collection.documents) :
    collection.get doc.id = some doc := by
  cases hget : collection.get doc.id with
  | none =>
    have hnone := List.find?_eq_none.mp hget doc hdoc
    simp at hnone
  | some other =>
    have hid : other.id = doc.id := by simpa using List.find?_some hget
    rw [List.inj_on_of_nodup_map collection.distinct (List.mem_of_find?_eq_some hget) hdoc hid]

theorem findOne_insertOne (collection : Collection ids) (fields : List (String × Value)) (key text : String) :
    (collection.insertOne fields).findOne key text = (collection.findOne key text).or
      (if Document.matches ⟨collection.nextId, fieldsToBson fields⟩ key text
        then some ⟨collection.nextId, fieldsToBson fields⟩ else none) := by
  rw [findOne, insertOne, List.find?_append, List.find?_singleton, findOne]

theorem get_insertOne (collection : Collection ids) (fields : List (String × Value)) :
    (collection.insertOne fields).get collection.nextId = some ⟨collection.nextId, fieldsToBson fields⟩ := by
  have hmem : (⟨collection.nextId, fieldsToBson fields⟩ : Document) ∈ (collection.insertOne fields).documents :=
    List.mem_append_right _ (List.mem_singleton.mpr rfl)
  exact get_of_mem hmem

theorem mem_updateOne {collection : Collection ids} {id : String} {fields : List (String × Value)} {doc : Document} :
    doc ∈ (collection.updateOne id fields).documents ↔
      ∃ old ∈ collection.documents, doc = if old.id = id then old.update fields else old := by
  rw [updateOne, List.mem_map]
  exact ⟨fun ⟨old, hold, heq⟩ => ⟨old, hold, heq.symm⟩, fun ⟨old, hold, heq⟩ => ⟨old, hold, heq.symm⟩⟩

theorem get_updateOne {collection : Collection ids} {doc : Document} (hdoc : doc ∈ collection.documents)
    (fields : List (String × Value)) : (collection.updateOne doc.id fields).get doc.id = some (doc.update fields) := by
  have hmem : doc.update fields ∈ (collection.updateOne doc.id fields).documents :=
    mem_updateOne.mpr ⟨doc, hdoc, by rw [if_pos rfl]⟩
  exact get_of_mem hmem

/-- Where an update does not change whether its document matches, what is found is at
the same place. -/
theorem findOne_updateOne_of_matches_eq {collection : Collection ids} {key text : String} {doc : Document}
    {fields : List (String × Value)} (hdoc : doc ∈ collection.documents)
    (hsame : (doc.update fields).matches key text = doc.matches key text) :
    (collection.updateOne doc.id fields).findOne key text =
      (collection.findOne key text).map fun other => if other.id = doc.id then other.update fields else other := by
  rw [findOne, updateOne, List.find?_map, findOne]
  congr 1
  refine List.find?_congr fun other hother => ?_
  rw [Function.comp_apply]
  by_cases hid : other.id = doc.id
  · rw [if_pos hid, List.inj_on_of_nodup_map collection.distinct hother hdoc hid, hsame]
  · rw [if_neg hid]

/-- An update of a document that keeps matching is found in its place. -/
theorem findOne_updateOne_self {collection : Collection ids} {key text : String} {doc : Document}
    {fields : List (String × Value)} (hfound : collection.findOne key text = some doc)
    (hmatches : (doc.update fields).matches key text = true) :
    (collection.updateOne doc.id fields).findOne key text = some (doc.update fields) := by
  obtain ⟨hdoc, hold⟩ := mem_of_findOne hfound
  rw [findOne_updateOne_of_matches_eq hdoc (hmatches.trans hold.symm), hfound, Option.map_some, if_pos rfl]

/-- Documents that match neither before nor after an update are found as before. -/
theorem findOne_updateOne_of_not_matches {collection : Collection ids} {key text : String} {doc : Document}
    {fields : List (String × Value)} (hdoc : doc ∈ collection.documents) (hold : doc.matches key text = false)
    (hnew : (doc.update fields).matches key text = false) :
    (collection.updateOne doc.id fields).findOne key text = collection.findOne key text := by
  rw [findOne_updateOne_of_matches_eq hdoc (hnew.trans hold.symm)]
  cases hfound : collection.findOne key text with
  | none => rfl
  | some found =>
    obtain ⟨hmem, hmatches⟩ := mem_of_findOne hfound
    have hid : found.id ≠ doc.id := by
      intro hid
      rw [List.inj_on_of_nodup_map collection.distinct hmem hdoc hid, hold] at hmatches
      cases hmatches
    rw [Option.map_some, if_neg hid]

theorem findOne_deleteOne_of_not_matches {collection : Collection ids} {key text : String} {doc : Document}
    (hdoc : doc ∈ collection.documents) (hnot : doc.matches key text = false) :
    (collection.deleteOne doc.id).findOne key text = collection.findOne key text := by
  rw [findOne, deleteOne, List.find?_filter, findOne]
  refine List.find?_congr fun other hother => ?_
  by_cases hid : other.id = doc.id
  · rw [List.inj_on_of_nodup_map collection.distinct hother hdoc hid, hnot]
    simp
  · simp [hid]

end Collection

end store
