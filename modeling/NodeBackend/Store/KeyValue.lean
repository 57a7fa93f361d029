import NodeBackend.Json.Value

namespace store

/-- Texts under distinct keys. -/
structure KeyValue where
  entries : List (String × String)
  keys : (entries.map Prod.fst).Nodup

namespace KeyValue

theorem eq_of_entries_eq {kv kv' : KeyValue} (h : kv.entries = kv'.entries) : kv = kv' := by
  cases kv
  cases kv'
  cases h
  rfl

def empty : KeyValue := ⟨[], List.nodup_nil⟩

def get (kv : KeyValue) (key : String) : Option String :=
  kv.entries.lookup key

def set (kv : KeyValue) (key text : String) : KeyValue :=
  ⟨json.setField kv.entries key text, json.setField_nodup key text kv.keys⟩

def delete (kv : KeyValue) (key : String) : KeyValue :=
  ⟨kv.entries.filter fun entry => entry.1 != key,
    (List.filter_sublist.map Prod.fst).nodup kv.keys⟩

@[simp] theorem get_empty (key : String) : empty.get key = none := rfl

theorem get_set (kv : KeyValue) (key other text : String) :
    (kv.set key text).get other = if other = key then some text else kv.get other :=
  json.lookup_setField kv.entries key other text

@[simp] theorem get_set_self (kv : KeyValue) (key text : String) : (kv.set key text).get key = some text := by
  rw [get_set, if_pos rfl]

theorem get_set_of_ne (kv : KeyValue) {key other : String} (text : String) (hne : other ≠ key) :
    (kv.set key text).get other = kv.get other := by
  rw [get_set, if_neg hne]

theorem lookup_filter_ne {V : Type} (entries : List (String × V)) (key other : String) :
    (entries.filter fun entry => entry.1 != key).lookup other =
      if other = key then none else entries.lookup other := by
  induction entries with
  | nil => simp
  | cons entry rest ih =>
    obtain ⟨k, v⟩ := entry
    by_cases hk : k = key
    · subst hk
      rw [List.filter_cons_of_neg (by simp), ih]
      by_cases hother : other = k
      · rw [if_pos hother, if_pos hother]
      · rw [if_neg hother, if_neg hother, json.lookup_cons_of_ne _ _ hother]
    · rw [List.filter_cons_of_pos (by simpa using hk)]
      by_cases hother : other = k
      · subst hother
        rw [if_neg hk, List.lookup_cons_self, List.lookup_cons_self]
      · rw [json.lookup_cons_of_ne _ _ hother, json.lookup_cons_of_ne _ _ hother, ih]

theorem get_delete (kv : KeyValue) (key other : String) :
    (kv.delete key).get other = if other = key then none else kv.get other :=
  lookup_filter_ne kv.entries key other

@[simp] theorem get_delete_self (kv : KeyValue) (key : String) : (kv.delete key).get key = none := by
  rw [get_delete, if_pos rfl]

theorem get_delete_of_ne (kv : KeyValue) {key other : String} (hne : other ≠ key) :
    (kv.delete key).get other = kv.get other := by
  rw [get_delete, if_neg hne]

theorem get_delete_eq_none {kv : KeyValue} {other : String} (h : kv.get other = none) (key : String) :
    (kv.delete key).get other = none := by
  rw [get_delete, h, ite_self]

/-- An entry left after a deletion was there before it. -/
theorem get_of_get_delete {kv : KeyValue} {key other text : String} (h : (kv.delete key).get other = some text) :
    kv.get other = some text := by
  rw [get_delete] at h
  by_cases hkey : other = key
  · rw [if_pos hkey] at h
    cases h
  · rwa [if_neg hkey] at h

/-- The keys of a store are those under which it has a text. -/
theorem mem_keys_iff {kv : KeyValue} {key : String} : key ∈ kv.entries.map Prod.fst ↔ kv.get key ≠ none := by
  unfold get
  rw [ne_eq, List.lookup_eq_none_iff, List.mem_map]
  constructor
  · intro hstored hnone
    obtain ⟨entry, hentry, hkey⟩ := hstored
    have hne := hnone entry hentry
    simp [hkey] at hne
  · intro h
    push Not at h
    obtain ⟨entry, hentry, hkey⟩ := h
    have hsame : key = entry.1 := by simpa using hkey
    exact ⟨entry, hentry, hsame.symm⟩

end KeyValue

end store
