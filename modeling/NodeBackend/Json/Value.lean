import NodeBackend.Json.Number

namespace json

/-- A JSON value as a tree. Objects list their fields in property order. -/
inductive Value
  | null
  | bool (b : Bool)
  | num (n : Number)
  | str (s : String)
  | arr (items : List Value)
  | obj (fields : List (String × Value))

/-- Induction over values with one hypothesis for every item and every field. -/
@[induction_eliminator]
theorem Value.induction {P : Value → Prop} (null : P .null) (bool : ∀ b, P (.bool b))
    (num : ∀ n, P (.num n)) (str : ∀ s, P (.str s))
    (arr : ∀ items, (∀ item ∈ items, P item) → P (.arr items))
    (obj : ∀ fields, (∀ field ∈ fields, P field.2) → P (.obj fields)) : ∀ v, P v := by
  intro v
  refine Value.rec (motive_1 := P) (motive_2 := fun items => ∀ item ∈ items, P item)
    (motive_3 := fun fields => ∀ field ∈ fields, P field.2) (motive_4 := fun field => P field.2)
    null bool num str arr obj ?_ ?_ ?_ ?_ ?_ v
  · simp
  · intro item items hitem hitems
    simpa using ⟨hitem, hitems⟩
  · simp
  · intro field fields hfield hfields other hother
    rcases List.mem_cons.mp hother with rfl | htail
    · exact hfield
    · exact hfields other htail
  · intro name value hvalue
    exact hvalue

/-- Induction over the items of arrays inside of arrays. -/
theorem Value.items_induction {P : List Value → Prop}
    (h : ∀ items, (∀ inner, .arr inner ∈ items → P inner) → P items) (items : List Value) : P items := by
  have hvalue : ∀ (v : Value) (inner : List Value), v = .arr inner → P inner := by
    intro v
    induction v with
    | arr items ih =>
      intro other heq
      cases heq
      exact h _ fun inner hinner => ih _ hinner inner rfl
    | _ =>
      intro inner heq
      cases heq
  exact hvalue (.arr items) items rfl

/-- Every object of the value, at any depth, names each of its keys once. -/
inductive Value.KeysOnce : Value → Prop
  | null : KeysOnce .null
  | bool (b : Bool) : KeysOnce (.bool b)
  | num (n : Number) : KeysOnce (.num n)
  | str (s : String) : KeysOnce (.str s)
  | arr {items : List Value} (hitems : ∀ item ∈ items, KeysOnce item) : KeysOnce (.arr items)
  | obj {fields : List (String × Value)} (hkeys : (fields.map Prod.fst).Nodup)
      (hfields : ∀ field ∈ fields, KeysOnce field.2) : KeysOnce (.obj fields)

theorem Value.keysOnce_arr_iff {items : List Value} :
    (Value.arr items).KeysOnce ↔ ∀ item ∈ items, item.KeysOnce :=
  ⟨fun h => by cases h; assumption, .arr⟩

theorem Value.keysOnce_obj_iff {fields : List (String × Value)} :
    (Value.obj fields).KeysOnce ↔ (fields.map Prod.fst).Nodup ∧ ∀ field ∈ fields, field.2.KeysOnce :=
  ⟨fun h => by cases h; exact ⟨‹_›, ‹_›⟩, fun h => .obj h.1 h.2⟩

/-- A value that a program can have: no object repeats a key, and every number is finite. -/
inductive Value.Proper : Value → Prop
  | null : Proper .null
  | bool (b : Bool) : Proper (.bool b)
  | num {n : Number} (hfinite : n.isFinite = true) : Proper (.num n)
  | str (s : String) : Proper (.str s)
  | arr {items : List Value} (hitems : ∀ item ∈ items, Proper item) : Proper (.arr items)
  | obj {fields : List (String × Value)} (hkeys : (fields.map Prod.fst).Nodup)
      (hfields : ∀ field ∈ fields, Proper field.2) : Proper (.obj fields)

theorem Value.proper_num_iff {n : Number} : (Value.num n).Proper ↔ n.isFinite = true :=
  ⟨fun h => by cases h; assumption, .num⟩

theorem Value.proper_arr_iff {items : List Value} :
    (Value.arr items).Proper ↔ ∀ item ∈ items, item.Proper :=
  ⟨fun h => by cases h; assumption, .arr⟩

theorem Value.proper_obj_iff {fields : List (String × Value)} :
    (Value.obj fields).Proper ↔ (fields.map Prod.fst).Nodup ∧ ∀ field ∈ fields, field.2.Proper :=
  ⟨fun h => by cases h; exact ⟨‹_›, ‹_›⟩, fun h => .obj h.1 h.2⟩

theorem Value.Proper.keysOnce {v : Value} (hproper : v.Proper) : v.KeysOnce := by
  induction hproper with
  | null => exact .null
  | bool b => exact .bool b
  | num => exact .num _
  | str s => exact .str s
  | arr _ ih => exact .arr ih
  | obj hkeys _ ih => exact .obj hkeys ih

/-- A JSON value none of whose objects repeats a key, and with finite numbers. -/
structure ProperValue where
  value : Value
  proper : value.Proper

/-- Write a field: an existing key keeps its place, a new one goes last. -/
def setField {V : Type} : List (String × V) → String → V → List (String × V)
  | [], key, value => [(key, value)]
  | (k, v) :: rest, key, value =>
    if k = key then (k, value) :: rest else (k, v) :: setField rest key value

theorem lookup_cons_of_ne {V : Type} {key other : String} (value : V) (rest : List (String × V))
    (hne : other ≠ key) : ((key, value) :: rest).lookup other = rest.lookup other := by
  have hbeq : (other == key) = false := by simpa using hne
  rw [List.lookup_cons, hbeq]

theorem lookup_map {V W : Type} (f : V → W) (fields : List (String × V)) (key : String) :
    (fields.map fun field => (field.1, f field.2)).lookup key = (fields.lookup key).map f := by
  induction fields with
  | nil => rfl
  | cons field rest ih =>
    obtain ⟨other, value⟩ := field
    rw [List.map_cons, List.lookup_cons, List.lookup_cons, ih]
    cases key == other <;> rfl

theorem mem_of_lookup {V : Type} {fields : List (String × V)} {key : String} {value : V}
    (h : fields.lookup key = some value) : (key, value) ∈ fields := by
  induction fields with
  | nil => cases h
  | cons field rest ih =>
    obtain ⟨name, first⟩ := field
    by_cases hkey : key = name
    · subst hkey
      rw [List.lookup_cons_self, Option.some.injEq] at h
      subst h
      exact List.mem_cons_self
    · rw [lookup_cons_of_ne _ _ hkey] at h
      exact List.mem_cons_of_mem _ (ih h)

theorem lookup_eq_some_iff_of_nodup {V : Type} {fields : List (String × V)} (hkeys : (fields.map Prod.fst).Nodup)
    {key : String} {value : V} : fields.lookup key = some value ↔ (key, value) ∈ fields := by
  refine ⟨mem_of_lookup, fun hmem => ?_⟩
  induction fields with
  | nil => cases hmem
  | cons field rest ih =>
    rw [List.map_cons, List.nodup_cons] at hkeys
    obtain rfl | htail := List.mem_cons.mp hmem
    · exact List.lookup_cons_self
    · have hne : key ≠ field.1 := fun heq => hkeys.1 (heq ▸ List.mem_map_of_mem htail)
      exact (lookup_cons_of_ne field.2 rest hne).trans (ih hkeys.2 htail)

/-- Where no key repeats, the order of the fields does not matter. -/
theorem lookup_reverse {V : Type} {fields : List (String × V)} (hkeys : (fields.map Prod.fst).Nodup) (key : String) :
    fields.reverse.lookup key = fields.lookup key := by
  have hreverse : (fields.reverse.map Prod.fst).Nodup := by
    rwa [List.map_reverse, List.nodup_reverse]
  refine Option.ext fun value => ?_
  rw [lookup_eq_some_iff_of_nodup hreverse, lookup_eq_some_iff_of_nodup hkeys, List.mem_reverse]

theorem lookup_setField {V : Type} (fields : List (String × V)) (key other : String) (value : V) :
    (setField fields key value).lookup other =
      if other = key then some value else fields.lookup other := by
  induction fields with
  | nil =>
    by_cases h : other = key
    · subst h
      rw [setField, List.lookup_cons_self, if_pos rfl]
    · rw [setField, lookup_cons_of_ne _ _ h, if_neg h]
  | cons field rest ih =>
    obtain ⟨k, v⟩ := field
    rw [setField]
    by_cases hk : k = key
    · subst hk
      by_cases h : other = k
      · subst h
        simp
      · rw [if_pos rfl, lookup_cons_of_ne _ _ h, lookup_cons_of_ne _ _ h, if_neg h]
    · rw [if_neg hk]
      by_cases hother : other = k
      · subst hother
        simp [hk]
      · rw [lookup_cons_of_ne _ _ hother, lookup_cons_of_ne _ _ hother, ih]

theorem setField_keys_of_mem {V : Type} {fields : List (String × V)} {key : String} (value : V)
    (hmem : key ∈ fields.map Prod.fst) :
    (setField fields key value).map Prod.fst = fields.map Prod.fst := by
  induction fields with
  | nil => simp at hmem
  | cons field rest ih =>
    obtain ⟨k, v⟩ := field
    rw [setField]
    by_cases hk : k = key
    · simp [hk]
    · have hrest : key ∈ rest.map Prod.fst := by
        rcases List.mem_cons.mp hmem with heq | htail
        · exact absurd heq.symm hk
        · exact htail
      rw [if_neg hk, List.map_cons, ih hrest, List.map_cons]

theorem setField_of_not_mem {V : Type} {fields : List (String × V)} {key : String} (value : V)
    (hmem : key ∉ fields.map Prod.fst) : setField fields key value = fields ++ [(key, value)] := by
  induction fields with
  | nil => rfl
  | cons field rest ih =>
    obtain ⟨k, v⟩ := field
    simp only [List.map_cons, List.mem_cons, not_or] at hmem
    rw [setField, if_neg (Ne.symm hmem.1), ih hmem.2, List.cons_append]

theorem setField_nodup {V : Type} {fields : List (String × V)} (key : String) (value : V)
    (hkeys : (fields.map Prod.fst).Nodup) : ((setField fields key value).map Prod.fst).Nodup := by
  by_cases hmem : key ∈ fields.map Prod.fst
  · rwa [setField_keys_of_mem value hmem]
  · rw [setField_of_not_mem value hmem, List.map_append]
    refine List.nodup_append.mpr ⟨hkeys, by simp, ?_⟩
    intro a ha b hb heq
    rw [List.map_singleton, List.mem_singleton] at hb
    subst hb heq
    exact hmem ha

theorem mem_setField {V : Type} {fields : List (String × V)} {key : String} {value : V}
    {field : String × V} (hmem : field ∈ setField fields key value) :
    field ∈ fields ∨ field = (key, value) := by
  induction fields with
  | nil => exact Or.inr (List.mem_singleton.mp hmem)
  | cons head rest ih =>
    obtain ⟨k, v⟩ := head
    rw [setField] at hmem
    by_cases hk : k = key
    · rw [if_pos hk] at hmem
      rcases List.mem_cons.mp hmem with rfl | htail
      · exact Or.inr (by rw [hk])
      · exact Or.inl (List.mem_cons_of_mem _ htail)
    · rw [if_neg hk] at hmem
      rcases List.mem_cons.mp hmem with rfl | htail
      · exact Or.inl List.mem_cons_self
      · exact (ih htail).imp_left (List.mem_cons_of_mem _)

/-- Write fields one after another, so that the last writer of a key wins. -/
def setFields {V : Type} (fields updates : List (String × V)) : List (String × V) :=
  updates.foldl (fun acc field => setField acc field.1 field.2) fields

theorem setFields_nodup {V : Type} {fields : List (String × V)} (updates : List (String × V))
    (hkeys : (fields.map Prod.fst).Nodup) : ((setFields fields updates).map Prod.fst).Nodup := by
  induction updates generalizing fields with
  | nil => exact hkeys
  | cons update updates ih => exact ih (setField_nodup update.1 update.2 hkeys)

theorem mem_setFields {V : Type} {fields updates : List (String × V)} {field : String × V}
    (hmem : field ∈ setFields fields updates) : field ∈ fields ∨ field ∈ updates := by
  induction updates generalizing fields with
  | nil => exact Or.inl hmem
  | cons update updates ih =>
    rcases ih hmem with hset | htail
    · rcases mem_setField hset with hold | rfl
      · exact Or.inl hold
      · exact Or.inr List.mem_cons_self
    · exact Or.inr (List.mem_cons_of_mem _ htail)

/-- Appending fresh, distinct keys one by one is list concatenation. -/
theorem setFields_append {V : Type} {fields updates : List (String × V)}
    (hkeys : ((fields ++ updates).map Prod.fst).Nodup) :
    setFields fields updates = fields ++ updates := by
  induction updates generalizing fields with
  | nil => simp [setFields]
  | cons update updates ih =>
    obtain ⟨key, value⟩ := update
    have hfresh : key ∉ fields.map Prod.fst := by
      rw [List.map_append, List.nodup_append] at hkeys
      exact fun hmem => hkeys.2.2 key hmem key (by simp) rfl
    change setFields (setField fields key value) updates = _
    rw [setField_of_not_mem value hfresh, ih (by simpa using hkeys), List.append_assoc,
      List.singleton_append]

/-- A key reads as its last update, or as before when no update names it. -/
theorem lookup_setFields {V : Type} (fields updates : List (String × V)) (key : String) :
    (setFields fields updates).lookup key =
      (updates.reverse.lookup key).or (fields.lookup key) := by
  induction updates generalizing fields with
  | nil => simp [setFields]
  | cons update updates ih =>
    obtain ⟨name, value⟩ := update
    change (setFields (setField fields name value) updates).lookup key = _
    rw [ih, lookup_setField, List.reverse_cons, List.lookup_append, Option.or_assoc]
    congr 1
    by_cases hkey : key = name
    · subst hkey
      simp
    · rw [if_neg hkey, lookup_cons_of_ne _ _ hkey]
      simp

mutual

/-- The value with repeated keys merged in every object, the last one of a key
giving its value and the first one its place. -/
def Value.merged : Value → Value
  | .arr items => .arr (mergedItems items)
  | .obj fields => .obj (setFields [] (mergedFields fields))
  | .null => .null
  | .bool b => .bool b
  | .num n => .num n
  | .str s => .str s

def mergedItems : List Value → List Value
  | [] => []
  | item :: rest => item.merged :: mergedItems rest

def mergedFields : List (String × Value) → List (String × Value)
  | [] => []
  | (key, value) :: rest => (key, value.merged) :: mergedFields rest

end

theorem mergedItems_eq_map (items : List Value) : mergedItems items = items.map Value.merged := by
  induction items with
  | nil => rfl
  | cons item rest ih => rw [mergedItems, ih, List.map_cons]

theorem mergedFields_eq_map (fields : List (String × Value)) :
    mergedFields fields = fields.map fun field => (field.1, field.2.merged) := by
  induction fields with
  | nil => rfl
  | cons field rest ih => rw [mergedFields, ih, List.map_cons]

theorem Value.merged_arr (items : List Value) : (Value.arr items).merged = .arr (items.map Value.merged) := by
  rw [Value.merged, mergedItems_eq_map]

theorem Value.merged_obj (fields : List (String × Value)) :
    (Value.obj fields).merged = .obj (setFields [] (fields.map fun field => (field.1, field.2.merged))) := by
  rw [Value.merged, mergedFields_eq_map]

/-- A value that repeats no key has nothing to merge. -/
theorem Value.merged_of_keysOnce {v : Value} (hkeys : v.KeysOnce) : v.merged = v := by
  induction v with
  | null => rfl
  | bool b => rfl
  | num n => rfl
  | str s => rfl
  | arr items ih =>
    rw [Value.keysOnce_arr_iff] at hkeys
    rw [Value.merged_arr]
    exact congrArg _ ((List.map_congr_left fun item hitem => ih item hitem (hkeys item hitem)).trans
      (List.map_id items))
  | obj fields ih =>
    obtain ⟨hkeys, hfields⟩ := Value.keysOnce_obj_iff.mp hkeys
    have hsame : (fields.map fun field => (field.1, field.2.merged)) = fields := by
      refine (List.map_congr_left fun field hfield => ?_).trans (List.map_id fields)
      rw [ih field hfield (hfields field hfield), id]
    rw [Value.merged_obj, hsame, setFields_append (by simpa using hkeys), List.nil_append]

end json
