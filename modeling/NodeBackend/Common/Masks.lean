import NodeBackend.Js.Units
import NodeBackend.Json.Value

namespace node_backend.masks

open json

def SENSITIVE_DATA_FIELDS : List String :=
  ["password", "newPassword", "cvv", "pin", "token"]

def STRING_TO_REPLACE : Value := .str "***"

/-- Keys of the items of an array or the units of a string. -/
def indexKeys (length : Nat) : List String :=
  (List.range length).map Nat.repr

/-- Object.keys, where a primitive other than a string has none. -/
def getObjKeys : Value → List String
  | .obj fields => fields.map Prod.fst
  | .arr items => indexKeys items.length
  | .str s => indexKeys (js.units s).length
  | _ => []

def hasFieldsAtCurrentObjectLevel (obj : Value) (fieldsToApply : List String) : Bool :=
  (getObjKeys obj).any fieldsToApply.contains

mutual

def checkFieldsExistence (fieldsToApply : List String) : Value → Bool
  | .null => false
  | .obj fields =>
    hasFieldsAtCurrentObjectLevel (.obj fields) fieldsToApply || checkProperties fieldsToApply fields
  | .arr items =>
    hasFieldsAtCurrentObjectLevel (.arr items) fieldsToApply || checkElements fieldsToApply items
  | primitive => hasFieldsAtCurrentObjectLevel primitive fieldsToApply

/-- The loop over the keys of a plain object. -/
def checkProperties (fieldsToApply : List String) : List (String × Value) → Bool
  | [] => false
  | (_, .arr items) :: rest => checkSome fieldsToApply items || checkProperties fieldsToApply rest
  | (_, .obj fields) :: rest =>
    checkFieldsExistence fieldsToApply (.obj fields) || checkProperties fieldsToApply rest
  | _ :: rest => checkProperties fieldsToApply rest

/-- The same loop over the keys of an array. -/
def checkElements (fieldsToApply : List String) : List Value → Bool
  | [] => false
  | .arr items :: rest => checkSome fieldsToApply items || checkElements fieldsToApply rest
  | .obj fields :: rest =>
    checkFieldsExistence fieldsToApply (.obj fields) || checkElements fieldsToApply rest
  | _ :: rest => checkElements fieldsToApply rest

/-- Array.some over the items of an array found under a key. -/
def checkSome (fieldsToApply : List String) : List Value → Bool
  | [] => false
  | item :: rest => checkFieldsExistence fieldsToApply item || checkSome fieldsToApply rest

end

def applyFieldReplacement (fieldsToApply : List String) (valueToReplace : Value) : Value → Value
  | .obj fields =>
    .obj (fieldsToApply.foldl (fun acc key =>
      if (acc.lookup key).isSome then setField acc key valueToReplace else acc) fields)
  | other => other

mutual

/-- The object after replaceFields ran on it. -/
def replaceWithin (fieldsToApply : List String) (valueToReplace : Value) : Value → Value
  | .obj fields =>
    applyFieldReplacement fieldsToApply valueToReplace (.obj (replaceProperties fieldsToApply valueToReplace fields))
  | .arr items =>
    applyFieldReplacement fieldsToApply valueToReplace (.arr (replaceElements fieldsToApply valueToReplace items))
  | primitive => primitive

/-- The loop over the keys of a plain object. -/
def replaceProperties (fieldsToApply : List String) (valueToReplace : Value) :
    List (String × Value) → List (String × Value)
  | [] => []
  | (key, .arr items) :: rest =>
    (key, .arr (replaceItems fieldsToApply valueToReplace items)) ::
      replaceProperties fieldsToApply valueToReplace rest
  | (key, .obj fields) :: rest =>
    (key, replaceWithin fieldsToApply valueToReplace (.obj fields)) ::
      replaceProperties fieldsToApply valueToReplace rest
  | field :: rest => field :: replaceProperties fieldsToApply valueToReplace rest

/-- The same loop over the keys of an array. -/
def replaceElements (fieldsToApply : List String) (valueToReplace : Value) : List Value → List Value
  | [] => []
  | .arr items :: rest =>
    .arr (replaceItems fieldsToApply valueToReplace items) :: replaceElements fieldsToApply valueToReplace rest
  | .obj fields :: rest =>
    replaceWithin fieldsToApply valueToReplace (.obj fields) :: replaceElements fieldsToApply valueToReplace rest
  | primitive :: rest => primitive :: replaceElements fieldsToApply valueToReplace rest

/-- The forEach over the items of an array found under a key. -/
def replaceItems (fieldsToApply : List String) (valueToReplace : Value) : List Value → List Value
  | [] => []
  | item :: rest =>
    replaceWithin fieldsToApply valueToReplace item :: replaceItems fieldsToApply valueToReplace rest

end

def replaceFields (fieldsToApply : List String) (valueToReplace : Value) (obj : Value) : Option Value :=
  match obj with
  | .null => none
  | obj => some (replaceWithin fieldsToApply valueToReplace obj)

/-- What a masking call returns: its argument, an object of its own, or null. -/
inductive Masked
  | same (data : Value)
  | copy (data : Value)
  | null

/-- structuredClone makes an exact copy, the same tree under an identity of its own. -/
def cloneObject (obj : Value) : Value := obj

def maskObjectSensitiveData (data : Value) : Masked :=
  match data with
  | .obj _ | .arr _ =>
    if checkFieldsExistence SENSITIVE_DATA_FIELDS data then
      match replaceFields SENSITIVE_DATA_FIELDS STRING_TO_REPLACE (cloneObject data) with
      | some newData => .copy newData
      | none => .null
    else .same data
  | _ => .null

theorem setField_present_eq_map {V : Type} {fields : List (String × V)} (hkeys : (fields.map Prod.fst).Nodup)
    (key : String) (value : V) :
    (if (fields.lookup key).isSome then setField fields key value else fields) =
      fields.map fun field => if field.1 = key then (field.1, value) else field := by
  induction fields with
  | nil => rfl
  | cons field rest ih =>
    obtain ⟨name, old⟩ := field
    rw [List.map_cons, List.nodup_cons] at hkeys
    have hrest := ih hkeys.2
    by_cases hname : key = name
    · subst hname
      have hsame : (rest.map fun field => if field.1 = key then (field.1, value) else field) = rest := by
        refine (List.map_congr_left fun other hother => ?_).trans (List.map_id rest)
        have hne : other.1 ≠ key := fun heq => hkeys.1 (List.mem_map.mpr ⟨other, hother, heq⟩)
        rw [if_neg hne, id]
      rw [List.lookup_cons_self, Option.isSome_some, if_pos rfl, setField, if_pos rfl, List.map_cons, if_pos rfl, hsame]
    · rw [lookup_cons_of_ne _ _ hname, setField, if_neg (Ne.symm hname), List.map_cons, if_neg (Ne.symm hname),
        ← hrest]
      split <;> rfl

/-- Writing those keys that are there changes their fields in place. -/
theorem foldl_setField_eq_map {V : Type} (keys : List String) {fields : List (String × V)}
    (hkeys : (fields.map Prod.fst).Nodup) (value : V) :
    keys.foldl (fun acc key => if (acc.lookup key).isSome then setField acc key value else acc) fields =
      fields.map fun field => if field.1 ∈ keys then (field.1, value) else field := by
  induction keys generalizing fields with
  | nil => simp
  | cons key rest ih =>
    have hset := setField_present_eq_map hkeys key value
    have hkept : ((fields.map fun field => if field.1 = key then (field.1, value) else field).map
        Prod.fst).Nodup := by
      rw [List.map_map]
      refine (List.map_congr_left fun field _ => ?_).symm ▸ hkeys
      rw [Function.comp_apply]
      split <;> rfl
    rw [List.foldl_cons, hset, ih hkept, List.map_map]
    apply List.map_congr_left
    intro field _
    obtain ⟨name, old⟩ := field
    rw [Function.comp_apply]
    by_cases hname : name = key
    · simp [hname]
    · simp [hname]

section loops

variable (fieldsToApply : List String) (valueToReplace : Value)

theorem replaceItems_eq_map (items : List Value) :
    replaceItems fieldsToApply valueToReplace items = items.map (replaceWithin fieldsToApply valueToReplace) := by
  induction items with
  | nil => rfl
  | cons item rest ih => rw [replaceItems, ih, List.map_cons]

theorem replaceWithin_arr_eq (items : List Value) :
    replaceWithin fieldsToApply valueToReplace (.arr items) =
      .arr (replaceElements fieldsToApply valueToReplace items) := by
  rw [replaceWithin, applyFieldReplacement]
  simp

theorem replaceElements_eq_map_of_items {items : List Value}
    (hnested : ∀ inner, .arr inner ∈ items → replaceElements fieldsToApply valueToReplace inner =
      inner.map (replaceWithin fieldsToApply valueToReplace)) :
    replaceElements fieldsToApply valueToReplace items =
      items.map (replaceWithin fieldsToApply valueToReplace) := by
  induction items with
  | nil => rfl
  | cons item rest ih =>
    have hrest := ih fun inner hinner => hnested inner (List.mem_cons_of_mem _ hinner)
    cases item with
    | arr inner =>
      rw [replaceElements, hrest, List.map_cons, replaceWithin_arr_eq, replaceItems_eq_map,
        hnested inner List.mem_cons_self]
    | obj fields => rw [replaceElements, hrest, List.map_cons]
    | _ => rw [replaceElements, hrest, List.map_cons, replaceWithin] <;> simp

/-- Array items are visited alike whether they are reached over the keys of an
array or by forEach. -/
theorem replaceElements_eq_map (items : List Value) :
    replaceElements fieldsToApply valueToReplace items =
      items.map (replaceWithin fieldsToApply valueToReplace) :=
  Value.items_induction (fun _ hnested => replaceElements_eq_map_of_items fieldsToApply valueToReplace hnested) items

theorem replaceWithin_arr (items : List Value) :
    replaceWithin fieldsToApply valueToReplace (.arr items) =
      .arr (items.map (replaceWithin fieldsToApply valueToReplace)) := by
  rw [replaceWithin_arr_eq, replaceElements_eq_map]

theorem replaceProperties_eq_map (fields : List (String × Value)) :
    replaceProperties fieldsToApply valueToReplace fields =
      fields.map fun field => (field.1, replaceWithin fieldsToApply valueToReplace field.2) := by
  induction fields with
  | nil => rfl
  | cons field rest ih =>
    obtain ⟨key, value⟩ := field
    cases value with
    | arr items => rw [replaceProperties, ih, List.map_cons, replaceWithin_arr, replaceItems_eq_map]
    | obj fields => rw [replaceProperties, ih, List.map_cons]
    | _ => rw [replaceProperties, ih, List.map_cons, replaceWithin] <;> simp

theorem applyFieldReplacement_obj {fields : List (String × Value)} (hkeys : (fields.map Prod.fst).Nodup) :
    applyFieldReplacement fieldsToApply valueToReplace (.obj fields) =
      .obj (fields.map fun field => if field.1 ∈ fieldsToApply then (field.1, valueToReplace) else field) := by
  rw [applyFieldReplacement, foldl_setField_eq_map fieldsToApply hkeys]

theorem checkSome_eq_any (items : List Value) :
    checkSome fieldsToApply items = items.any (checkFieldsExistence fieldsToApply) := by
  induction items with
  | nil => rfl
  | cons item rest ih => rw [checkSome, ih, List.any_cons]

end loops

mutual

/-- The value with every field of the given names replaced, at every depth. -/
def maskFields (fieldsToApply : List String) (valueToReplace : Value) : Value → Value
  | .obj fields => .obj (maskFieldList fieldsToApply valueToReplace fields)
  | .arr items => .arr (maskItemList fieldsToApply valueToReplace items)
  | primitive => primitive

def maskFieldList (fieldsToApply : List String) (valueToReplace : Value) :
    List (String × Value) → List (String × Value)
  | [] => []
  | (key, value) :: rest =>
    (key, if key ∈ fieldsToApply then valueToReplace else maskFields fieldsToApply valueToReplace value) ::
      maskFieldList fieldsToApply valueToReplace rest

def maskItemList (fieldsToApply : List String) (valueToReplace : Value) : List Value → List Value
  | [] => []
  | item :: rest =>
    maskFields fieldsToApply valueToReplace item :: maskItemList fieldsToApply valueToReplace rest

end

/-- A field of an object at any depth of the value. -/
inductive FieldOf : Value → String → Value → Prop
  | here {fields : List (String × Value)} {key : String} {value : Value} (hmem : (key, value) ∈ fields) :
      FieldOf (.obj fields) key value
  | field {fields : List (String × Value)} {name key : String} {inner value : Value}
      (hmem : (name, inner) ∈ fields) (hinner : FieldOf inner key value) : FieldOf (.obj fields) key value
  | item {items : List Value} {item value : Value} {key : String} (hmem : item ∈ items)
      (hitem : FieldOf item key value) : FieldOf (.arr items) key value

section exact

variable (fieldsToApply : List String) (valueToReplace : Value)

theorem maskFieldList_eq_map (fields : List (String × Value)) :
    maskFieldList fieldsToApply valueToReplace fields = fields.map fun field =>
      (field.1, if field.1 ∈ fieldsToApply then valueToReplace
        else maskFields fieldsToApply valueToReplace field.2) := by
  induction fields with
  | nil => rfl
  | cons field rest ih => rw [maskFieldList, ih, List.map_cons]

theorem maskItemList_eq_map (items : List Value) :
    maskItemList fieldsToApply valueToReplace items = items.map (maskFields fieldsToApply valueToReplace) := by
  induction items with
  | nil => rfl
  | cons item rest ih => rw [maskItemList, ih, List.map_cons]

/-- Replacing in place visits every position of the tree. -/
theorem replaceWithin_eq_maskFields {v : Value} (hproper : v.Proper) :
    replaceWithin fieldsToApply valueToReplace v = maskFields fieldsToApply valueToReplace v := by
  induction v with
  | null => rw [replaceWithin, maskFields] <;> simp
  | bool b => rw [replaceWithin, maskFields] <;> simp
  | num n => rw [replaceWithin, maskFields] <;> simp
  | str s => rw [replaceWithin, maskFields] <;> simp
  | arr items ih =>
    rw [Value.proper_arr_iff] at hproper
    rw [replaceWithin_arr, maskFields, maskItemList_eq_map]
    exact congrArg _ (List.map_congr_left fun item hitem => ih item hitem (hproper item hitem))
  | obj fields ih =>
    rw [Value.proper_obj_iff] at hproper
    have hkeys : ((fields.map fun field => (field.1, replaceWithin fieldsToApply valueToReplace field.2)).map
        Prod.fst).Nodup := by
      rw [List.map_map]
      exact hproper.1
    rw [replaceWithin, replaceProperties_eq_map, applyFieldReplacement_obj _ _ hkeys, List.map_map, maskFields,
      maskFieldList_eq_map]
    refine congrArg _ (List.map_congr_left fun field hfield => ?_)
    rw [Function.comp_apply, ih field hfield (hproper.2 field hfield)]
    split <;> rfl

theorem maskFields_fieldOf {v value : Value} {key : String}
    (h : FieldOf (maskFields fieldsToApply valueToReplace v) key value) (hkey : key ∈ fieldsToApply)
    (hplain : ∀ name inner, ¬ FieldOf valueToReplace name inner) : value = valueToReplace := by
  induction v with
  | null => cases h
  | bool b => cases h
  | num n => cases h
  | str s => cases h
  | arr items ih =>
    rw [maskFields, maskItemList_eq_map] at h
    cases h with
    | item hmem hitem =>
      obtain ⟨source, hsource, rfl⟩ := List.mem_map.mp hmem
      exact ih source hsource hitem
  | obj fields ih =>
    rw [maskFields, maskFieldList_eq_map] at h
    cases h with
    | here hmem =>
      obtain ⟨source, hsource, heq⟩ := List.mem_map.mp hmem
      obtain ⟨rfl, rfl⟩ := Prod.mk.inj heq
      rw [if_pos hkey]
    | field hmem hinner =>
      obtain ⟨source, hsource, heq⟩ := List.mem_map.mp hmem
      obtain ⟨rfl, rfl⟩ := Prod.mk.inj heq
      by_cases hname : source.1 ∈ fieldsToApply
      · rw [if_pos hname] at hinner
        exact absurd hinner (hplain _ _)
      · rw [if_neg hname] at hinner
        exact ih source hsource hinner

theorem maskFields_eq_self {v : Value} (h : ∀ key value, FieldOf v key value → key ∉ fieldsToApply) :
    maskFields fieldsToApply valueToReplace v = v := by
  induction v with
  | null => rw [maskFields] <;> simp
  | bool b => rw [maskFields] <;> simp
  | num n => rw [maskFields] <;> simp
  | str s => rw [maskFields] <;> simp
  | arr items ih =>
    rw [maskFields, maskItemList_eq_map]
    refine congrArg _ ((List.map_congr_left fun item hitem => ?_).trans (List.map_id items))
    exact ih item hitem fun key value hfield => h key value (.item hitem hfield)
  | obj fields ih =>
    rw [maskFields, maskFieldList_eq_map]
    refine congrArg _ ((List.map_congr_left fun field hfield => ?_).trans (List.map_id fields))
    rw [if_neg (h field.1 field.2 (.here hfield)),
      ih field hfield fun key value hinner => h key value (.field hfield hinner), id]

end exact

/-- Names that no index key can have. -/
def Named (fieldsToApply : List String) : Prop :=
  ∀ key ∈ fieldsToApply, ∀ n : Nat, key ≠ n.repr

section gate

variable {fieldsToApply : List String}

theorem Named.not_index (hnamed : Named fieldsToApply) (length : Nat) :
    (indexKeys length).any fieldsToApply.contains = false := by
  rw [List.any_eq_false]
  intro key hkey
  obtain ⟨n, _, rfl⟩ := List.mem_map.mp hkey
  simpa using fun hmem => hnamed _ hmem n rfl

theorem Named.check_primitive (hnamed : Named fieldsToApply) :
    (∀ b, checkFieldsExistence fieldsToApply (.bool b) = false) ∧
    (∀ n, checkFieldsExistence fieldsToApply (.num n) = false) ∧
    (∀ s, checkFieldsExistence fieldsToApply (.str s) = false) := by
  refine ⟨fun b => ?_, fun n => ?_, fun s => ?_⟩
  · simp [checkFieldsExistence, hasFieldsAtCurrentObjectLevel, getObjKeys]
  · simp [checkFieldsExistence, hasFieldsAtCurrentObjectLevel, getObjKeys]
  · rw [checkFieldsExistence, hasFieldsAtCurrentObjectLevel, getObjKeys, hnamed.not_index] <;> simp

theorem Named.check_arr_eq_elements (hnamed : Named fieldsToApply) (items : List Value) :
    checkFieldsExistence fieldsToApply (.arr items) = checkElements fieldsToApply items := by
  rw [checkFieldsExistence, hasFieldsAtCurrentObjectLevel, getObjKeys, hnamed.not_index, Bool.false_or]

theorem Named.checkElements_eq_any_of_items (hnamed : Named fieldsToApply) {items : List Value}
    (hnested : ∀ inner, .arr inner ∈ items →
      checkElements fieldsToApply inner = inner.any (checkFieldsExistence fieldsToApply)) :
    checkElements fieldsToApply items = items.any (checkFieldsExistence fieldsToApply) := by
  obtain ⟨hbool, hnum, hstr⟩ := hnamed.check_primitive
  induction items with
  | nil => rfl
  | cons item rest ih =>
    have hrest := ih fun inner hinner => hnested inner (List.mem_cons_of_mem _ hinner)
    cases item with
    | arr inner =>
      rw [checkElements, hrest, List.any_cons, hnamed.check_arr_eq_elements, checkSome_eq_any,
        hnested inner List.mem_cons_self]
    | obj fields => rw [checkElements, hrest, List.any_cons]
    | str s => rw [checkElements, hrest, List.any_cons, hstr, Bool.false_or] <;> simp
    | null => rw [checkElements, hrest, List.any_cons, checkFieldsExistence, Bool.false_or] <;> simp
    | bool b => rw [checkElements, hrest, List.any_cons, hbool, Bool.false_or] <;> simp
    | num n => rw [checkElements, hrest, List.any_cons, hnum, Bool.false_or] <;> simp

theorem Named.check_arr (hnamed : Named fieldsToApply) (items : List Value) :
    checkFieldsExistence fieldsToApply (.arr items) = items.any (checkFieldsExistence fieldsToApply) := by
  rw [hnamed.check_arr_eq_elements]
  exact Value.items_induction (fun _ hnested => hnamed.checkElements_eq_any_of_items hnested) items

theorem Named.checkProperties_eq_any (hnamed : Named fieldsToApply) (fields : List (String × Value)) :
    checkProperties fieldsToApply fields = fields.any fun field => checkFieldsExistence fieldsToApply field.2 := by
  obtain ⟨hbool, hnum, hstr⟩ := hnamed.check_primitive
  induction fields with
  | nil => rfl
  | cons field rest ih =>
    obtain ⟨key, value⟩ := field
    cases value with
    | arr items => rw [checkProperties, ih, List.any_cons, hnamed.check_arr, checkSome_eq_any]
    | obj fields => rw [checkProperties, ih, List.any_cons]
    | str s => rw [checkProperties, ih, List.any_cons, hstr, Bool.false_or] <;> simp
    | null => rw [checkProperties, ih, List.any_cons, checkFieldsExistence, Bool.false_or] <;> simp
    | bool b => rw [checkProperties, ih, List.any_cons, hbool, Bool.false_or] <;> simp
    | num n => rw [checkProperties, ih, List.any_cons, hnum, Bool.false_or] <;> simp

/-- The gate opens exactly for the values that have such a field at some depth. -/
theorem Named.checkFieldsExistence_iff (hnamed : Named fieldsToApply) (v : Value) :
    checkFieldsExistence fieldsToApply v = true ↔ ∃ key value, FieldOf v key value ∧ key ∈ fieldsToApply := by
  obtain ⟨hbool, hnum, hstr⟩ := hnamed.check_primitive
  induction v with
  | null => exact ⟨fun h => by simp [checkFieldsExistence] at h, fun ⟨_, _, h, _⟩ => by cases h⟩
  | bool b => exact ⟨fun h => by simp [hbool] at h, fun ⟨_, _, h, _⟩ => by cases h⟩
  | num n => exact ⟨fun h => by simp [hnum] at h, fun ⟨_, _, h, _⟩ => by cases h⟩
  | str s => exact ⟨fun h => by simp [hstr] at h, fun ⟨_, _, h, _⟩ => by cases h⟩
  | arr items ih =>
    rw [hnamed.check_arr, List.any_eq_true]
    constructor
    · rintro ⟨item, hmem, hitem⟩
      obtain ⟨key, value, hfield, hkey⟩ := (ih item hmem).mp hitem
      exact ⟨key, value, .item hmem hfield, hkey⟩
    · rintro ⟨key, value, hfield, hkey⟩
      cases hfield with
      | item hmem hitem => exact ⟨_, hmem, (ih _ hmem).mpr ⟨key, value, hitem, hkey⟩⟩
  | obj fields ih =>
    rw [checkFieldsExistence, hnamed.checkProperties_eq_any, Bool.or_eq_true, hasFieldsAtCurrentObjectLevel, getObjKeys,
      List.any_eq_true, List.any_eq_true]
    constructor
    · rintro (⟨key, hmem, hkey⟩ | ⟨field, hmem, hinner⟩)
      · obtain ⟨⟨_, value⟩, hfield, rfl⟩ := List.mem_map.mp hmem
        exact ⟨_, value, .here hfield, by simpa using hkey⟩
      · obtain ⟨key, value, hfield, hkey⟩ := (ih field hmem).mp hinner
        exact ⟨key, value, .field hmem hfield, hkey⟩
    · rintro ⟨key, value, hfield, hkey⟩
      cases hfield with
      | here hmem => exact Or.inl ⟨key, List.mem_map_of_mem hmem, by simpa using hkey⟩
      | field hmem hinner => exact Or.inr ⟨_, hmem, (ih _ hmem).mpr ⟨key, value, hinner, hkey⟩⟩

end gate

theorem sensitive_named : Named SENSITIVE_DATA_FIELDS := by
  intro key hkey n heq
  have hdigits : ∀ c ∈ key.toList, c.isDigit = true := by
    rw [heq, Nat.toList_repr]
    exact fun c hc => Nat.isDigit_of_mem_toDigits (by simp) (by simp) hc
  have hletters : SENSITIVE_DATA_FIELDS.all (fun key => !key.toList.all Char.isDigit) = true := by decide +kernel
  have hletter := List.all_eq_true.mp hletters key hkey
  rw [List.all_eq_true.mpr hdigits] at hletter
  cases hletter

/-- An object or array, as a value. -/
def IsObject (v : Value) : Prop :=
  (∃ fields, v = .obj fields) ∨ ∃ items, v = .arr items

/-- The value that a masking call returns, whichever object holds it. -/
def Masked.value : Masked → Value
  | .same data => data
  | .copy data => data
  | .null => .null

theorem mask_object {d : Value} (hproper : d.Proper) (hobject : IsObject d) :
    maskObjectSensitiveData d =
      if checkFieldsExistence SENSITIVE_DATA_FIELDS d then
        .copy (maskFields SENSITIVE_DATA_FIELDS STRING_TO_REPLACE d)
      else .same d := by
  obtain ⟨fields, rfl⟩ | ⟨items, rfl⟩ := hobject
  · rw [maskObjectSensitiveData, cloneObject, replaceFields, replaceWithin_eq_maskFields _ _ hproper]
    simp
  · rw [maskObjectSensitiveData, cloneObject, replaceFields, replaceWithin_eq_maskFields _ _ hproper]
    simp

/-- Masking replaces exactly the sensitive fields at every depth, none survives,
and an object without one is returned itself. -/
theorem maskObjectSensitiveData_exact (d : ProperValue) (hobject : IsObject d.value) :
    (maskObjectSensitiveData d.value).value = maskFields SENSITIVE_DATA_FIELDS STRING_TO_REPLACE d.value ∧
    (∀ key value, FieldOf (maskObjectSensitiveData d.value).value key value → key ∈ SENSITIVE_DATA_FIELDS →
      value = STRING_TO_REPLACE) ∧
    ((∀ key value, FieldOf d.value key value → key ∉ SENSITIVE_DATA_FIELDS) →
      maskObjectSensitiveData d.value = .same d.value) ∧
    ((∃ key value, FieldOf d.value key value ∧ key ∈ SENSITIVE_DATA_FIELDS) →
      maskObjectSensitiveData d.value = .copy (maskFields SENSITIVE_DATA_FIELDS STRING_TO_REPLACE d.value)) := by
  have hgate := sensitive_named.checkFieldsExistence_iff d.value
  have hvalue : (maskObjectSensitiveData d.value).value =
      maskFields SENSITIVE_DATA_FIELDS STRING_TO_REPLACE d.value := by
    rw [mask_object d.proper hobject]
    by_cases hcheck : checkFieldsExistence SENSITIVE_DATA_FIELDS d.value = true
    · rw [if_pos hcheck, Masked.value]
    · rw [if_neg hcheck, Masked.value, maskFields_eq_self]
      exact fun key value hfield hkey => hcheck (hgate.mpr ⟨key, value, hfield, hkey⟩)
  refine ⟨hvalue, fun key value hfield hkey => ?_, fun hnone => ?_, fun hsome => ?_⟩
  · rw [hvalue] at hfield
    exact maskFields_fieldOf _ _ hfield hkey fun name inner h => by cases h
  · rw [mask_object d.proper hobject, if_neg]
    exact fun hcheck => by
      obtain ⟨key, value, hfield, hkey⟩ := hgate.mp hcheck
      exact hnone key value hfield hkey
  · rw [mask_object d.proper hobject, if_pos (hgate.mpr hsome)]

theorem maskObjectSensitiveData_exact_nested :
    (maskObjectSensitiveData (.arr [.arr [.obj [("pin", .str "4321"), ("name", .str "John")]]])).value =
      .arr [.arr [.obj [("pin", .str "***"), ("name", .str "John")]]] := by
  have hproper : (Value.arr [.arr [.obj [("pin", .str "4321"), ("name", .str "John")]]]).Proper := by
    simp [Value.proper_arr_iff, Value.proper_obj_iff, Value.Proper.str]
  rw [(maskObjectSensitiveData_exact ⟨_, hproper⟩ (Or.inr ⟨_, rfl⟩)).1]
  rfl

end node_backend.masks
