import NodeBackend.Js.Date
import NodeBackend.Json.RoundTrip

namespace js

/-- A finite number, known by the decimal that is its text. -/
structure Decimal where
  number : json.Number
  isFinite : number.isFinite = true
deriving DecidableEq

/-- The numbers that are not finite. -/
inductive NonFinite
  | nan
  | infinity (negative : Bool)
deriving DecidableEq

def NonFinite.toText : NonFinite → String
  | nan => "NaN"
  | infinity negative => if negative then "-Infinity" else "Infinity"

/-- A JavaScript value as a tree of plain data. A date without a time is an
Invalid Date, and an ObjectId is known by its hexadecimal text. -/
inductive Value
  | undefined
  | null
  | bool (b : Bool)
  | num (n : Decimal)
  | nonFinite (n : NonFinite)
  | str (s : String)
  | date (time : Option Time)
  | objectId (hex : String)
  | arr (items : List Value)
  | obj (fields : List (String × Value))

/-- Induction over values with one hypothesis for every item and every field. -/
@[induction_eliminator]
theorem Value.induction {P : Value → Prop} (undefined : P .undefined) (null : P .null)
    (bool : ∀ b, P (.bool b)) (num : ∀ n, P (.num n)) (nonFinite : ∀ n, P (.nonFinite n)) (str : ∀ s, P (.str s))
    (date : ∀ time, P (.date time)) (objectId : ∀ hex, P (.objectId hex))
    (arr : ∀ items, (∀ item ∈ items, P item) → P (.arr items))
    (obj : ∀ fields, (∀ field ∈ fields, P field.2) → P (.obj fields)) : ∀ v, P v := by
  intro v
  refine Value.rec (motive_1 := P) (motive_2 := fun items => ∀ item ∈ items, P item)
    (motive_3 := fun fields => ∀ field ∈ fields, P field.2) (motive_4 := fun field => P field.2)
    undefined null bool num nonFinite str date objectId arr obj ?_ ?_ ?_ ?_ ?_ v
  · simp
  · intro item items hitem hitems
    simpa using ⟨hitem, hitems⟩
  · simp
  · intro field fields hfield hfields other hother
    obtain rfl | htail := List.mem_cons.mp hother
    · exact hfield
    · exact hfields other htail
  · intro name value hvalue
    exact hvalue

/-- Every object of the value, at any depth, names each of its keys once. -/
inductive Value.Proper : Value → Prop
  | undefined : Proper .undefined
  | null : Proper .null
  | bool (b : Bool) : Proper (.bool b)
  | num (n : Decimal) : Proper (.num n)
  | nonFinite (n : NonFinite) : Proper (.nonFinite n)
  | str (s : String) : Proper (.str s)
  | date (time : Option Time) : Proper (.date time)
  | objectId (hex : String) : Proper (.objectId hex)
  | arr {items : List Value} (hitems : ∀ item ∈ items, Proper item) : Proper (.arr items)
  | obj {fields : List (String × Value)} (hkeys : (fields.map Prod.fst).Nodup)
      (hfields : ∀ field ∈ fields, Proper field.2) : Proper (.obj fields)

theorem Value.proper_arr_iff {items : List Value} :
    (Value.arr items).Proper ↔ ∀ item ∈ items, item.Proper :=
  ⟨fun h => by cases h; assumption, .arr⟩

theorem Value.proper_obj_iff {fields : List (String × Value)} :
    (Value.obj fields).Proper ↔ (fields.map Prod.fst).Nodup ∧ ∀ field ∈ fields, field.2.Proper :=
  ⟨fun h => by cases h; exact ⟨‹_›, ‹_›⟩, fun h => .obj h.1 h.2⟩

/-- The Boolean of a value. -/
def Value.truthy : Value → Bool
  | .undefined => false
  | .null => false
  | .bool b => b
  | .num n => n.number.mantissa != 0
  | .nonFinite n => n != .nan
  | .str s => s != ""
  | _ => true

def Value.isNullOrUndefined : Value → Bool
  | .undefined => true
  | .null => true
  | _ => false

/-- The left operand of `??`, or the right one where the left is nullish. -/
def Value.coalesce (left right : Value) : Value :=
  if left.isNullOrUndefined then right else left

/-- A named property, undefined where the value has none of that name. -/
def Value.prop (v : Value) (key : String) : Value :=
  match v with
  | .obj fields => (fields.lookup key).getD .undefined
  | _ => .undefined

/-- An error that the runtime itself throws. -/
structure TypeError where
  message : String
  deriving DecidableEq, Repr

def cannotConvertToPrimitive : TypeError := ⟨"Cannot convert object to primitive value"⟩

mutual

/-- Whether String(value) throws. It calls the `toString` of an object, and one
that is the object's own here is plain data. The items of an array are converted
too, the fields of an object are not. -/
def Value.unprintable : Value → Bool
  | .obj fields => (fields.lookup "toString").isSome
  | .arr items => anyUnprintable items
  | _ => false

def anyUnprintable : List Value → Bool
  | [] => false
  | item :: rest => item.unprintable || anyUnprintable rest

end

/-- What a value contributes to an object literal it is spread into. Index keys
of arrays and strings are left out: a named property is never one of them. -/
def Value.spread : Value → List (String × Value)
  | .obj fields => fields
  | _ => []

/-- An object literal from its parts in order, later parts overriding earlier ones. -/
def object (parts : List (List (String × Value))) : Value :=
  .obj (json.setFields [] parts.flatten)

theorem prop_spread (v : Value) (key : String) : v.prop key = (v.spread.lookup key).getD .undefined := by
  cases v <;> rfl

mutual

/-- What JSON.stringify writes for a value, `none` where it writes nothing. -/
def Value.toJson : Value → Option json.Value
  | .undefined => none
  | .null => some .null
  | .bool b => some (.bool b)
  | .num n => some (.num n.number)
  | .nonFinite _ => some .null
  | .str s => some (.str s)
  | .date none => some .null
  | .date (some t) => some (.str t.toISOString)
  | .objectId hex => some (.str hex)
  | .arr items => some (.arr (itemsToJson items))
  | .obj fields => some (.obj (fieldsToJson fields))

def itemsToJson : List Value → List json.Value
  | [] => []
  | item :: rest => item.toJson.getD .null :: itemsToJson rest

def fieldsToJson : List (String × Value) → List (String × json.Value)
  | [] => []
  | (key, value) :: rest =>
    match value.toJson with
    | none => fieldsToJson rest
    | some written => (key, written) :: fieldsToJson rest

end

/-- The number that a literal of a JSON text is read as. -/
def Value.ofNumber (n : json.Number) : Value :=
  if h : n.isFinite = true then .num ⟨n, h⟩ else .nonFinite (.infinity n.negative)

theorem Value.ofNumber_of_finite {n : json.Number} (h : n.isFinite = true) : Value.ofNumber n = .num ⟨n, h⟩ :=
  dif_pos h

mutual

/-- The value that JSON.parse builds. -/
def ofJson : json.Value → Value
  | .null => .null
  | .bool b => .bool b
  | .num n => .ofNumber n
  | .str s => .str s
  | .arr items => .arr (itemsOfJson items)
  | .obj fields => .obj (fieldsOfJson fields)

def itemsOfJson : List json.Value → List Value
  | [] => []
  | item :: rest => ofJson item :: itemsOfJson rest

def fieldsOfJson : List (String × json.Value) → List (String × Value)
  | [] => []
  | (key, value) :: rest => (key, ofJson value) :: fieldsOfJson rest

end

/-- JSON.stringify, `none` where it gives undefined. -/
def Value.stringify (v : Value) : Option String :=
  v.toJson.map json.Value.stringify

theorem itemsOfJson_eq_map (items : List json.Value) : itemsOfJson items = items.map ofJson := by
  induction items with
  | nil => rfl
  | cons item rest ih => rw [itemsOfJson, ih, List.map_cons]

theorem fieldsOfJson_eq_map (fields : List (String × json.Value)) :
    fieldsOfJson fields = fields.map fun field => (field.1, ofJson field.2) := by
  induction fields with
  | nil => rfl
  | cons field rest ih => rw [fieldsOfJson, ih, List.map_cons]

theorem lookup_fieldsOfJson (fields : List (String × json.Value)) (key : String) :
    (fieldsOfJson fields).lookup key = (fields.lookup key).map ofJson := by
  rw [fieldsOfJson_eq_map, json.lookup_map]

theorem unprintable_ofJson_obj (fields : List (String × json.Value)) :
    (ofJson (.obj fields)).unprintable = (fields.lookup "toString").isSome := by
  rw [ofJson, Value.unprintable, lookup_fieldsOfJson, Option.isSome_map]

theorem itemsToJson_eq_map (items : List Value) :
    itemsToJson items = items.map fun item => item.toJson.getD .null := by
  induction items with
  | nil => rfl
  | cons item rest ih => rw [itemsToJson, ih, List.map_cons]

theorem fieldsToJson_eq_filterMap (fields : List (String × Value)) :
    fieldsToJson fields = fields.filterMap fun field => field.2.toJson.map (field.1, ·) := by
  induction fields with
  | nil => rfl
  | cons field rest ih =>
    obtain ⟨key, value⟩ := field
    rw [fieldsToJson, List.filterMap_cons]
    cases value.toJson with
    | none => exact ih
    | some written => exact congrArg _ ih

/-- JSON.stringify undoes JSON.parse. -/
theorem toJson_ofJson {v : json.Value} (hproper : v.Proper) : (ofJson v).toJson = some v := by
  induction v with
  | null => rfl
  | bool b => rfl
  | num n =>
    have hfinite := json.Value.proper_num_iff.mp hproper
    rw [ofJson, Value.ofNumber_of_finite hfinite, Value.toJson]
  | str s => rfl
  | arr items ih =>
    rw [json.Value.proper_arr_iff] at hproper
    rw [ofJson, Value.toJson, itemsOfJson_eq_map, itemsToJson_eq_map, List.map_map]
    congr 2
    refine (List.map_congr_left fun item hitem => ?_).trans (List.map_id items)
    rw [Function.comp_apply, ih item hitem (hproper item hitem), Option.getD_some, id]
  | obj fields ih =>
    rw [json.Value.proper_obj_iff] at hproper
    rw [ofJson, Value.toJson, fieldsOfJson_eq_map, fieldsToJson_eq_filterMap, List.filterMap_map]
    congr 2
    refine (List.filterMap_congr fun field hfield => ?_).trans List.filterMap_some
    rw [Function.comp_apply, ih field hfield (hproper.2 field hfield), Option.map_some]

theorem Value.ofNumber_proper (n : json.Number) : (Value.ofNumber n).Proper := by
  rw [Value.ofNumber]
  split
  · exact .num _
  · exact .nonFinite _

theorem ofJson_proper {v : json.Value} (hkeys : v.KeysOnce) : (ofJson v).Proper := by
  induction v with
  | null => exact .null
  | bool b => exact .bool b
  | num n => exact Value.ofNumber_proper n
  | str s => exact .str s
  | arr items ih =>
    rw [json.Value.keysOnce_arr_iff] at hkeys
    rw [ofJson, itemsOfJson_eq_map, Value.proper_arr_iff]
    intro item hitem
    obtain ⟨source, hsource, rfl⟩ := List.mem_map.mp hitem
    exact ih source hsource (hkeys source hsource)
  | obj fields ih =>
    rw [json.Value.keysOnce_obj_iff] at hkeys
    rw [ofJson, fieldsOfJson_eq_map, Value.proper_obj_iff, List.map_map]
    refine ⟨hkeys.1, fun field hfield => ?_⟩
    obtain ⟨source, hsource, rfl⟩ := List.mem_map.mp hfield
    exact ih source hsource (hkeys.2 source hsource)

/-- Serialisation drops keys and never adds or renames one. -/
theorem fieldsToJson_keys_sublist (fields : List (String × Value)) :
    ((fieldsToJson fields).map Prod.fst).Sublist (fields.map Prod.fst) := by
  induction fields with
  | nil => exact List.Sublist.refl _
  | cons field rest ih =>
    obtain ⟨key, value⟩ := field
    rw [fieldsToJson]
    cases value.toJson with
    | none => exact ih.cons key
    | some written => exact ih.cons_cons key

theorem Value.Proper.toJson {v : Value} (hproper : v.Proper) {written : json.Value}
    (h : v.toJson = some written) : written.Proper := by
  induction v generalizing written with
  | undefined => cases h
  | null => cases h; exact .null
  | bool b => cases h; exact .bool b
  | num n => cases h; exact .num n.isFinite
  | nonFinite n => cases h; exact .null
  | str s => cases h; exact .str s
  | date time =>
    cases time with
    | none => cases h; exact .null
    | some t => cases h; exact .str _
  | objectId hex => cases h; exact .str hex
  | arr items ih =>
    rw [Value.proper_arr_iff] at hproper
    cases h
    rw [itemsToJson_eq_map, json.Value.proper_arr_iff]
    intro item hitem
    obtain ⟨source, hsource, rfl⟩ := List.mem_map.mp hitem
    cases hwritten : source.toJson with
    | none => exact .null
    | some text => exact ih source hsource (hproper source hsource) hwritten
  | obj fields ih =>
    rw [Value.proper_obj_iff] at hproper
    cases h
    refine .obj ((fieldsToJson_keys_sublist fields).nodup hproper.1) ?_
    rw [fieldsToJson_eq_filterMap]
    intro field hfield
    obtain ⟨source, hsource, hmap⟩ := List.mem_filterMap.mp hfield
    obtain ⟨text, htext, rfl⟩ := Option.map_eq_some_iff.mp hmap
    exact ih source hsource (hproper.2 source hsource) htext

theorem Value.Proper.spread_keys {v : Value} (hproper : v.Proper) : (v.spread.map Prod.fst).Nodup := by
  cases v with
  | obj fields => exact (Value.proper_obj_iff.mp hproper).1
  | _ => exact List.nodup_nil

end js
