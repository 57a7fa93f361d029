import NodeBackend.Js.StructuredClone

namespace node_backend.object_recursion

open js

/-- Names of properties that objects, arrays, errors or functions have without a field of
their own. -/
def builtInNames : List String :=
  ["__defineGetter__", "__defineSetter__", "__lookupGetter__", "__lookupSetter__", "__proto__", "constructor",
    "hasOwnProperty", "isPrototypeOf", "propertyIsEnumerable", "toLocaleString", "toString", "valueOf",
    "at", "concat", "copyWithin", "entries", "every", "fill", "filter", "find", "findIndex", "findLast",
    "findLastIndex", "flat", "flatMap", "forEach", "includes", "indexOf", "join", "keys", "lastIndexOf", "length",
    "map", "pop", "push", "reduce", "reduceRight", "reverse", "shift", "slice", "some", "sort", "splice",
    "toReversed", "toSorted", "toSpliced", "unshift", "values", "with",
    "cause", "message", "name", "stack",
    "apply", "arguments", "bind", "call", "caller", "prototype"]

def isIndex (name : String) : Bool :=
  match name.toList with
  | [] => false
  | ['0'] => true
  | first :: rest => first != '0' && (first :: rest).all Char.isDigit

/-- A name that only a field can have. -/
structure FieldName where
  name : String
  ordinary : name ∉ builtInNames ∧ isIndex name = false

/-- The fields of `newObj`, and what it inherits from. -/
def assign (newObj : Prototype × Fields) (key : String) (value : Slot) : Prototype × Fields :=
  if key = "__proto__" then
    match value with
    | .null => (.given value, newObj.2)
    | .ref _ => (.given value, newObj.2)
    | .function _ _ => (.given value, newObj.2)
    | _ => newObj
  else (newObj.1, newObj.2.set key value)

/-- The own entries of a value that structuredClone rejects. A symbol and a function have
none. -/
def ownEntries (h : Heap) : Slot → List (String × Slot)
  | .ref address => (h.cell address).entries
  | _ => []

/-- What the loop of cloneObject does with an entry. -/
def cloneEntry (recurse : Heap → Slot → Option (Heap × Slot)) (state : Heap × Prototype × Fields)
    (entry : String × Slot) : Option (Heap × Prototype × Fields) :=
  match entry.2 with
  | .ref inner =>
    if (state.1.cell inner).isArray then some (state.1, assign state.2 entry.1 (.ref inner))
    else do
      let (h, value) ← recurse state.1 (.ref inner)
      some (h, assign state.2 entry.1 value)
  | value => some (state.1, assign state.2 entry.1 value)

def cloneObject : ℕ → Heap → Slot → Option (Heap × Slot)
  | 0, _, _ => none
  | fuel + 1, h, obj =>
    match structuredClone h obj with
    | some cloned => some cloned
    | none => do
      let (h, newObj) ← (ownEntries h obj).foldlM (cloneEntry (cloneObject fuel)) (h, (.usual, .empty))
      some (h ++ [.obj newObj.1 newObj.2], .ref h.length)

def hasFieldsAtCurrentObjectLevel (h : Heap) (obj : ℕ) (fieldsToApply : List FieldName) : Bool :=
  (h.cell obj).entries.any fun entry => fieldsToApply.any fun field => field.name == entry.1

/-- A text has the indices of its characters for keys, and other values that are not
objects have none. -/
def checkFieldsExistence (h : Heap) (fieldsToApply : List FieldName) : ℕ → Slot → Option Bool
  | 0, _ => none
  | fuel + 1, .ref obj =>
    if hasFieldsAtCurrentObjectLevel h obj fieldsToApply then some true
    else (h.cell obj).slots.anyM fun value =>
      match value with
      | .ref inner =>
        if (h.cell inner).isArray then
          (h.cell inner).slots.anyM fun item => checkFieldsExistence h fieldsToApply fuel item
        else checkFieldsExistence h fieldsToApply fuel value
      | _ => some false
  | _ + 1, _ => some false

/-- A property of an object, its own one or what it inherits. -/
def get (h : Heap) (key : FieldName) : ℕ → ℕ → Slot
  | 0, _ => .undefined
  | fuel + 1, obj =>
    match h.cell obj with
    | .arr _ => .undefined
    | .error _ _ fields => (fields.get key.name).getD .undefined
    | .obj prototype fields =>
      match fields.get key.name, prototype with
      | some value, _ => value
      | none, .given (.ref inherited) => get h key fuel inherited
      | none, _ => .undefined

def setOwn (key : FieldName) (value : Slot) : Cell → Cell
  | .arr items => .arr items
  | .obj prototype fields => .obj prototype (fields.set key.name value)
  | .error name message fields => .error name message (fields.set key.name value)

def applyFieldReplacement (h : Heap) (obj : ℕ) (fieldsToApply : List FieldName) (valueToReplace : Slot) : Heap :=
  fieldsToApply.foldl (fun h key =>
    if get h key (h.length + 1) obj ≠ .undefined then h.set obj (setOwn key valueToReplace (h.cell obj)) else h) h

/-- What is done with an item of an array: nothing, unless it is an object. -/
def replaceItem (recurse : Heap → Slot → Option (Heap × Slot)) (h : Heap) : Slot → Option Heap
  | .ref item => (recurse h (.ref item)).map Prod.fst
  | _ => some h

def replaceInValue (recurse : Heap → Slot → Option (Heap × Slot)) (h : Heap) : Slot → Option Heap
  | .ref inner =>
    if (h.cell inner).isArray then forEachSlot (replaceItem recurse) h inner
    else (recurse h (.ref inner)).map Prod.fst
  | _ => some h

def replaceFields (fieldsToApply : List FieldName) (valueToReplace : Slot) : ℕ → Heap → Slot → Option (Heap × Slot)
  | 0, _, _ => none
  | _ + 1, h, .undefined => some (h, .null)
  | _ + 1, h, .null => some (h, .null)
  | fuel + 1, h, .ref obj => do
    let h ← forEachSlot (replaceInValue (replaceFields fieldsToApply valueToReplace fuel)) h obj
    some (applyFieldReplacement h obj fieldsToApply valueToReplace, .ref obj)
  | _ + 1, h, data => some (h, data)

def SENSITIVE_DATA_FIELDS : List FieldName :=
  [⟨"password", by decide⟩, ⟨"newPassword", by decide⟩, ⟨"cvv", by decide⟩, ⟨"pin", by decide⟩,
    ⟨"token", by decide⟩]

def STRING_TO_REPLACE : Slot := .str "***"

/-- maskObjectSensitiveData, as far as the fuel goes. The typeof of a function is not
`object`. -/
def maskObjectSensitiveData (fuel : ℕ) (h : Heap) (data : Slot) : Option (Heap × Slot) :=
  match data with
  | .ref _ => do
    if ← checkFieldsExistence h SENSITIVE_DATA_FIELDS fuel data then
      let (h, newData) ← cloneObject fuel h data
      replaceFields SENSITIVE_DATA_FIELDS STRING_TO_REPLACE fuel h newData
    else some (h, data)
  | _ => some (h, .null)

end node_backend.object_recursion
