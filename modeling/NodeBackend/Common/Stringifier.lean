import NodeBackend.Graph.Explore
import NodeBackend.Js.Heap
import NodeBackend.Js.Value

namespace js

/-- The functions there are, by their numbers. A call is given its `this` and its
arguments. It changes no object, and returns what was there before. A function is an object
too, with a prototype and fields. -/
structure Functions where
  call : ℕ → Slot → List Slot → Except Thrown Slot
  own : ℕ → Prototype × Fields

def includesNotAFunction : Thrown := .error "error.message.includes is not a function"

/-- `error instanceof Error && error.message.includes('circular')`. -/
def Thrown.circular : Thrown → Except Thrown Bool
  | .error message => .ok (decide ("circular".toList <:+: message.toList))
  | .strange (some included) => .ok included
  | .strange none => .error includesNotAFunction
  | .other => .ok false

def circularStructure : Thrown := .error "Converting circular structure to JSON"

def bigintSerialized : Thrown := .error "Do not know how to serialize a BigInt"

example : circularStructure.circular = .ok true := by decide

example : bigintSerialized.circular = .ok false := by decide

namespace Slot

/-- The text of a value that is no object. -/
def text : Slot → String
  | .undefined => "undefined"
  | .null => "null"
  | .bool b => if b then "true" else "false"
  | .num n => String.ofList n.number.toText
  | .nan => "NaN"
  | .infinity negative => if negative then "-Infinity" else "Infinity"
  | .bigint n => toString n
  | .str s => s
  | .symbol _ description => "Symbol(" ++ (description ++ ")")
  | .function _ source => source
  | .ref _ => "[object Object]"

def isObject : Slot → Bool
  | .ref _ => true
  | .function _ _ => true
  | _ => false

/-- What stands for a value in JSON, where anything does. -/
def json : Slot → Option json.Value
  | .null => some .null
  | .bool b => some (.bool b)
  | .num n => some (.num n.number)
  | .nan => some .null
  | .infinity _ => some .null
  | .str s => some (.str s)
  | _ => none

end Slot

/-- What an object inherits from, and its fields. -/
def Cell.own : Cell → Prototype × Fields
  | .arr _ => (.usual, .empty)
  | .obj prototype fields => (prototype, fields)
  | .error _ _ fields => (.usual, fields)

variable (functions : Functions) (h : Heap)

def Slot.field (key : String) : Slot → Option Slot
  | .ref address => (h.cell address).own.2.get key
  | .function id _ => (functions.own id).2.get key
  | _ => none

/-- What one of the methods that String tries gives for an object, none where it gives no
primitive value. A plain object inherits from Object.prototype or from nothing, and a
function from Function.prototype or from nothing, so that one that was given a prototype
has no methods but its own. -/
def tryMethod (this : Slot) (own : Prototype × Fields) (name : String) (inherited : Option Slot) :
    Except Thrown (Option Slot) :=
  match own.2.get name, own.1 with
  | some (.function id _), _ =>
    (functions.call id this []).map fun result => if result.isObject then none else some result
  | some _, _ => .ok none
  | none, .usual => .ok inherited
  | none, .given _ => .ok none

/-- The text of a primitive value, which a symbol does not give unasked. -/
def primitiveText : Slot → Except Thrown String
  | .symbol _ _ => .error (.error "Cannot convert a Symbol value to a string")
  | primitive => .ok primitive.text

/-- String of an object or a function, for which the `toString` that it inherits has a
text. -/
def stringOf (this : Slot) (own : Prototype × Fields) (inherited : String) : Except Thrown String :=
  match tryMethod functions this own "toString" (some (.str inherited)) with
  | .error thrown => .error thrown
  | .ok (some primitive) => primitiveText primitive
  | .ok none =>
    match tryMethod functions this own "valueOf" none with
    | .error thrown => .error thrown
    | .ok (some primitive) => primitiveText primitive
    | .ok none => .error (.error cannotConvertToPrimitive.message)

/-- The value of an entry, or what the `toJSON` of the value returns. -/
def resolve (entry : String × Slot) : Except Thrown Slot :=
  match entry.2.field functions h "toJSON" with
  | some (.function id _) => functions.call id entry.2 [.str entry.1]
  | _ => .ok entry.2

/-- An entry as JSON.stringify sees it: an object to go into, or what it stands for. -/
def classify (entry : String × Slot) : Except Thrown (Option json.Value ⊕ ℕ) :=
  match resolve functions h entry with
  | .error thrown => .error thrown
  | .ok (.ref address) => .ok (.inr address)
  | .ok (.bigint _) => .error bigintSerialized
  | .ok value => .ok (.inl value.json)

def jsonTraversal : graph.Traversal ℕ (String × Slot) (Option json.Value) Thrown where
  items address := (h.cell address).entries
  classify := classify functions h

/-- An array has null for a value that nothing stands for, an object leaves it out. -/
def assemble (address : ℕ) (members : List ((String × Slot) × Option json.Value)) : Option json.Value :=
  match h.cell address with
  | .arr _ => some (.arr (members.map fun member => member.2.getD .null))
  | _ => some (.obj (members.filterMap fun member => member.2.map fun value => (member.1.1, value)))

/-- JSON.stringify. It throws where an object is inside itself. -/
def stringify (data : Slot) : Except Thrown (Option String) :=
  match classify functions h ("", data) with
  | .error thrown => .error thrown
  | .ok (.inl value) => .ok (value.map json.Value.stringify)
  | .ok (.inr root) =>
    ((jsonTraversal functions h).descend circularStructure .other (assemble h) (h.length + 1) [] root).map
      (Option.map json.Value.stringify)

/-- JSON.stringify with the replacer of parseObjectToString, which puts a text in place of
each object that it has met before. Such a text is no object, so that none is inside
itself. -/
def stringifyOnce (data : Slot) : Except Thrown (Option String) :=
  match classify functions h ("", data) with
  | .error thrown => .error thrown
  | .ok (.inl value) => .ok (value.map json.Value.stringify)
  | .ok (.inr root) =>
    ((jsonTraversal functions h).explore (some (.str "{Circular Reference}")) .other (assemble h) (h.length + 1) []
      root).map fun result => result.1.map json.Value.stringify

end js

namespace node_backend.stringifier

open js

/-- What parseArrayToString makes of a value inside an array: the text of what is no array,
which join takes for an empty one where it is undefined, or what is inside brackets. -/
inductive Shown
  | text (text : Option String)
  | circular
  | items (items : List Shown)

mutual

def Shown.render : Shown → String
  | .text text => text.getD ""
  | .circular => "[Circular Reference]"
  | .items items => "[" ++ (renderItems items ++ "]")

/-- The items joined by commas. -/
def renderItems : List Shown → String
  | [] => ""
  | [item] => item.render
  | item :: rest => item.render ++ ("," ++ renderItems rest)

end

theorem renderItems_cons_cons (item next : Shown) (rest : List Shown) :
    renderItems (item :: next :: rest) = item.render ++ ("," ++ renderItems (next :: rest)) := rfl

variable (functions : Functions) (h : Heap) (returnUndefined : Bool)

def parseObjectToString (data : Slot) (fallback : String) : Except Thrown (Option String) :=
  match stringify functions h data with
  | .ok text => .ok text
  | .error thrown =>
    thrown.circular.bind fun circular =>
      if circular then stringifyOnce functions h data else .ok (some fallback)

/-- DataParserHelper.toString for what is no array. -/
def elementToString (data : Slot) : Except Thrown (Option String) :=
  match data with
  | .undefined => .ok (some (if returnUndefined then "undefined" else ""))
  | .ref address =>
    match h.cell address with
    | .error name message _ => name.bind fun name => message.map fun message => some (name ++ (": " ++ message))
    | cell =>
      (stringOf functions data cell.own "[object Object]").bind fun fallback =>
        parseObjectToString functions h data fallback
  | .function id source => (stringOf functions data (functions.own id) source).map some
  | value => .ok (some value.text)

/-- The arrays inside an array, where other elements are shown by a function. -/
def arrayTraversal (print : Slot → Except Thrown (Option String)) : graph.Traversal ℕ Slot Shown Thrown where
  items array := (h.cell array).slots
  classify element :=
    match element with
    | .ref address =>
      if (h.cell address).isArray then .ok (.inr address) else (print element).map fun text => .inl (.text text)
    | _ => (print element).map fun text => .inl (.text text)

/-- The array is visited with one set of seen arrays for the whole of it. -/
def parseArrayToString (print : Slot → Except Thrown (Option String)) (array : ℕ) : Except Thrown Shown :=
  ((arrayTraversal h print).explore .circular .other (fun _ items => .items (items.map Prod.snd)) (h.length + 1) []
    array).map Prod.fst

/-- DataParserHelper.toString, where none is a result that is undefined. -/
def toString (data : Slot) : Except Thrown (Option String) :=
  match data with
  | .ref address =>
    if (h.cell address).isArray then
      (parseArrayToString h (elementToString functions h returnUndefined) address).map fun shown => some shown.render
    else elementToString functions h returnUndefined data
  | _ => elementToString functions h returnUndefined data

end node_backend.stringifier
