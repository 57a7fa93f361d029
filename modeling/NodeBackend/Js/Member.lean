import NodeBackend.Js.Units
import NodeBackend.Js.Value

namespace js

/-- What a property access gives: a value, one half of a surrogate pair, the text
of a single code unit that no other text of the program equals, or an object of the
runtime such as a method, by its number. -/
inductive Member
  | value (v : Value)
  | surrogate (unit : UInt16)
  | builtin (id : Nat)

def Member.undefined : Member := .value .undefined

/-- The text of one code unit. -/
def Member.ofUnit (unit : UInt16) : Member :=
  if leadSurrogate unit || trailSurrogate unit then .surrogate unit
  else .value (.str (String.singleton (unitChar unit)))

/-- A property of what is numbered: its length, or what stands at an index. -/
def indexed (members : List Member) (key : String) : Option Member :=
  if key = "length" then some (.value (.ofNumber (json.Number.ofDecimal false members.length 0)))
  else (members.zipIdx.find? fun member => toString member.2 = key).map Prod.fst

/-- An own property. -/
def Member.own : Member → String → Option Member
  | .value (.obj fields), key => (fields.lookup key).map .value
  | .value (.arr items), key => indexed (items.map .value) key
  | .value (.str s), key => indexed ((units s).map .ofUnit) key
  | .surrogate unit, key => indexed [.surrogate unit] key
  | _, _ => none

/-- What a key reads as that is none of a value's own: `constructor` and `toString` are
there of every object. Of an object of the runtime it is what any key reads as. -/
abbrev Inherited :=
  Member → String → Member

/-- A missing key reads as undefined. -/
def Inherited.nothing : Inherited := fun _ _ => .undefined

/-- Property access. -/
def Member.get (inherited : Inherited) (member : Member) (key : String) : Member :=
  (member.own key).getD (inherited member key)

def Member.truthy : Member → Bool
  | .value v => v.truthy
  | .surrogate _ => true
  | .builtin _ => true

/-- Object.entries of an array. -/
def numberedEntries (start : Nat) : List Value → List (String × Value)
  | [] => []
  | item :: rest => (toString start, item) :: numberedEntries (start + 1) rest

/-- Object.entries of an object or an array. -/
def Value.entries : Value → List (String × Value)
  | .obj fields => fields
  | .arr items => numberedEntries 0 items
  | _ => []

end js
